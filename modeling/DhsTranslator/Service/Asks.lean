import DhsTranslator.Conc.Permitted
import DhsTranslator.Service.Outcomes

/-!
# What a request asks for

The commands that serving a request may issue, whatever request it is.

- `Asks`: keywords are only set as they were read from the request, and only a well-formed request adds to the cache;
- `serve_other`: a request for no operation issues nothing; `serve_asks`: every request follows `Asks`.
-/

namespace DhsTranslator

open Conc DhsService

section Requests

variable {env : Env} {req : AxiomNode}

/-- A command that serving the request may issue: keywords are those that were read from it. -/
def Asks (env : Env) (req : AxiomNode) : SvcCmd → Prop
  | .setImageKeywords id keywords final => WellFormed env req ⟨keywords, id, final, true⟩
  | .add _ _ _ => ∃ vars, WellFormed env req vars
  | _ => True

theorem serve_other (hcreate : ¬req.IsNamed "createImage") (hparameters : ¬req.IsNamed "setParameters")
    (hkeywords : ¬req.IsNamed "setKeywords") : serve env req = .ret none := by
  cases req with
  | element name ns attrs cs =>
    have hname : ∀ op : String, ¬(AxiomNode.element name ns attrs cs).IsNamed op → name ≠ op :=
      fun op hop heq => hop (congrArg some heq)
    show (invoke env (some (.root (.element name ns attrs cs)))).tryCatch onAbort = _
    have hinvoke : invoke env (some (.root (.element name ns attrs cs))) =
        if name = "createImage" then createImage env (.root (.element name ns attrs cs)) >>= fun r => .ret (some r)
        else if name = "setParameters" then setParameters env (.root (.element name ns attrs cs)) >>= fun r => .ret (some r)
        else if name = "setKeywords" then setKeywords env (.root (.element name ns attrs cs)) >>= fun r => .ret (some r)
        else .ret none := rfl
    rw [hinvoke, if_neg (hname _ hcreate), if_neg (hname _ hparameters), if_neg (hname _ hkeywords)]
    rfl
  | _ => rfl

/-- The calls for the parameters of an image. -/
theorem follows_setParametersOf {imageId : Option ImageId} :
    Follows (.only (Asks env req)) (setParametersOf imageId env (some (.root req))) () fun _ _ => True := by
  rw [setParametersOf_eq]
  split
  · generalize (NodePtr.root req).node.parameters imageId = vars
    induction vars.calls with
    | nil => trivial
    | cons c cs ih =>
      have hcalls : Follows (.only (Asks env req)) (runCalls vars.id cs) () fun _ _ => True := ih
      rw [runCalls, follows_bind]
      cases c <;>
      · refine ⟨trivial, fun out => ?_⟩
        cases out with
        | error what => trivial
        | ok status =>
          simp only [answer_ok, follows_ret, then_ok]
          split
          · trivial
          · exact hcalls
  · trivial

theorem follows_caught {p : Svc AxiomNode} (h : Follows (.only (Asks env req)) p () fun _ _ => True) :
    Follows (.only (Asks env req)) (caught p) () fun _ _ => True := by
  unfold caught
  refine follows_tryCatch ?_
  rw [follows_bind]
  refine h.mono fun x _ _ => ?_
  cases x with
  | ok r => exact ⟨fun _ _ => trivial, fun _ h => nomatch h⟩
  | error e => exact ⟨fun _ _ => trivial, fun e' _ => by cases e' <;> trivial⟩

/-- **What serving a request asks for.** -/
theorem serve_asks (env : Env) (req : AxiomNode) : Follows (.only (Asks env req)) (serve env req) () fun _ _ => True := by
  by_cases hkeywords : req.IsNamed "setKeywords"
  · rcases request_cases env hkeywords with ⟨⟨keywords, id, final, parsed⟩, hwf⟩ | ⟨res, hserve, _⟩
    · obtain rfl : parsed = true := hwf.parsed
      rw [serve_transaction hwf]
      refine ⟨trivial, fun t => ⟨trivial, fun _ => ⟨trivial, fun found => ?_⟩⟩⟩
      cases found with
      | true => trivial
      | false =>
        refine ⟨hwf, fun out => ?_⟩
        rcases out with what | (_ | _ | code)
        · trivial
        · exact ⟨⟨_, hwf⟩, fun _ => trivial⟩
        · trivial
        · trivial
    · rw [hserve, follows_lift]
      trivial
  · by_cases hcreate : req.IsNamed "createImage"
    · rw [serve_createImage_call hcreate]
      refine ⟨trivial, fun out => ?_⟩
      by_cases hout : out.map Prod.fst = .ok .S_SUCCESS
      · obtain ⟨id, rfl⟩ := eq_created hout
        rw [afterCreate_success]
        split
        · trivial
        · refine follows_caught ?_
          unfold createdImage
          rw [follows_bind]
          refine follows_setParametersOf.mono fun x _ _ => ?_
          rcases x with e | (_ | errors) <;> trivial
      · rw [afterCreate_failed hout]
        trivial
    · by_cases hparameters : req.IsNamed "setParameters"
      · rw [serve_setParameters hparameters]
        refine follows_caught ?_
        unfold setParameters
        rw [follows_bind]
        refine follows_setParametersOf.mono fun x _ _ => ?_
        rcases x with e | (_ | errors) <;> trivial
      · rw [serve_other hcreate hparameters hkeywords]
        trivial

end Requests

end DhsTranslator
