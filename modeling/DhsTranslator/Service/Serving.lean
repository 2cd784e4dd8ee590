import DhsTranslator.Service.DecodeSpec
import DhsTranslator.Service.Operations

/-!
# How a request is served

Normal forms of the programs in `Operations.lean`, once the request is decoded.

- `serve_createImage`, `serve_setParameters`, `serve_setKeywords`: the dispatch;
- `setParametersOf_eq`: `setParameters` makes the calls of `Parameters.calls` one after another, and `ends_runCalls`:
  each call but the last succeeded, and it stops at the first that does not;
- `serve_transaction`: a well-formed `setKeywords` request is the program `transaction`, and `path_transaction`: what it
  has done at any time is one of the stages `Stage`;
- `serve_rejected`, `serve_aborted`: every other `setKeywords` request is answered or lost without a command.
-/

namespace DhsTranslator

open Conc DhsService

/-! ## Dispatch -/

/-- An operation under the `catch` of the entry point. -/
def caught (p : Svc AxiomNode) : Svc (Option AxiomNode) := (p >>= fun r => .ret (some r)).tryCatch onAbort

theorem serve_createImage {env : Env} {req : AxiomNode} (h : req.IsNamed "createImage") :
    serve env req = caught (createImage env (.root req)) := by
  obtain ⟨ns, attrs, cs, rfl⟩ := h.eq_element
  rfl

theorem serve_setParameters {env : Env} {req : AxiomNode} (h : req.IsNamed "setParameters") :
    serve env req = caught (setParameters env (.root req)) := by
  obtain ⟨ns, attrs, cs, rfl⟩ := h.eq_element
  rfl

theorem serve_setKeywords {env : Env} {req : AxiomNode} (h : req.IsNamed "setKeywords") :
    serve env req = caught (setKeywords env (.root req)) := by
  obtain ⟨ns, attrs, cs, rfl⟩ := h.eq_element
  rfl

/-- The reply to an exception. -/
def internalError : AxiomNode := buildErrorResponse INTERNAL_ERROR "Internal error processing request."

theorem ends_caught {p : Svc AxiomNode} {tr : List (Act SvcSig)} {res : Except Abort (Option AxiomNode)} :
    Ends (caught p) tr res ↔
      (∃ r, res = .ok (some r) ∧ Ends p tr (.ok r)) ∨
      (∃ what, res = .ok (some internalError) ∧ Ends p tr (.error (.exception what))) ∨
      ∃ fn, res = .error (.nullNode fn) ∧ Ends p tr (.error (.nullNode fn)) := by
  unfold caught
  rw [ends_tryCatch]
  constructor
  · rintro (⟨a, rfl, h⟩ | ⟨e, tr₁, tr₂, rfl, h₁, h₂⟩)
    · rcases ends_bind.1 h with ⟨r, tr₁, tr₂, rfl, h₁, h₂⟩ | ⟨e, he, _⟩
      · obtain ⟨rfl, hr⟩ := ends_ret.1 h₂
        cases hr
        exact Or.inl ⟨r, rfl, by simpa using h₁⟩
      · cases he
    · rcases ends_bind.1 h₁ with ⟨r, tr₃, tr₄, rfl, _, h₄⟩ | ⟨e', he, h₃⟩
      · cases (ends_ret.1 h₄).2
      · cases he
        cases e with
        | nullNode fn =>
          obtain ⟨rfl, rfl⟩ := ends_raise.1 h₂
          exact Or.inr (Or.inr ⟨fn, rfl, by simpa using h₃⟩)
        | exception what =>
          obtain ⟨rfl, rfl⟩ := ends_ret.1 h₂
          exact Or.inr (Or.inl ⟨what, rfl, by simpa using h₃⟩)
  · rintro (⟨r, rfl, h⟩ | ⟨what, rfl, h⟩ | ⟨fn, rfl, h⟩)
    · exact Or.inl ⟨some r, rfl, ends_bind.2 (Or.inl ⟨r, tr, [], by simp, h, ends_ret.2 ⟨rfl, rfl⟩⟩)⟩
    · exact Or.inr ⟨.exception what, tr, [], by simp, ends_bind.2 (Or.inr ⟨_, rfl, h⟩), ends_ret.2 ⟨rfl, rfl⟩⟩
    · exact Or.inr ⟨.nullNode fn, tr, [], by simp, ends_bind.2 (Or.inr ⟨_, rfl, h⟩), ends_raise.2 ⟨rfl, rfl⟩⟩

/-! ## The calls of `setParameters` -/

/-- An adapter call that sets a parameter of an image. -/
inductive ParamCall where
  | lifeTime (lifeTime : DhsBdLifetime)
  | contrib (contribs : List String)
  deriving DecidableEq, Repr

namespace ParamCall

def perform (id : ImageId) : ParamCall → Svc DhsStatus
  | lifeTime lt => IDhsAdapter.setImageLifeTime id lt
  | contrib contribs => IDhsAdapter.setImageContrib id contribs

/-- The call with its outcome. -/
def act (id : ImageId) : ParamCall → Except String DhsStatus → Act SvcSig
  | lifeTime lt, out => ⟨.setImageLifeTime id lt, out⟩
  | contrib contribs, out => ⟨.setImageContrib id contribs, out⟩

/-- The reply when the call fails. -/
def failed : ParamCall → AxiomNode
  | lifeTime _ => buildErrorResponse DHS_ERROR "DHS error while trying to set data set lifetime."
  | contrib _ => buildErrorResponse DHS_ERROR "DHS error while trying to set data set contributors."

/-- What an outcome other than success ends the operation with. -/
def failure (c : ParamCall) : Except String DhsStatus → Except Abort (Option AxiomNode)
  | .ok _ => .ok (some c.failed)
  | .error what => .error (.exception what)

end ParamCall

/-- One call after another, up to the first that fails. -/
def runCalls (id : ImageId) : List ParamCall → Svc (Option AxiomNode)
  | [] => .ret none
  | c :: cs => do
    let status ← c.perform id
    if status ≠ .S_SUCCESS then return some c.failed
    runCalls id cs

/-- The calls for the parameters read. -/
def Parameters.calls (vars : Parameters) : List ParamCall :=
  (if vars.lifetimeSet then [.lifeTime vars.lifetime] else []) ++
    (if vars.contributors ≠ [] then [.contrib vars.contributors] else [])

/-- The reply when there is no image id. -/
def noImageId : AxiomNode := buildErrorResponse BAD_REQUEST "Could not parse image id."

/-- **The body of `setParameters`.** -/
theorem setParametersOf_eq (imageId : Option ImageId) (env : Env) (p : NodePtr) :
    setParametersOf imageId env (some p) =
      if (p.node.parameters imageId).id ≠ "" then
        runCalls (p.node.parameters imageId).id (p.node.parameters imageId).calls
      else .ret (some noImageId) := by
  unfold setParametersOf
  rw [decodeParameters_eq]
  generalize p.node.parameters imageId = vars
  obtain ⟨contributors, lifetime, lifetimeSet, id⟩ := vars
  by_cases hid : id = ""
  · simp [hid, noImageId]
  · cases lifetimeSet <;> by_cases hc : contributors = [] <;>
      simp [hid, hc, runCalls, Parameters.calls, ParamCall.perform, ParamCall.failed]

/-- The program goes on with the outcome. -/
theorem ends_answer {α : Type} {out : Except String α} {tr : List (Act SvcSig)} {res : Except Abort α} :
    Ends (answer out) tr res ↔ tr = [] ∧ res = out.mapError .exception := by
  cases out with
  | ok a => exact ends_ret
  | error what => exact ends_raise

/-- The outcome of a call, as the program sees it. -/
theorem ends_perform {c : ParamCall} {id : ImageId} {tr : List (Act SvcSig)} {res : Except Abort DhsStatus} :
    Ends (c.perform id) tr res ↔ ∃ out, tr = [c.act id out] ∧ res = out.mapError .exception := by
  cases c with
  | lifeTime lt =>
    refine (ends_call (S := SvcSig) (c := SvcCmd.setImageLifeTime id lt) (k := answer)).trans ?_
    refine exists_congr fun out => ?_
    constructor
    · rintro ⟨tr', rfl, h⟩
      obtain ⟨rfl, rfl⟩ := ends_answer.1 h
      exact ⟨rfl, rfl⟩
    · rintro ⟨rfl, rfl⟩
      exact ⟨[], rfl, ends_answer.2 ⟨rfl, rfl⟩⟩
  | contrib contribs =>
    refine (ends_call (S := SvcSig) (c := SvcCmd.setImageContrib id contribs) (k := answer)).trans ?_
    refine exists_congr fun out => ?_
    constructor
    · rintro ⟨tr', rfl, h⟩
      obtain ⟨rfl, rfl⟩ := ends_answer.1 h
      exact ⟨rfl, rfl⟩
    · rintro ⟨rfl, rfl⟩
      exact ⟨[], rfl, ends_answer.2 ⟨rfl, rfl⟩⟩

/-- The calls, all successful. -/
def succeeded (id : ImageId) (cs : List ParamCall) : List (Act SvcSig) := cs.map fun c => c.act id (.ok .S_SUCCESS)

/-- **Fail-stop**: all calls succeed, or all before the last one made, which does not. -/
theorem ends_runCalls {id : ImageId} {cs : List ParamCall} {tr : List (Act SvcSig)}
    {res : Except Abort (Option AxiomNode)} (h : Ends (runCalls id cs) tr res) :
    (tr = succeeded id cs ∧ res = .ok none) ∨
    ∃ done c rest out, cs = done ++ c :: rest ∧ tr = succeeded id done ++ [c.act id out] ∧
      out ≠ .ok .S_SUCCESS ∧ res = c.failure out := by
  induction cs generalizing tr with
  | nil => exact Or.inl (ends_ret.1 h)
  | cons c cs ih =>
    rcases ends_bind.1 h with ⟨status, tr₁, tr₂, rfl, h₁, h₂⟩ | ⟨e, rfl, h₁⟩
    · obtain ⟨out, rfl, hout⟩ := ends_perform.1 h₁
      obtain rfl : out = .ok status := by cases out <;> cases hout; rfl
      by_cases hs : status = .S_SUCCESS
      · subst hs
        rcases ih h₂ with ⟨rfl, rfl⟩ | ⟨done, d, rest, out, rfl, rfl, hne, rfl⟩
        · exact Or.inl ⟨rfl, rfl⟩
        · exact Or.inr ⟨c :: done, d, rest, out, rfl, rfl, hne, rfl⟩
      · rw [if_pos hs] at h₂
        obtain ⟨rfl, rfl⟩ := ends_ret.1 h₂
        exact Or.inr ⟨[], c, cs, .ok status, rfl, rfl, fun h => hs (Except.ok.inj h), rfl⟩
    · obtain ⟨out, rfl, hout⟩ := ends_perform.1 h₁
      cases out with
      | ok status => cases hout
      | error what =>
        cases hout
        exact Or.inr ⟨[], c, cs, .error what, rfl, rfl, nofun, rfl⟩

/-! ## The transaction of `setKeywords` -/

/-- The reply when an adapter call for keywords fails. -/
def keywordsFailed : AxiomNode := buildErrorResponse DHS_ERROR "DHS error while trying to set data set keywords."

/-- The reply to an adapter call that does not succeed. -/
def keywordsReply : Except String DhsStatus → AxiomNode
  | .ok _ => keywordsFailed
  | .error _ => internalError

/-- After the adapter call. -/
def afterCall (vars : KeywordsRequest) (msg : String) (t : Int) : Except String DhsStatus → Svc (Option AxiomNode)
  | .ok .S_SUCCESS => .call (.add vars.id t msg) fun _ => .ret (some (buildSuccessResponse none))
  | out => .ret (some (keywordsReply out))

/-- After the duplicate check. -/
def afterCheck (vars : KeywordsRequest) (msg : String) (t : Int) : Bool → Svc (Option AxiomNode)
  | true => .ret (some (buildSuccessResponse none))
  | false => .call (.setImageKeywords vars.id vars.keywords vars.final) (afterCall vars msg t)

/-- A well-formed `setKeywords` request with the variables read and the message serialised. -/
def transaction (vars : KeywordsRequest) (msg : String) : Svc (Option AxiomNode) :=
  .call .time fun t => .call (.purgeOldMessages t) fun _ => .call (.exists vars.id msg) (afterCheck vars msg t)

/-- The request is read as the code requires. -/
structure WellFormed (env : Env) (req : AxiomNode) (vars : KeywordsRequest) : Prop where
  op : req.IsNamed "setKeywords"
  read : req.keywordsRequest env = .ok vars
  id : vars.id ≠ ""
  parsed : vars.keywordsParsed = true

theorem serve_transaction {env : Env} {req : AxiomNode} {vars : KeywordsRequest} (h : WellFormed env req vars) :
    serve env req = transaction vars (env.nodeToString req) := by
  have hdec : decodeKeywords env (some (.root req)) = .ok vars := by rw [decodeKeywords_eq]; exact h.read
  rw [serve_setKeywords h.op]
  unfold setKeywords
  rw [hdec]
  simp only [Prog.lift_ok, Prog.ret_bind, h.id, h.parsed, ne_eq, not_false_eq_true, and_self, if_true]
  unfold caught transaction
  simp only [time, checkTransaction, MsgCache.purgeOldMessages, MsgCache.exists, Prog.call_bind, Prog.ret_bind,
    Prog.tryCatch_call]
  congr 1; funext t; congr 1; funext _; congr 1; funext found
  cases found with
  | true => rfl
  | false =>
    show Prog.call _ _ = Prog.call _ _
    congr 1; funext out
    cases out with
    | error what => rfl
    | ok status => cases status <;> rfl

/-- The reply to a request that was read but lacks an id or keywords. -/
def rejection (vars : KeywordsRequest) : AxiomNode :=
  buildErrorResponse BAD_REQUEST (if vars.id = "" then "Could not parse image id." else "Could not parse keywords.")

theorem serve_rejection {env : Env} {req : AxiomNode} {vars : KeywordsRequest} (hop : req.IsNamed "setKeywords")
    (hread : req.keywordsRequest env = .ok vars) (hbad : ¬(vars.id ≠ "" ∧ vars.keywordsParsed = true)) :
    serve env req = .ret (some (rejection vars)) := by
  have hdec : decodeKeywords env (some (.root req)) = .ok vars := by rw [decodeKeywords_eq]; exact hread
  rw [serve_setKeywords hop]
  unfold setKeywords rejection
  rw [hdec]
  simp only [Prog.lift_ok, Prog.ret_bind, if_neg hbad]
  by_cases hid : vars.id = ""
  · rw [if_pos hid, if_pos hid]; rfl
  · rw [if_neg hid, if_neg hid]; rfl

/-- A `setKeywords` request that was read but lacks an id or keywords. -/
theorem serve_rejected {env : Env} {req : AxiomNode} {vars : KeywordsRequest} (hop : req.IsNamed "setKeywords")
    (hread : req.keywordsRequest env = .ok vars) (hbad : ¬(vars.id ≠ "" ∧ vars.keywordsParsed = true)) :
    ∃ message, serve env req = .ret (some (buildErrorResponse BAD_REQUEST message)) :=
  ⟨_, serve_rejection hop hread hbad⟩

/-- A `setKeywords` request on which reading aborts. -/
theorem serve_aborted {env : Env} {req : AxiomNode} {e : Abort} (hop : req.IsNamed "setKeywords")
    (hread : req.keywordsRequest env = .error e) : serve env req = onAbort e := by
  have hdec : decodeKeywords env (some (.root req)) = .error e := by rw [decodeKeywords_eq]; exact hread
  rw [serve_setKeywords hop]
  unfold setKeywords
  rw [hdec]
  rfl

/-! ## Replies -/

/-- The reply reports success. -/
def IsSuccess (reply : AxiomNode) : Prop := reply.namedText STATUS_NODE_NAME = some SUCCESS_STATUS

instance (reply : AxiomNode) : Decidable (IsSuccess reply) := inferInstanceAs (Decidable (_ = _))

theorem isSuccess_success (result : Option AxiomNode) : IsSuccess (buildSuccessResponse result) := rfl

theorem not_isSuccess_error (type message : String) : ¬IsSuccess (buildErrorResponse type message) := by
  intro h
  have hs : SUCCESS_STATUS = ERROR_STATUS := (Option.some.inj h).symm
  exact absurd hs (by decide)

/-- The reply to a request without commands. -/
def IsRejection (reply : AxiomNode) : Prop :=
  reply = internalError ∨ ∃ message, reply = buildErrorResponse BAD_REQUEST message

theorem IsRejection.not_isSuccess {reply : AxiomNode} (h : IsRejection reply) : ¬IsSuccess reply := by
  rcases h with rfl | ⟨message, rfl⟩
  · exact not_isSuccess_error _ _
  · exact not_isSuccess_error _ _

/-- A `setKeywords` request is well formed, or it is rejected, if there is a reply, without a command. -/
theorem request_cases (env : Env) {req : AxiomNode} (hop : req.IsNamed "setKeywords") :
    (∃ vars, WellFormed env req vars) ∨
    ∃ res, serve env req = .lift res ∧ ∀ reply, res = .ok (some reply) → IsRejection reply := by
  cases hread : req.keywordsRequest env with
  | error e =>
    refine Or.inr ?_
    rw [serve_aborted hop hread]
    cases e with
    | nullNode fn => exact ⟨.error (.nullNode fn), rfl, nofun⟩
    | exception what =>
      refine ⟨.ok (some internalError), rfl, ?_⟩
      rintro reply ⟨⟩
      exact Or.inl rfl
  | ok vars =>
    by_cases hok : vars.id ≠ "" ∧ vars.keywordsParsed = true
    · exact Or.inl ⟨vars, hop, hread, hok.1, hok.2⟩
    · obtain ⟨message, hserve⟩ := serve_rejected hop hread hok
      refine Or.inr ⟨.ok (some (buildErrorResponse BAD_REQUEST message)), hserve, ?_⟩
      rintro reply ⟨⟩
      exact Or.inr ⟨message, rfl⟩

/-! ## Stages -/

/-- How far a transaction has come; `t` is the time it read, `out` the outcome of its adapter call. -/
inductive Stage where
  | start
  | timed (t : Int)
  | purged (t : Int)
  | found (t : Int)
  | missed (t : Int)
  | called (t : Int) (out : Except String DhsStatus)
  | recorded (t : Int)

namespace Stage

variable (vars : KeywordsRequest) (msg : String)

/-- What the transaction has done. -/
def acts : Stage → List (Act SvcSig)
  | start => []
  | timed t => [⟨.time, t⟩]
  | purged t => [⟨.time, t⟩, ⟨.purgeOldMessages t, ()⟩]
  | found t => [⟨.time, t⟩, ⟨.purgeOldMessages t, ()⟩, ⟨.exists vars.id msg, true⟩]
  | missed t => [⟨.time, t⟩, ⟨.purgeOldMessages t, ()⟩, ⟨.exists vars.id msg, false⟩]
  | called t out => [⟨.time, t⟩, ⟨.purgeOldMessages t, ()⟩, ⟨.exists vars.id msg, false⟩,
      ⟨.setImageKeywords vars.id vars.keywords vars.final, out⟩]
  | recorded t => [⟨.time, t⟩, ⟨.purgeOldMessages t, ()⟩, ⟨.exists vars.id msg, false⟩,
      ⟨.setImageKeywords vars.id vars.keywords vars.final, .ok .S_SUCCESS⟩, ⟨.add vars.id t msg, ()⟩]

/-- What is left of it. -/
def rest : Stage → Svc (Option AxiomNode)
  | start => transaction vars msg
  | timed t => .call (.purgeOldMessages t) fun _ => .call (.exists vars.id msg) (afterCheck vars msg t)
  | purged t => .call (.exists vars.id msg) (afterCheck vars msg t)
  | found t => afterCheck vars msg t true
  | missed t => afterCheck vars msg t false
  | called t out => afterCall vars msg t out
  | recorded _ => .ret (some (buildSuccessResponse none))

variable {vars : KeywordsRequest} {msg : String}

/-- A transaction replies with success when it found a duplicate or recorded its message. -/
theorem rest_success {s : Stage} {reply : AxiomNode} (h : s.rest vars msg = .ret (some reply)) (hok : IsSuccess reply) :
    (∃ t, s = .found t) ∨ ∃ t, s = .recorded t := by
  cases s with
  | found t => exact Or.inl ⟨t, rfl⟩
  | recorded t => exact Or.inr ⟨t, rfl⟩
  | called t out =>
    rcases out with what | (_ | _ | code) <;> cases h <;> exact absurd hok (not_isSuccess_error _ _)
  | _ => cases h

end Stage

/-- **The stages of a transaction.** -/
theorem path_transaction {vars : KeywordsRequest} {msg : String} {tr : List (Act SvcSig)}
    {q : Svc (Option AxiomNode)} :
    Path (transaction vars msg) tr q ↔ ∃ s : Stage, tr = s.acts vars msg ∧ q = s.rest vars msg := by
  constructor
  · intro h
    cases h with
    | nil => exact ⟨.start, rfl, rfl⟩
    | cons t h =>
    cases h with
    | nil => exact ⟨.timed t, rfl, rfl⟩
    | cons _ h =>
    cases h with
    | nil => exact ⟨.purged t, rfl, rfl⟩
    | cons found h =>
    cases found with
    | true =>
      obtain ⟨rfl, rfl⟩ := path_ret.1 h
      exact ⟨.found t, rfl, rfl⟩
    | false =>
    cases h with
    | nil => exact ⟨.missed t, rfl, rfl⟩
    | cons out h =>
    rcases out with what | (_ | _ | code)
    · obtain ⟨rfl, rfl⟩ := path_ret.1 h
      exact ⟨.called t (.error what), rfl, rfl⟩
    · rcases path_call.1 h with ⟨rfl, rfl⟩ | ⟨_, tr', rfl, h₁⟩
      · exact ⟨.called t (.ok .S_SUCCESS), rfl, rfl⟩
      · obtain ⟨rfl, rfl⟩ := path_ret.1 h₁
        exact ⟨.recorded t, rfl, rfl⟩
    · obtain ⟨rfl, rfl⟩ := path_ret.1 h
      exact ⟨.called t (.ok .E_CTL_CMD), rfl, rfl⟩
    · obtain ⟨rfl, rfl⟩ := path_ret.1 h
      exact ⟨.called t (.ok (.other code)), rfl, rfl⟩
  · rintro ⟨s, rfl, rfl⟩
    cases s <;> repeat first | exact Path.nil _ | apply Path.cons

end DhsTranslator
