import DhsTranslator.Service.Serving

/-!
# How `createImage` and `setParameters` end

- `parameters_eq`: the variables of `setParameters` in terms of the children of the request that are named after them;
- `CallsEnd`: the calls for the parameters of an image, one after another up to the first that fails, and the reply;
- `ends_setParameters`, `CreateEnd`, `ends_createImage`: the ends of the two operations.
-/

namespace DhsTranslator

open Conc DhsService

/-! ## The variables of `setParameters` -/

/-- The children with a name, in document order. -/
def AxiomNode.named (n : AxiomNode) (name : String) : List AxiomNode := n.children.filter fun c => c.IsNamed name

/-- The items of an array. -/
def AxiomNode.items (n : AxiomNode) : List AxiomNode := n.named "item"

/-- The lifetimes that the children of that name give. -/
def AxiomNode.lifetimes (n : AxiomNode) : List DhsBdLifetime :=
  (n.named "lifetime").filterMap fun c => translateLifetime c.firstText

/-- The ids that the children of that name give. -/
def AxiomNode.ids (n : AxiomNode) : List ImageId := (n.named "id").filterMap AxiomNode.firstText

/-- **The variables**, from the lifetimes, contributors and ids among the children. -/
theorem parameters_eq (n : AxiomNode) (imageId : Option ImageId) : n.parameters imageId =
    ⟨(n.named "contributors").flatMap contributorsOf, n.lifetimes.getLastD .TRANSIENT, !n.lifetimes.isEmpty,
      imageId.getD (n.ids.getLastD "")⟩ := by
  unfold AxiomNode.parameters AxiomNode.lifetimes AxiomNode.ids AxiomNode.named
  generalize n.children = ns
  induction ns using List.reverseRecOn with
  | nil => cases imageId <;> rfl
  | append_singleton ns c ih =>
    rw [List.foldl_append, List.foldl_cons, List.foldl_nil, ih]
    simp only [List.filter_append, List.filterMap_append, List.flatMap_append]
    unfold Parameters.read
    by_cases h₁ : c.IsNamed "lifetime"
    · have h₂ : ¬c.IsNamed "contributors" := fun h => absurd (h₁.unique h) (by decide)
      have h₃ : ¬c.IsNamed "id" := fun h => absurd (h₁.unique h) (by decide)
      cases ht : translateLifetime c.firstText <;> simp [h₁, h₂, h₃, ht]
    · by_cases h₂ : c.IsNamed "contributors"
      · have h₃ : ¬c.IsNamed "id" := fun h => absurd (h₂.unique h) (by decide)
        simp [h₁, h₂, h₃]
      · by_cases h₃ : c.IsNamed "id"
        · cases imageId with
          | some id => simp [h₁, h₂, h₃]
          | none => cases ht : c.firstText <;> simp [h₁, h₂, h₃, ht]
        · simp [h₁, h₂, h₃]

/-- The calls do not depend on the image they are for. -/
theorem calls_eq (n : AxiomNode) (imageId : Option ImageId) :
    (n.parameters imageId).calls = (n.parameters none).calls := by
  rw [parameters_eq, parameters_eq]
  rfl

/-! ## The ends of the operations -/

/-- The reply to an adapter call that does not succeed. -/
def ParamCall.reply (c : ParamCall) : Except String DhsStatus → AxiomNode
  | .ok _ => c.failed
  | .error _ => internalError

/-- The calls for an image, all successful or up to the first that is not, with the reply; `ok` is the reply of
success. -/
inductive CallsEnd (id : ImageId) (cs : List ParamCall) (ok : AxiomNode) : List (Act SvcSig) → AxiomNode → Prop
  | done : CallsEnd id cs ok (succeeded id cs) ok
  | failed (done : List ParamCall) (c : ParamCall) (rest : List ParamCall) (out : Except String DhsStatus)
      (calls : cs = done ++ c :: rest) (hout : out ≠ .ok .S_SUCCESS) :
      CallsEnd id cs ok (succeeded id done ++ [c.act id out]) (c.reply out)

/-- The actions are among the calls. -/
theorem CallsEnd.mem {id : ImageId} {cs : List ParamCall} {ok reply : AxiomNode} {tr : List (Act SvcSig)}
    (h : CallsEnd id cs ok tr reply) {a : Act SvcSig} (ha : a ∈ tr) :
    ∃ c ∈ cs, ∃ out : Except String DhsStatus, a = c.act id out := by
  cases h with
  | done =>
    obtain ⟨c, hc, rfl⟩ := List.mem_map.1 ha
    exact ⟨c, hc, _, rfl⟩
  | failed done c rest out hcs hout =>
    subst hcs
    rcases List.mem_append.1 ha with ha | ha
    · obtain ⟨d, hd, rfl⟩ := List.mem_map.1 ha
      exact ⟨d, List.mem_append_left _ hd, _, rfl⟩
    · exact ⟨c, by simp, out, List.mem_singleton.1 ha⟩

/-- What the result of the calls becomes under the `catch` of the entry point. -/
theorem callsEnd_of_ends {id : ImageId} {cs : List ParamCall} (ok : AxiomNode) {tr : List (Act SvcSig)}
    {res : Except Abort (Option AxiomNode)} (h : Ends (runCalls id cs) tr res) :
    (res = .ok none ∧ CallsEnd id cs ok tr ok) ∨
    (∃ reply, res = .ok (some reply) ∧ CallsEnd id cs ok tr reply) ∨
    ∃ what, res = .error (.exception what) ∧ CallsEnd id cs ok tr internalError := by
  rcases ends_runCalls h with ⟨rfl, rfl⟩ | ⟨done, c, rest, out, hcs, rfl, hout, rfl⟩
  · exact Or.inl ⟨rfl, .done⟩
  · have hend : CallsEnd id cs ok (succeeded id done ++ [c.act id out]) (c.reply out) :=
      .failed done c rest out hcs hout
    cases out with
    | ok status => exact Or.inr (Or.inl ⟨c.failed, rfl, hend⟩)
    | error what => exact Or.inr (Or.inr ⟨what, rfl, hend⟩)

section Parameters

variable {f : Option AxiomNode → Svc AxiomNode} {ok : AxiomNode} (hsome : ∀ errors, f (some errors) = .ret errors)
  (hnone : f none = .ret ok)

include hsome hnone

/-- What the calls leave is passed to `f`; an exception is not. -/
theorem ends_calls_then {id : ImageId} {cs : List ParamCall} {tr : List (Act SvcSig)} {res : Except Abort AxiomNode}
    (h : Ends (runCalls id cs >>= f) tr res) :
    (∃ reply, res = .ok reply ∧ CallsEnd id cs ok tr reply) ∨
    ∃ what, res = .error (.exception what) ∧ CallsEnd id cs ok tr internalError := by
  rcases ends_bind.1 h with ⟨o, tr₁, tr₂, rfl, h₁, h₂⟩ | ⟨e, rfl, h₁⟩
  · rcases callsEnd_of_ends ok h₁ with ⟨ho, hend⟩ | ⟨reply, ho, hend⟩ | ⟨what, ho, _⟩
    · cases ho
      rw [hnone] at h₂
      obtain ⟨rfl, rfl⟩ := ends_ret.1 h₂
      exact Or.inl ⟨ok, rfl, by simpa using hend⟩
    · cases ho
      rw [hsome] at h₂
      obtain ⟨rfl, rfl⟩ := ends_ret.1 h₂
      exact Or.inl ⟨reply, rfl, by simpa using hend⟩
    · cases ho
  · rcases callsEnd_of_ends ok h₁ with ⟨ho, _⟩ | ⟨reply, ho, _⟩ | ⟨what, ho, hend⟩
    · cases ho
    · cases ho
    · cases ho
      exact Or.inr ⟨what, rfl, hend⟩

/-- And answered by the `catch` of the entry point. -/
theorem ends_calls_caught {id : ImageId} {cs : List ParamCall} {tr : List (Act SvcSig)}
    {res : Except Abort (Option AxiomNode)} (h : Ends (caught (runCalls id cs >>= f)) tr res) :
    ∃ reply, res = .ok (some reply) ∧ CallsEnd id cs ok tr reply := by
  rcases ends_caught.1 h with ⟨r, rfl, hr⟩ | ⟨what, rfl, hr⟩ | ⟨fn, rfl, hr⟩
  · rcases ends_calls_then hsome hnone hr with ⟨reply, hreply, hend⟩ | ⟨what, hreply, _⟩
    · cases hreply
      exact ⟨r, rfl, hend⟩
    · cases hreply
  · rcases ends_calls_then hsome hnone hr with ⟨reply, hreply, _⟩ | ⟨what', _, hend⟩
    · cases hreply
    · exact ⟨internalError, rfl, hend⟩
  · rcases ends_calls_then hsome hnone hr with ⟨reply, hreply, _⟩ | ⟨what, hreply, _⟩ <;> cases hreply

/-- How the body of `setParameters` and a reply of success after it end. -/
theorem ends_parameters {imageId : Option ImageId} {env : Env} {req : AxiomNode} {tr : List (Act SvcSig)}
    {res : Except Abort (Option AxiomNode)}
    (h : Ends (caught (setParametersOf imageId env (some (.root req)) >>= f)) tr res) :
    ((req.parameters imageId).id = "" ∧ tr = [] ∧ res = .ok (some noImageId)) ∨
    ((req.parameters imageId).id ≠ "" ∧ ∃ reply, res = .ok (some reply) ∧
      CallsEnd (req.parameters imageId).id (req.parameters imageId).calls ok tr reply) := by
  have hbody := setParametersOf_eq imageId env (.root req)
  rw [show (NodePtr.root req).node = req from rfl] at hbody
  by_cases hid : (req.parameters imageId).id = ""
  · rw [if_neg (not_not.2 hid)] at hbody
    rw [hbody, Prog.ret_bind, hsome] at h
    rcases ends_caught.1 h with ⟨r, rfl, hr⟩ | ⟨what, _, hr⟩ | ⟨fn, _, hr⟩
    · obtain ⟨rfl, hr⟩ := ends_ret.1 hr
      cases hr
      exact Or.inl ⟨hid, rfl, rfl⟩
    · cases (ends_ret.1 hr).2
    · cases (ends_ret.1 hr).2
  · rw [if_pos hid] at hbody
    rw [hbody] at h
    exact Or.inr ⟨hid, ends_calls_caught hsome hnone h⟩

end Parameters

/-- **`setParameters`.** -/
theorem ends_setParameters {env : Env} {req : AxiomNode} (hop : req.IsNamed "setParameters") {tr : List (Act SvcSig)}
    {res : Except Abort (Option AxiomNode)} (h : Ends (serve env req) tr res) :
    ((req.parameters none).id = "" ∧ tr = [] ∧ res = .ok (some noImageId)) ∨
    ((req.parameters none).id ≠ "" ∧ ∃ reply, res = .ok (some reply) ∧
      CallsEnd (req.parameters none).id (req.parameters none).calls (buildSuccessResponse none) tr reply) := by
  rw [serve_setParameters hop] at h
  exact ends_parameters (fun _ => rfl) rfl h

/-- The reply when the creation of an image fails. -/
def createFailed : Except String (DhsStatus × ImageId) → AxiomNode
  | .ok _ => buildErrorResponse DHS_ERROR "DHS error while trying to create new data set."
  | .error _ => internalError

/-- What follows the creation of the image `id`, if the request has children. -/
def createdImage (env : Env) (req : AxiomNode) (id : ImageId) : Svc AxiomNode :=
  setParametersOf (some id) env (some (.root req)) >>= fun
    | some errors => .ret errors
    | none => .ret (buildSuccessResponse (some (.text id)))

/-- `createImage` after its adapter call. -/
def afterCreate (env : Env) (req : AxiomNode) : Except String (DhsStatus × ImageId) → Svc (Option AxiomNode)
  | .ok (.S_SUCCESS, id) =>
    if req.children = [] then .ret (some (buildSuccessResponse (some (.text id)))) else caught (createdImage env req id)
  | out => .ret (some (createFailed out))

theorem serve_createImage_call {env : Env} {req : AxiomNode} (hop : req.IsNamed "createImage") :
    serve env req = .call .createImage (afterCreate env req) := by
  rw [serve_createImage hop]
  unfold caught createImage
  show Prog.call _ _ = Prog.call _ _
  congr 1; funext out
  rcases out with what | ⟨_ | _ | code, id⟩
  · rfl
  · have hfirst : axiomNodeGetFirstChild (some (.root req)) = .ok (NodePtr.root req).firstChild := rfl
    unfold afterCreate
    simp only [answer_ok, Prog.ret_bind, hfirst, Prog.lift_ok]
    by_cases hc : req.children = []
    · have hnone : (NodePtr.root req).firstChild = none := firstChild_eq_none.2 hc
      rw [if_pos hc, hnone]
      rfl
    · rw [if_neg hc]
      cases hf : (NodePtr.root req).firstChild with
      | none => exact absurd (firstChild_eq_none.1 hf) hc
      | some c => rfl
  · rfl
  · rfl

/-- How `createImage` ends after its adapter call. -/
inductive CreateEnd (req : AxiomNode) : List (Act SvcSig) → AxiomNode → Prop
  | failed (out : Except String (DhsStatus × ImageId)) (hout : out.map Prod.fst ≠ .ok .S_SUCCESS) :
      CreateEnd req [⟨.createImage, out⟩] (createFailed out)
  | bare (id : ImageId) (hc : req.children = []) :
      CreateEnd req [⟨.createImage, .ok (.S_SUCCESS, id)⟩] (buildSuccessResponse (some (.text id)))
  | noId (hc : req.children ≠ []) : CreateEnd req [⟨.createImage, .ok (.S_SUCCESS, "")⟩] noImageId
  | calls (id : ImageId) (hc : req.children ≠ []) (hid : id ≠ "") {tr : List (Act SvcSig)} {reply : AxiomNode}
      (hend : CallsEnd id (req.parameters (some id)).calls (buildSuccessResponse (some (.text id))) tr reply) :
      CreateEnd req (⟨.createImage, .ok (.S_SUCCESS, id)⟩ :: tr) reply

/-- The id of a new image stays the one the adapter gave, whatever the request contains. -/
theorem parameters_id_given (req : AxiomNode) (id : ImageId) : (req.parameters (some id)).id = id := by
  rw [parameters_eq]
  rfl

theorem afterCreate_success (env : Env) (req : AxiomNode) (id : ImageId) :
    afterCreate env req (.ok (.S_SUCCESS, id)) =
      if req.children = [] then .ret (some (buildSuccessResponse (some (.text id))))
      else caught (createdImage env req id) := rfl

theorem afterCreate_failed {env : Env} {req : AxiomNode} {out : Except String (DhsStatus × ImageId)}
    (hout : out.map Prod.fst ≠ .ok .S_SUCCESS) : afterCreate env req out = .ret (some (createFailed out)) := by
  rcases out with what | ⟨_ | _ | code, id⟩
  · rfl
  · exact absurd rfl hout
  · rfl
  · rfl

theorem eq_created {out : Except String (DhsStatus × ImageId)} (hout : out.map Prod.fst = .ok .S_SUCCESS) :
    ∃ id, out = .ok (.S_SUCCESS, id) := by
  rcases out with what | ⟨status, id⟩
  · cases hout
  · obtain rfl : status = .S_SUCCESS := Except.ok.inj hout
    exact ⟨id, rfl⟩

/-- **`createImage`.** -/
theorem ends_createImage {env : Env} {req : AxiomNode} (hop : req.IsNamed "createImage") {tr : List (Act SvcSig)}
    {res : Except Abort (Option AxiomNode)} (h : Ends (serve env req) tr res) :
    ∃ reply, res = .ok (some reply) ∧ CreateEnd req tr reply := by
  rw [serve_createImage_call hop] at h
  obtain ⟨out, tr', rfl, h'⟩ := ends_call.1 h
  by_cases hout : out.map Prod.fst = .ok .S_SUCCESS
  · obtain ⟨id, rfl⟩ := eq_created hout
    rw [afterCreate_success] at h'
    by_cases hc : req.children = []
    · rw [if_pos hc] at h'
      obtain ⟨rfl, rfl⟩ := ends_ret.1 h'
      exact ⟨_, rfl, .bare id hc⟩
    · rw [if_neg hc] at h'
      have hid := parameters_id_given req id
      rcases ends_parameters (fun _ => rfl) rfl h' with ⟨hempty, rfl, rfl⟩ | ⟨hne, reply, rfl, hend⟩
      · rw [hid] at hempty
        subst hempty
        exact ⟨_, rfl, .noId hc⟩
      · rw [hid] at hne hend
        exact ⟨reply, rfl, .calls id hc hne hend⟩
  · rw [afterCreate_failed hout] at h'
    obtain ⟨rfl, rfl⟩ := ends_ret.1 h'
    exact ⟨_, rfl, .failed out hout⟩

end DhsTranslator
