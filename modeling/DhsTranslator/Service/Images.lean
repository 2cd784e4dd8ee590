import DhsTranslator.Service.Created
import DhsTranslator.Service.Locks
import Mathlib.Data.List.Pairwise

/-!
# Images of the library

What a reply of success to `createImage` and `setParameters` says of the library, when the whole translator serves them.

- `created_named`, `lifeTime_set`, `contrib_set`: the library call behind an operation of the adapter that succeeds;
- `created_in_library`, `parameters_in_library`: the image has the id that the library gave, and what was read of its
  parameters was set;
- `images_apart`: two requests do not get the same image, if the library does not give an id twice;
- `path_image_created`, `path_parameters_set`: how a request is served when every call succeeds.
-/

namespace DhsTranslator

open Conc DhsAdapter DhsService

/-! ## Operations that succeed -/

section Operations

variable {α : Type} {cfg : AdapterConfig} {acts : List (Act AdapterSig)}

/-- An operation that does not return what it returns without a connection has one. -/
theorem ends_connected {a x : α} {p : Adapter α} (hx : x ≠ a)
    (h : Ends (do if !(← checkConnection cfg) then return a else p) acts (.ok x)) :
    ∃ check rest, acts = check ++ rest ∧ Ends p rest (.ok x) := by
  rcases ends_bind.1 h with ⟨connected, check, rest, rfl, _, hrest⟩ | ⟨e, he, _⟩
  · cases connected with
    | false => exact absurd (Except.ok.inj (ends_ret.1 hrest).2) hx
    | true => exact ⟨check, rest, rfl, hrest⟩
  · cases he

/-- And one that does not return what it returns without the lock has made its library call. -/
theorem ends_section {a x : α} {f : DhsConnect → LibCall} {status : DhsStatus}
    {k : (c : DhsConnect) → (f c).Answer → Adapter α} (hx : x ≠ a)
    (h : Ends (do
      if !(← timedLock) then return a
      else
        let connection ← getConnection
        let answer ← lib (f connection) status
        unlock
        k connection answer) acts (.ok x)) :
    ∃ c r rest, ⟨.leave (f c), r⟩ ∈ acts ∧ Ends (k c r) rest (.ok x) := by
  obtain ⟨locked, tr₁, rfl, h₁⟩ := ends_call.1 h
  cases locked with
  | false => exact absurd (Except.ok.inj (ends_ret.1 h₁).2) hx
  | true =>
    obtain ⟨c, tr₂, rfl, h₂⟩ := ends_call.1 h₁
    obtain ⟨r, tr₃, rfl, h₃⟩ := ends_lib_bind h₂
    obtain ⟨⟨⟩, tr₄, rfl, h₄⟩ := ends_call.1 h₃
    exact ⟨c, r, tr₄, by simp [libActs], h₄⟩

/-- **The id of a new image** is the one that the library gave. -/
theorem created_named {id id' : ImageId} (h : Ends (createImage cfg id) acts (.ok (.S_SUCCESS, id'))) :
    ∃ c, ⟨.leave (.dhsBdName c), ⟨some id', .S_SUCCESS⟩⟩ ∈ acts := by
  obtain ⟨check, rest, rfl, h₁⟩ := ends_connected (by simp) h
  obtain ⟨c, ⟨newId, status⟩, rest', hmem, h₂⟩ := ends_section (by simp) h₁
  refine ⟨c, List.mem_append_right _ ?_⟩
  by_cases hs : status = .S_SUCCESS
  · subst hs
    cases newId with
    | none => cases (ends_raise.1 h₂).2
    | some newId =>
      cases (ends_ret.1 h₂).2
      exact hmem
  · rw [if_neg hs] at h₂
    cases (ends_ret.1 h₂).2
    exact absurd rfl hs

theorem lifeTime_set {id : ImageId} {lifeTime : DhsBdLifetime}
    (h : Ends (setImageLifeTime cfg id lifeTime) acts (.ok .S_SUCCESS)) :
    ∃ c, ⟨.leave (.dhsBdCtlLifetime c id lifeTime), ⟨(), .S_SUCCESS⟩⟩ ∈ acts := by
  obtain ⟨check, rest, rfl, h₁⟩ := ends_connected (by simp) h
  obtain ⟨c, ⟨⟨⟩, status⟩, rest', hmem, h₂⟩ := ends_section (by simp) h₁
  cases (ends_ret.1 h₂).2
  exact ⟨c, List.mem_append_right _ hmem⟩

theorem contrib_set {id : ImageId} {contribs : List String} (hne : contribs ≠ [])
    (h : Ends (setImageContrib cfg id contribs) acts (.ok .S_SUCCESS)) :
    ∃ c, ⟨.leave (.dhsBdCtlContrib c id (Int32.ofNat contribs.length) contribs), ⟨(), .S_SUCCESS⟩⟩ ∈ acts := by
  obtain ⟨check, rest, rfl, h₁⟩ := ends_connected (by simp) h
  rw [if_neg (by simpa using hne)] at h₁
  obtain ⟨c, ⟨⟨⟩, status⟩, rest', hmem, h₂⟩ := ends_section (by simp) h₁
  cases (ends_ret.1 h₂).2
  exact ⟨c, List.mem_append_right _ hmem⟩

end Operations

/-! ## Replies of success -/

section Replies

variable {ι : Type} [DecidableEq ι] {env : Env} {hasher : String → UInt32} {age : Int} {rounds : Nat}
  {cfg : AdapterConfig} {req : ι → AxiomNode} {past : List (Event ι AdapterSig)} {s : AdapterState ι}
  {tr : List (Event ι SystemSig)} {b : Config ι (SystemState ι) SystemSig Abort (Option AxiomNode)} {i j : ι}

/-- The library has given a thread the id of a new image. -/
def NamedFor (past T : List (Event ι AdapterSig)) (i : ι) (id : ImageId) : Prop :=
  ∃ c ∈ connects (past ++ T), ⟨i, ⟨.leave (.dhsBdName c), ⟨some id, .S_SUCCESS⟩⟩⟩ ∈ T

/-- The library has set a parameter of an image for a thread. -/
def ParamCall.SetFor (past T : List (Event ι AdapterSig)) (i : ι) (id : ImageId) : ParamCall → Prop
  | .lifeTime lt => ∃ c ∈ connects (past ++ T), ⟨i, ⟨.leave (.dhsBdCtlLifetime c id lt), ⟨(), .S_SUCCESS⟩⟩⟩ ∈ T
  | .contrib contribs => ∃ c ∈ connects (past ++ T),
      ⟨i, ⟨.leave (.dhsBdCtlContrib c id (Int32.ofNat contribs.length) contribs), ⟨(), .S_SUCCESS⟩⟩⟩ ∈ T

/-- The connection of an answer was made before. -/
theorem connection_made (hnew : Constructed cfg past s)
    (h : Run systemSem (systemStart env hasher age rounds cfg s req) tr b) {f : LibCall} {r : f.Answer} {c : DhsConnect}
    (hmem : ⟨i, ⟨.leave f, r⟩⟩ ∈ adapterEvents tr) (hc : f.connection? = some c) :
    c ∈ connects (past ++ adapterEvents tr) := by
  obtain ⟨pre, post, htr⟩ := List.append_of_mem hmem
  have hpre := system_connection hnew h htr rfl hc
  rw [htr]
  unfold connects at hpre ⊢
  rw [← List.append_assoc, List.filterMap_append]
  exact List.mem_append_left _ hpre

section Revealed

variable {J : History ι (CacheCallSig.sum OutSig) SystemSig}
  {m : Config ι (MessageCache × Unit) (CacheCallSig.sum OutSig) Abort (Option AxiomNode)}
  {K : History ι SvcSig (CacheCallSig.sum OutSig)} {b' : ServiceState ι}

/-- What a call of the adapter did is among the events. -/
theorem Reveals.events (h : Reveals env hasher age rounds cfg req tr b J m K b') {a : Act SvcSig}
    (ha : a ∈ actsOf i (highs K)) (hout : adapterOutcome a ≠ none) :
    ∃ acts, Performs cfg a acts ∧ ∀ e ∈ acts, ⟨i, e⟩ ∈ adapterEvents tr := by
  obtain ⟨acts, hperforms, hinfix⟩ := h.performed (mem_actsOf.1 ha) hout
  exact ⟨acts, hperforms, fun e he => mem_actsOf.1 ((infix_adapter hinfix).subset he)⟩

/-- What a request that is done has done. -/
theorem Reveals.ends (h : Reveals env hasher age rounds cfg req tr b J m K b') {res : Option AxiomNode}
    (hdone : b.prog i = .ret res) : Ends (serve env (req i)) (actsOf i (highs K)) (.ok res) := by
  have hsame : b.prog i = .lift (.ok res) ↔ b'.prog i = .lift (.ok res) := h.done
  have hpath := h.run.path i
  rwa [hsame.1 hdone] at hpath

/-- **An image that was created** has the id that the library gave. -/
theorem Reveals.named (h : Reveals env hasher age rounds cfg req tr b J m K b')
    (hmade : ∀ {f : LibCall} {r : f.Answer} {c}, ⟨i, ⟨.leave f, r⟩⟩ ∈ adapterEvents tr → f.connection? = some c →
      c ∈ connects (past ++ adapterEvents tr)) {id : ImageId}
    (ha : ⟨.createImage, .ok (.S_SUCCESS, id)⟩ ∈ actsOf i (highs K)) : NamedFor past (adapterEvents tr) i id := by
  obtain ⟨acts, hperforms, hevents⟩ := h.events ha (by simp [adapterOutcome])
  cases hperforms with
  | createImage hend =>
    obtain ⟨c, hmem⟩ := created_named hend
    exact ⟨c, hmade (hevents _ hmem) rfl, hevents _ hmem⟩

/-- **A parameter that was set** was set by the library. -/
theorem Reveals.set (h : Reveals env hasher age rounds cfg req tr b J m K b')
    (hmade : ∀ {f : LibCall} {r : f.Answer} {c}, ⟨i, ⟨.leave f, r⟩⟩ ∈ adapterEvents tr → f.connection? = some c →
      c ∈ connects (past ++ adapterEvents tr)) {id : ImageId} {c : ParamCall} (hc : c ≠ .contrib [])
    (ha : c.act id (.ok .S_SUCCESS) ∈ actsOf i (highs K)) : c.SetFor past (adapterEvents tr) i id := by
  cases c with
  | lifeTime lt =>
    obtain ⟨acts, hperforms, hevents⟩ := h.events ha (by simp [adapterOutcome, ParamCall.act])
    cases hperforms with
    | setImageLifeTime hend =>
      obtain ⟨c, hmem⟩ := lifeTime_set hend
      exact ⟨c, hmade (hevents _ hmem) rfl, hevents _ hmem⟩
  | contrib contribs =>
    obtain ⟨acts, hperforms, hevents⟩ := h.events ha (by simp [adapterOutcome, ParamCall.act])
    cases hperforms with
    | setImageContrib hend =>
      obtain ⟨c, hmem⟩ := contrib_set (fun hnil => hc (congrArg _ hnil)) hend
      exact ⟨c, hmade (hevents _ hmem) rfl, hevents _ hmem⟩

end Revealed

omit [DecidableEq ι] in
theorem calls_nonempty {vars : Parameters} {c : ParamCall} (hc : c ∈ vars.calls) : c ≠ .contrib [] := by
  rintro rfl
  unfold Parameters.calls at hc
  rcases List.mem_append.1 hc with hc | hc
  · split at hc <;> simp at hc
  · split at hc
    · rename_i hne
      simp at hc
      exact hne hc
    · simp at hc

/-- Behind a reply of success all calls succeeded. -/
theorem CallsEnd.all_set {id : ImageId} {cs : List ParamCall} {ok reply : AxiomNode} {tr : List (Act SvcSig)}
    (h : CallsEnd id cs ok tr reply) (hok : IsSuccess reply) : reply = ok ∧ ∀ c ∈ cs, c.act id (.ok .S_SUCCESS) ∈ tr := by
  cases h with
  | done => exact ⟨rfl, fun c hc => List.mem_map_of_mem hc⟩
  | failed done c rest out hcs hout => exact absurd hok (isFailureReply_param c out).not_isSuccess

/-- Behind a reply of success the image was created, and all calls for it succeeded. -/
theorem CreateEnd.all_set {req reply : AxiomNode} {tr : List (Act SvcSig)} (h : CreateEnd req tr reply)
    (hok : IsSuccess reply) : ∃ id, reply = buildSuccessResponse (some (.text id)) ∧
      ⟨.createImage, .ok (.S_SUCCESS, id)⟩ ∈ tr ∧ ∀ c ∈ (req.parameters none).calls, c.act id (.ok .S_SUCCESS) ∈ tr := by
  cases h with
  | failed out hout => cases out <;> exact absurd hok (not_isSuccess_error _ _)
  | bare id hc =>
    refine ⟨id, rfl, List.mem_cons_self, fun c hmem => ?_⟩
    have hnone : (req.parameters none).calls = [] := by
      unfold AxiomNode.parameters
      rw [hc]
      rfl
    rw [hnone] at hmem
    exact absurd hmem List.not_mem_nil
  | noId hc => exact absurd hok (not_isSuccess_error _ _)
  | calls id hc hid hcalls =>
    rw [calls_eq] at hcalls
    obtain ⟨hreply, hall⟩ := hcalls.all_set hok
    exact ⟨id, hreply, List.mem_cons_self, fun c hmem => List.mem_cons_of_mem _ (hall c hmem)⟩

/-- **An image that is acknowledged** was created by the library, and the parameters that were read were set. -/
theorem created_in_library (hnew : Constructed cfg past s)
    (h : Run systemSem (systemStart env hasher age rounds cfg s req) tr b) {reply : AxiomNode}
    (hop : (req i).IsNamed "createImage") (hdone : b.prog i = .ret (some reply)) (hok : IsSuccess reply) :
    ∃ id, reply = buildSuccessResponse (some (.text id)) ∧ NamedFor past (adapterEvents tr) i id ∧
      ∀ c ∈ ((req i).parameters none).calls, c.SetFor past (adapterEvents tr) i id := by
  obtain ⟨J, m, K, b', hreveals⟩ := system_reveals h
  obtain ⟨_, ⟨⟩, hcreate⟩ := ends_createImage hop (hreveals.ends hdone)
  obtain ⟨id, hreply, hcreated, hall⟩ := hcreate.all_set hok
  exact ⟨id, hreply, hreveals.named (connection_made hnew h) hcreated,
    fun c hmem => hreveals.set (connection_made hnew h) (calls_nonempty hmem) (hall c hmem)⟩

/-- **Parameters that are acknowledged** were set by the library as they were read, on the image that the request
names. -/
theorem parameters_in_library (hnew : Constructed cfg past s)
    (h : Run systemSem (systemStart env hasher age rounds cfg s req) tr b) {reply : AxiomNode}
    (hop : (req i).IsNamed "setParameters") (hdone : b.prog i = .ret (some reply)) (hok : IsSuccess reply) :
    (req i).ids.getLastD "" ≠ "" ∧ ∀ c ∈ ((req i).parameters none).calls,
      c.SetFor past (adapterEvents tr) i ((req i).ids.getLastD "") := by
  obtain ⟨J, m, K, b', hreveals⟩ := system_reveals h
  have hid : ((req i).parameters none).id = (req i).ids.getLastD "" := by
    rw [parameters_eq]
    rfl
  rw [← hid]
  rcases ends_setParameters hop (hreveals.ends hdone) with ⟨_, _, hreply⟩ | ⟨hne, reply', hreply, hcalls⟩
  · obtain rfl : reply = noImageId := Option.some.inj (Except.ok.inj hreply)
    exact absurd hok (not_isSuccess_error _ _)
  · obtain rfl : reply = reply' := Option.some.inj (Except.ok.inj hreply)
    obtain ⟨_, hall⟩ := hcalls.all_set hok
    exact ⟨hne, fun c hmem => hreveals.set (connection_made hnew h) (calls_nonempty hmem) (hall c hmem)⟩

/-- The id that the library gives. -/
def named? : Act AdapterSig → Option ImageId
  | ⟨.leave (.dhsBdName _), ⟨some id, .S_SUCCESS⟩⟩ => some id
  | _ => none

/-- **No two requests get the same image**, if the library does not give an id twice. -/
theorem images_apart (hnew : Constructed cfg past s)
    (h : Run systemSem (systemStart env hasher age rounds cfg s req) tr b)
    (hunique : ((adapterEvents tr).filterMap fun e => named? e.act).Nodup) {id : ImageId} (hij : i ≠ j)
    (hi : (req i).IsNamed "createImage") (hj : (req j).IsNamed "createImage")
    (hdone : b.prog i = .ret (some (buildSuccessResponse (some (.text id))))) :
    b.prog j ≠ .ret (some (buildSuccessResponse (some (.text id)))) := by
  intro hdone'
  have hnamed : ∀ {k}, (req k).IsNamed "createImage" →
      b.prog k = .ret (some (buildSuccessResponse (some (.text id)))) →
      ∃ e ∈ adapterEvents tr, e.tid = k ∧ named? e.act = some id := by
    intro k hk hprog
    obtain ⟨J, m, K, b', hreveals⟩ := system_reveals h
    obtain ⟨_, ⟨⟩, hcreate⟩ := ends_createImage hk (hreveals.ends hprog)
    obtain ⟨id', hreply, hcreated, _⟩ := hcreate.all_set (isSuccess_text id)
    obtain ⟨c, _, hmem⟩ := hreveals.named (connection_made hnew h) hcreated
    obtain rfl : id = id' := by cases hreply; rfl
    exact ⟨_, hmem, rfl, rfl⟩
  obtain ⟨e, he, rfl, hid⟩ := hnamed hi hdone
  obtain ⟨e', he', rfl, hid'⟩ := hnamed hj hdone'
  have hne : e ≠ e' := fun heq => hij (congrArg Event.tid heq)
  -- of two events that give an id the ids differ
  let Differ (e e' : Event ι AdapterSig) : Prop := ∀ id, named? e.act = some id → ∀ id', named? e'.act = some id' → id ≠ id'
  have hsymm : Std.Symm Differ := ⟨fun _ _ hdiffer id hid id' hid' heq => hdiffer id' hid' id hid heq.symm⟩
  have hpairs : (adapterEvents tr).Pairwise Differ := List.pairwise_filterMap.1 hunique
  exact hpairs.forall he he' hne id hid id hid' rfl

end Replies

/-! ## Requests that succeed -/

section Successes

variable {env : Env} {req : AxiomNode} {id : ImageId}

/-- All calls may succeed. -/
theorem ends_succeeded (id : ImageId) (cs : List ParamCall) : Ends (runCalls id cs) (succeeded id cs) (.ok none) := by
  induction cs with
  | nil => exact ends_ret.2 ⟨rfl, rfl⟩
  | cons c cs ih =>
    exact ends_bind.2 (Or.inl ⟨.S_SUCCESS, [c.act id (.ok .S_SUCCESS)], succeeded id cs, rfl,
      ends_perform.2 ⟨_, rfl, rfl⟩, by simpa using ih⟩)

theorem ends_parameters_set (hop : req.IsNamed "setParameters") (hid : (req.parameters none).id ≠ "") :
    Ends (serve env req) (succeeded (req.parameters none).id (req.parameters none).calls)
      (.ok (some (buildSuccessResponse none))) := by
  rw [serve_setParameters hop]
  refine ends_caught.2 (Or.inl ⟨_, rfl, ?_⟩)
  unfold setParameters
  rw [setParametersOf_eq]
  have hcalls : (NodePtr.root req).node.parameters none = req.parameters none := rfl
  rw [hcalls, if_pos hid]
  exact ends_bind.2 (Or.inl ⟨none, _, [], by simp, ends_succeeded _ _, ends_ret.2 ⟨rfl, rfl⟩⟩)

theorem ends_image_created (hop : req.IsNamed "createImage") (hc : req.children ≠ []) (hid : id ≠ "") :
    Ends (serve env req) (⟨.createImage, .ok (.S_SUCCESS, id)⟩ :: succeeded id (req.parameters none).calls)
      (.ok (some (buildSuccessResponse (some (.text id))))) := by
  rw [serve_createImage_call hop]
  refine ends_call.2 ⟨_, _, rfl, ?_⟩
  rw [afterCreate_success, if_neg hc]
  refine ends_caught.2 (Or.inl ⟨_, rfl, ?_⟩)
  unfold createdImage
  rw [setParametersOf_eq]
  have hcalls : (NodePtr.root req).node.parameters (some id) = req.parameters (some id) := rfl
  rw [hcalls, calls_eq, parameters_id_given, if_pos hid]
  exact ends_bind.2 (Or.inl ⟨none, _, [], by simp, ends_succeeded _ _, ends_ret.2 ⟨rfl, rfl⟩⟩)

variable {hasher : String → UInt32} {age : Int} {rounds : Nat} {cfg : AdapterConfig} {c : DhsConnect}

/-- A library call in a critical section, over a connection that is there. -/
def sectionTrace (c : DhsConnect) (f : LibCall) (r : f.Answer) : List (Act AdapterSig) :=
  connectedTrace ++ ([⟨.timedLock, true⟩, ⟨.getConnection, c⟩] ++ libActs f .S_SUCCESS r ++ [⟨.unlock, ()⟩])

/-- The image is named. -/
def nameTrace (c : DhsConnect) (id : ImageId) : List (Act AdapterSig) :=
  sectionTrace c (.dhsBdName c) ⟨some id, .S_SUCCESS⟩

/-- A parameter is set. -/
def ParamCall.trace (c : DhsConnect) (id : ImageId) : ParamCall → List (Act AdapterSig)
  | .lifeTime lt => sectionTrace c (.dhsBdCtlLifetime c id lt) ⟨(), .S_SUCCESS⟩
  | .contrib contribs => sectionTrace c (.dhsBdCtlContrib c id (Int32.ofNat contribs.length) contribs) ⟨(), .S_SUCCESS⟩

/-- The parameters are set. -/
def paramTrace (c : DhsConnect) (id : ImageId) (calls : List ParamCall) : List (Act AdapterSig) :=
  calls.flatMap (ParamCall.trace c id)

theorem ends_named (c : DhsConnect) (id id' : ImageId) :
    Ends (createImage cfg id') (nameTrace c id) (.ok (.S_SUCCESS, id)) := by
  repeat first | exact Path.nil _ | apply Path.cons

theorem takes_param {call : ParamCall} (hcall : call ≠ .contrib []) :
    Takes hasher age rounds cfg (call.act id (.ok .S_SUCCESS)) ((call.trace c id).map adapterStep) := by
  cases call with
  | lifeTime lt =>
    have hend : Ends (setImageLifeTime cfg id lt) ((ParamCall.lifeTime lt).trace c id) (.ok .S_SUCCESS) := by
      repeat first | exact Path.nil _ | apply Path.cons
    exact ⟨.ok .S_SUCCESS, rfl, called_ends hend⟩
  | contrib contribs =>
    cases contribs with
    | nil => exact absurd rfl hcall
    | cons contrib contribs =>
      have hend : Ends (setImageContrib cfg id (contrib :: contribs))
          ((ParamCall.contrib (contrib :: contribs)).trace c id) (.ok .S_SUCCESS) := by
        repeat first | exact Path.nil _ | apply Path.cons
      exact ⟨.ok .S_SUCCESS, rfl, called_ends hend⟩

/-- The calls for the parameters, step by step. -/
theorem takes_params {calls : List ParamCall} (hcalls : ∀ call ∈ calls, call ≠ .contrib []) :
    List.Forall₂ (Takes hasher age rounds cfg) (succeeded id calls)
      (calls.map fun call => (call.trace c id).map adapterStep) := by
  induction calls with
  | nil => exact .nil
  | cons call calls ih =>
    exact .cons (takes_param (hcalls call List.mem_cons_self)) (ih fun x hx => hcalls x (List.mem_cons_of_mem _ hx))

theorem flatten_params (calls : List ParamCall) : (calls.map fun call => (call.trace c id).map adapterStep).flatten =
    (paramTrace c id calls).map adapterStep := by
  rw [paramTrace, List.map_flatMap, List.flatMap_def]

/-- **An image is created** and its parameters are set. -/
theorem path_image_created (c : DhsConnect) (hop : req.IsNamed "createImage") (hc : req.children ≠ []) (hid : id ≠ "") :
    Path (serveSteps env hasher age rounds cfg req)
      ((nameTrace c id ++ paramTrace c id (req.parameters none).calls).map adapterStep)
      (.ret (some (buildSuccessResponse (some (.text id))))) := by
  rw [List.map_append, ← flatten_params]
  exact path_steps (ends_image_created hop hc hid)
    (.cons ⟨.ok (.S_SUCCESS, id), rfl, called_ends (ends_named c id "")⟩ (takes_params fun _ => calls_nonempty))

/-- **Parameters are set.** -/
theorem path_parameters_set (c : DhsConnect) (hop : req.IsNamed "setParameters") (hid : (req.parameters none).id ≠ "") :
    Path (serveSteps env hasher age rounds cfg req)
      ((paramTrace c (req.parameters none).id (req.parameters none).calls).map adapterStep)
      (.ret (some (buildSuccessResponse none))) := by
  rw [← flatten_params]
  exact path_steps (ends_parameters_set hop hid) (takes_params fun _ => calls_nonempty)

variable {ι : Type} [DecidableEq ι] {s : AdapterState ι} {i : ι}

theorem exec_trace (hfree : s.owner = none) (hup : s.isConnected = true) (h : s.inside i = none) (f : LibCall)
    (r : f.Answer) : Exec adapterSem s ((sectionTrace s.connection f r).map (Event.mk i)) s := by
  let locked : AdapterState ι := { s with owner := some i }
  have hlock : Exec adapterSem s [⟨i, ⟨.timedLock, true⟩⟩, ⟨i, ⟨.getConnection, s.connection⟩⟩] locked :=
    ⟨locked, ⟨hfree, rfl⟩, locked, ⟨rfl, rfl⟩, rfl⟩
  have hunlock : Exec adapterSem locked [⟨i, ⟨.unlock, ()⟩⟩] s := by
    refine ⟨_, rfl, ?_⟩
    show s = { s with owner := none }
    rw [← hfree]
  unfold sectionTrace
  rw [List.map_append, List.map_append, List.map_append]
  exact exec_append.2 ⟨s, exec_connected hfree hup,
    exec_append.2 ⟨locked, exec_append.2 ⟨locked, hlock, exec_lib (s := locked) h f _ r⟩, hunlock⟩⟩

theorem exec_params (hfree : s.owner = none) (hup : s.isConnected = true) (h : s.inside i = none) (id : ImageId)
    (calls : List ParamCall) : Exec adapterSem s ((paramTrace s.connection id calls).map (Event.mk i)) s := by
  induction calls with
  | nil => exact exec_nil.2 rfl
  | cons call calls ih =>
    rw [paramTrace, List.flatMap_cons, List.map_append, exec_append]
    refine ⟨s, ?_, ih⟩
    cases call with
    | lifeTime lt => exact exec_trace hfree hup h _ _
    | contrib contribs => exact exec_trace hfree hup h _ _

end Successes

/-! ## Requests that are served -/

/-- Two requests for images, one with a lifetime and contributors. -/
def imageRequests : Bool → AxiomNode
  | true => createImageRequest (some .PERMANENT) ["gmos", "gcal"]
  | false => createImageRequest none []

/-- The ids that the library gives. -/
def imageIds : Bool → ImageId
  | true => "GS1"
  | false => "GS2"

/-- Both images are created, then the parameters are set. -/
def imageSteps : List (Event Bool SystemSig) :=
  inTurn (fun i => (nameTrace (.handle 1) (imageIds i)).map adapterStep) ++
    inTurn fun i => (paramTrace (.handle 1) (imageIds i) ((imageRequests i).parameters none).calls).map adapterStep

/-- The configuration in the end. -/
def imagesCreated : Config Bool (SystemState Bool) SystemSig Abort (Option AxiomNode) :=
  ⟨(LockedCache.new, ((), plainNew.state)), fun i => .ret (some (buildSuccessResponse (some (.text (imageIds i)))))⟩

theorem images_run :
    Run systemSem (systemStart plainEnv (fun _ => 0) 90 20 plainConfig plainNew.state imageRequests) imageSteps
      imagesCreated := by
  refine run_iff.2 ⟨exec_append.2 ⟨imagesCreated.shared, ?_, ?_⟩, fun i => ?_⟩
  · exact exec_inTurn (exec_adapter (exec_trace rfl rfl rfl _ _)) (exec_adapter (exec_trace rfl rfl rfl _ _))
  · exact exec_inTurn (exec_adapter (exec_params rfl rfl rfl _ _)) (exec_adapter (exec_params rfl rfl rfl _ _))
  · have hop : (imageRequests i).IsNamed "createImage" := by cases i <;> rfl
    have hchildren : (imageRequests i).children ≠ [] := by cases i <;> exact List.cons_ne_nil _ _
    have hid : imageIds i ≠ "" := by cases i <;> decide
    have hpath : Path (serveSteps plainEnv (fun _ => 0) 90 20 plainConfig (imageRequests i)) _ _ :=
      path_image_created (.handle 1) hop hchildren hid
    rw [List.map_append] at hpath
    rw [imageSteps, actsOf_append, actsOf_inTurn, actsOf_inTurn]
    exact hpath

/-- Both parameters were read. -/
theorem images_read : ((imageRequests true).parameters none).calls = [.lifeTime .PERMANENT, .contrib ["gmos", "gcal"]] := by
  rw [← calls_eq _ (some "GS1"), imageRequests, createImageRequest_read]
  rfl

theorem created_in_library_images : ∃ id,
    NamedFor (plainNew.acts.map (Event.mk false)) (adapterEvents imageSteps) true id ∧
    (ParamCall.lifeTime .PERMANENT).SetFor (plainNew.acts.map (Event.mk false)) (adapterEvents imageSteps) true id ∧
    (ParamCall.contrib ["gmos", "gcal"]).SetFor (plainNew.acts.map (Event.mk false)) (adapterEvents imageSteps) true id := by
  obtain ⟨id, _, hnamed, hset⟩ := created_in_library (i := true) plain_constructed images_run rfl rfl (isSuccess_text "GS1")
  rw [images_read] at hset
  exact ⟨id, hnamed, hset _ (by simp), hset _ (by simp)⟩

theorem images_apart_images : imagesCreated.prog false = .ret (some (buildSuccessResponse (some (.text "GS2")))) ∧
    imagesCreated.prog false ≠ .ret (some (buildSuccessResponse (some (.text "GS1")))) :=
  ⟨rfl, images_apart (i := true) plain_constructed images_run (by decide) (by decide) rfl rfl rfl⟩

/-- A request for a lifetime and contributors, next to one of which nothing is read. -/
def parameterRequests : Bool → AxiomNode
  | true => setParametersRequest "GS1" (some .PERMANENT) ["gmos", "gcal"]
  | false => setParametersRequest "GS2" none []

theorem parameters_read (i : Bool) : (parameterRequests i).parameters none =
    ⟨if i then ["gmos", "gcal"] else [], if i then .PERMANENT else .TRANSIENT, i, if i then "GS1" else "GS2"⟩ := by
  cases i <;> exact setParametersRequest_read _ _ _

def parameterSteps : List (Event Bool SystemSig) := inTurn fun i =>
  (paramTrace (.handle 1) ((parameterRequests i).parameters none).id ((parameterRequests i).parameters none).calls).map
    adapterStep

def parametersSet : Config Bool (SystemState Bool) SystemSig Abort (Option AxiomNode) :=
  ⟨(LockedCache.new, ((), plainNew.state)), fun _ => .ret (some (buildSuccessResponse none))⟩

theorem parameters_run :
    Run systemSem (systemStart plainEnv (fun _ => 0) 90 20 plainConfig plainNew.state parameterRequests) parameterSteps
      parametersSet := by
  refine run_iff.2 ⟨?_, fun i => ?_⟩
  · exact exec_inTurn (exec_adapter (exec_params rfl rfl rfl _ _)) (exec_adapter (exec_params rfl rfl rfl _ _))
  · have hop : (parameterRequests i).IsNamed "setParameters" := by cases i <;> rfl
    have hid : ((parameterRequests i).parameters none).id ≠ "" := by
      rw [parameters_read]
      cases i <;> decide
    rw [parameterSteps, actsOf_inTurn]
    exact path_parameters_set (.handle 1) hop hid

theorem parameters_in_library_both :
    (ParamCall.lifeTime .PERMANENT).SetFor (plainNew.acts.map (Event.mk false)) (adapterEvents parameterSteps) true "GS1" ∧
    (ParamCall.contrib ["gmos", "gcal"]).SetFor (plainNew.acts.map (Event.mk false)) (adapterEvents parameterSteps) true
      "GS1" := by
  have hset := (parameters_in_library (i := true) plain_constructed parameters_run rfl rfl (isSuccess_success none)).2
  rw [parameters_read] at hset
  exact ⟨hset (.lifeTime .PERMANENT) (by decide), hset (.contrib ["gmos", "gcal"]) (by decide)⟩

end DhsTranslator
