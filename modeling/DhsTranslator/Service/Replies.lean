import DhsTranslator.Service.Outcomes
import DhsTranslator.Service.Sequential

/-!
# What a reply says about the adapter calls

A request served alone, in any world.

- `Reports`: the reply tells which adapter calls were made and how they ended, and processing stops at the first one
  that does not succeed;
- `Records`: the message cache gains the message of a request that was sent, and nothing else;
- `replies_truthful`: both hold for every `setParameters` and `setKeywords` request.
-/

namespace DhsTranslator

open Conc DhsService

/-! ## Replies and calls -/

/-- The reply is an error of the type. -/
def HasErrorType (type : String) (reply : AxiomNode) : Prop := reply.namedText "type" = some type

instance (type : String) (reply : AxiomNode) : Decidable (HasErrorType type reply) :=
  inferInstanceAs (Decidable (_ = _))

theorem errorType_error {type type' message : String} :
    HasErrorType type (buildErrorResponse type' message) ↔ type' = type := by
  constructor
  · intro h; exact Option.some.inj h
  · rintro rfl; rfl

theorem not_errorType_success (type : String) : ¬HasErrorType type (buildSuccessResponse none) := nofun

/-- There is a reply, with the property. -/
def Replies (o : Outcome SvcSig Abort (Option AxiomNode) World) (P : AxiomNode → Prop) : Prop :=
  ∃ reply, o.result = .ok (some reply) ∧ P reply

theorem replies_iff {o : Outcome SvcSig Abort (Option AxiomNode) World} {reply : AxiomNode}
    (h : o.result = .ok (some reply)) (P : AxiomNode → Prop) : Replies o P ↔ P reply := by
  unfold Replies
  rw [h]
  simp

/-- The outcomes of the adapter calls, in order. -/
def outcomes (tr : List (Act SvcSig)) : List (Except String DhsStatus) := tr.filterMap adapterOutcome

/-- The reply to a call with this outcome, which is not success. -/
def IsFailureReply (out : Except String DhsStatus) (reply : AxiomNode) : Prop :=
  (∃ status message, out = .ok status ∧ reply = buildErrorResponse DHS_ERROR message) ∨
  ∃ what, out = .error what ∧ reply = internalError

theorem isFailureReply_param (c : ParamCall) (out : Except String DhsStatus) : IsFailureReply out (c.reply out) := by
  cases out with
  | ok status => cases c <;> exact Or.inl ⟨status, _, rfl, rfl⟩
  | error what => exact Or.inr ⟨what, rfl, rfl⟩

theorem isFailureReply_keywords (out : Except String DhsStatus) : IsFailureReply out (keywordsReply out) := by
  cases out with
  | ok status => exact Or.inl ⟨status, _, rfl, rfl⟩
  | error what => exact Or.inr ⟨what, rfl, rfl⟩

theorem IsFailureReply.not_isSuccess {out : Except String DhsStatus} {reply : AxiomNode} (h : IsFailureReply out reply) :
    ¬IsSuccess reply := by
  rcases h with ⟨status, message, _, rfl⟩ | ⟨what, _, rfl⟩
  · exact not_isSuccess_error _ _
  · exact not_isSuccess_error _ _

theorem IsFailureReply.not_badRequest {out : Except String DhsStatus} {reply : AxiomNode} (h : IsFailureReply out reply) :
    ¬HasErrorType BAD_REQUEST reply := by
  intro htype
  rcases h with ⟨status, message, _, rfl⟩ | ⟨what, _, rfl⟩
  · exact absurd (errorType_error.1 htype) (by decide)
  · exact absurd (errorType_error.1 htype) (by decide)

/-- Every adapter call returned success. -/
def AllSucceed (tr : List (Act SvcSig)) : Prop := ∀ out ∈ outcomes tr, out = .ok .S_SUCCESS

/-- An adapter call returned another status. -/
def SomeFailed (tr : List (Act SvcSig)) : Prop := ∃ status, status ≠ .S_SUCCESS ∧ .ok status ∈ outcomes tr

/-- Every adapter call but the last one returned success. -/
def FailStop (tr : List (Act SvcSig)) : Prop := (outcomes tr).Pairwise fun out _ => out = .ok .S_SUCCESS

theorem AllSucceed.not_someFailed {tr : List (Act SvcSig)} (h : AllSucceed tr) : ¬SomeFailed tr := by
  rintro ⟨status, hne, hmem⟩
  exact hne (Except.ok.inj (h _ hmem))

@[simp] theorem adapterOutcome_act (c : ParamCall) (id : ImageId) (out : Except String DhsStatus) :
    adapterOutcome (c.act id out) = some out := by
  cases c <;> rfl

@[simp] theorem outcomes_append (tr tr' : List (Act SvcSig)) : outcomes (tr ++ tr') = outcomes tr ++ outcomes tr' :=
  List.filterMap_append

theorem outcomes_succeeded (id : ImageId) (cs : List ParamCall) :
    outcomes (succeeded id cs) = List.replicate cs.length (.ok .S_SUCCESS) := by
  unfold outcomes succeeded
  induction cs with
  | nil => rfl
  | cons c cs ih => rw [List.map_cons, List.filterMap_cons, adapterOutcome_act, ih]; rfl

theorem outcomes_failed (id : ImageId) (done : List ParamCall) (c : ParamCall) (out : Except String DhsStatus) :
    outcomes (succeeded id done ++ [c.act id out]) = List.replicate done.length (.ok .S_SUCCESS) ++ [out] := by
  rw [outcomes_append, outcomes_succeeded]
  congr 1
  cases c <;> rfl

/-- The call of a transaction, if it came that far. -/
theorem outcomes_stage (vars : KeywordsRequest) (msg : String) (s : Stage) :
    outcomes (s.acts vars msg) = match s with
      | .called _ out => [out]
      | .recorded _ => [.ok .S_SUCCESS]
      | _ => [] := by
  cases s <;> rfl

/-! ## Truthful replies -/

/-- What the request must contain is there: an id, and for `setKeywords` keywords that can be read. -/
def FieldsRead (env : Env) (req : AxiomNode) : Prop :=
  (req.IsNamed "setParameters" ∧ req.ids.getLastD "" ≠ "") ∨ ∃ vars, WellFormed env req vars

/-- Every entry of the second cache is one of the first. -/
def NoNewEntries (c c' : MessageCache) : Prop := ∀ id, (c'.entries id).Sublist (c.entries id)

theorem noNewEntries_refl (c : MessageCache) : NoNewEntries c c := fun _ => List.Sublist.refl _

theorem noNewEntries_purge (c : MessageCache) (t : Int) : NoNewEntries c (c.purgeOldMessages t) := fun id => by
  rw [MessageCache.entries_purge]
  exact List.dropWhile_sublist _

/-- The reply reports what happened to the adapter. -/
structure Reports (fields : Prop) (o : Outcome SvcSig Abort (Option AxiomNode) World) : Prop where
  success : Replies o IsSuccess ↔ fields ∧ AllSucceed o.acts
  dhsError : Replies o (HasErrorType DHS_ERROR) ↔ SomeFailed o.acts
  failStop : FailStop o.acts
  badRequest : Replies o (HasErrorType BAD_REQUEST) → outcomes o.acts = []

/-- The cache gains the message of the request iff it was sent, and nothing else. -/
structure Records (env : Env) (req : AxiomNode) (w : World) (o : Outcome SvcSig Abort (Option AxiomNode) World) : Prop where
  sent : Sent o → ∃ vars c, WellFormed env req vars ∧ NoNewEntries w.cache c ∧
    o.state.cache = c.add vars.id w.now (env.nodeToString req)
  notSent : ¬Sent o → NoNewEntries w.cache o.state.cache
  notOk : ¬AllSucceed o.acts → NoNewEntries w.cache o.state.cache

section Cases

variable {env : Env} {req : AxiomNode} {w : World} {o : Outcome SvcSig Abort (Option AxiomNode) World} {fields : Prop}

/-- A request that is rejected without a call. -/
theorem reports_rejection (hacts : outcomes o.acts = []) (hfields : ¬fields)
    (hres : ∀ reply, o.result = .ok (some reply) → IsRejection reply) : Reports fields o where
  success := by
    refine iff_of_false ?_ fun h => hfields h.1
    rintro ⟨reply, hreply, hok⟩
    exact (hres reply hreply).not_isSuccess hok
  dhsError := by
    refine iff_of_false ?_ ?_
    · rintro ⟨reply, hreply, htype⟩
      rcases hres reply hreply with rfl | ⟨message, rfl⟩
      · exact absurd (errorType_error.1 htype) (by decide)
      · exact absurd (errorType_error.1 htype) (by decide)
    · rintro ⟨status, _, hmem⟩
      rw [hacts] at hmem
      exact List.not_mem_nil hmem
  failStop := by
    unfold FailStop
    rw [hacts]
    exact List.Pairwise.nil
  badRequest _ := hacts

/-- A reply of success after calls that all succeeded. -/
theorem reports_success (hfields : fields) (hres : o.result = .ok (some (buildSuccessResponse none)))
    (hall : AllSucceed o.acts) : Reports fields o where
  success := (replies_iff hres _).trans (iff_of_true (isSuccess_success none) ⟨hfields, hall⟩)
  dhsError := (replies_iff hres _).trans (iff_of_false (not_errorType_success _) hall.not_someFailed)
  failStop := List.pairwise_of_forall_mem_list fun out hout _ _ => hall out hout
  badRequest h := absurd ((replies_iff hres _).1 h) (not_errorType_success _)

/-- The reply to a last call that did not succeed, after calls that did. -/
theorem reports_failure {n : Nat} {out : Except String DhsStatus} {reply : AxiomNode}
    (hacts : outcomes o.acts = List.replicate n (.ok .S_SUCCESS) ++ [out]) (hout : out ≠ .ok .S_SUCCESS)
    (hres : o.result = .ok (some reply)) (hreply : IsFailureReply out reply) : Reports fields o := by
  have hlast : out ∈ outcomes o.acts := by rw [hacts]; simp
  have hnot : ¬AllSucceed o.acts := fun h => hout (h out hlast)
  have hstop : FailStop o.acts := by
    unfold FailStop
    rw [hacts]
    refine List.pairwise_append.2 ⟨?_, List.pairwise_singleton _ _, ?_⟩
    · exact List.pairwise_of_forall_mem_list fun x hx _ _ => List.eq_of_mem_replicate hx
    · exact fun x hx _ _ => List.eq_of_mem_replicate hx
  have hbad : ¬Replies o (HasErrorType BAD_REQUEST) := fun h => hreply.not_badRequest ((replies_iff hres _).1 h)
  have herror : (Replies o IsSuccess ↔ fields ∧ AllSucceed o.acts) ∧
      (Replies o (HasErrorType DHS_ERROR) ↔ SomeFailed o.acts) := by
    rw [replies_iff hres, replies_iff hres]
    rcases hreply with ⟨status, message, rfl, rfl⟩ | ⟨what, rfl, rfl⟩
    · have hfailed : SomeFailed o.acts := ⟨status, fun h => hout (congrArg Except.ok h), hlast⟩
      exact ⟨iff_of_false (not_isSuccess_error _ _) fun h => hnot h.2, iff_of_true (errorType_error.2 rfl) hfailed⟩
    · have hfailed : ¬SomeFailed o.acts := by
        rintro ⟨status, hne, hmem⟩
        rw [hacts] at hmem
        rcases List.mem_append.1 hmem with hmem | hmem
        · exact hne (Except.ok.inj (List.eq_of_mem_replicate hmem))
        · cases List.mem_singleton.1 hmem
      exact ⟨iff_of_false (not_isSuccess_error _ _) fun h => hnot h.2,
        iff_of_false (fun h => absurd (errorType_error.1 h) (by decide)) hfailed⟩
  exact ⟨herror.1, herror.2, hstop, fun h => absurd h hbad⟩

/-- Adapter calls leave the cache as it is. -/
theorem exec_adapter_calls {ι : Type} {c c' : MessageCache} {tr : List (Event ι SvcSig)} (h : Exec svcSem c tr c')
    (hcalls : ∀ e ∈ tr, adapterOutcome e.act ≠ none) : c' = c := by
  induction tr generalizing c with
  | nil => exact exec_nil.1 h
  | cons e tr ih =>
    obtain ⟨m, hm, h'⟩ := exec_cons.1 h
    have hkeep : m = c := by
      have hcall := hcalls e List.mem_cons_self
      rcases sem_cases hm with ⟨t, ha, _⟩ | ⟨id, t, d, ha, _⟩ | heq
      · rw [ha] at hcall; exact absurd rfl hcall
      · rw [ha] at hcall; exact absurd rfl hcall
      · exact heq
    rw [ih h' fun e he => hcalls e (List.mem_cons_of_mem _ he), hkeep]

/-- A request that only calls the adapter leaves the cache as it is. -/
theorem cache_of_adapter_calls (h : ∀ a ∈ (serveIn env req w).acts, adapterOutcome a ≠ none) :
    (serveIn env req w).state.cache = w.cache := by
  refine exec_adapter_calls (run_exec World.cache (handler_sem ()) (serve env req) w) ?_
  intro e he
  obtain ⟨a, ha, rfl⟩ := List.mem_map.1 he
  exact h a ha

theorem cache_of_no_acts (h : (serveIn env req w).acts = []) : (serveIn env req w).state.cache = w.cache :=
  cache_of_adapter_calls fun _ ha => absurd (h ▸ ha) List.not_mem_nil

/-- `setParameters` leaves the message cache alone. -/
theorem setParameters_cache (hop : req.IsNamed "setParameters") : (serveIn env req w).state.cache = w.cache := by
  rcases ends_setParameters hop (run_ends handler (serve env req) w) with ⟨_, hacts, _⟩ | ⟨_, reply, _, hend⟩
  · exact cache_of_no_acts hacts
  · refine cache_of_adapter_calls fun a ha => ?_
    have ha' : a ∈ ((serve env req).run handler w).acts := ha
    obtain ⟨c, _, out, rfl⟩ := hend.mem ha'
    rw [adapterOutcome_act]
    nofun

theorem setParameters_reports (env : Env) (w : World) (hop : req.IsNamed "setParameters") :
    Reports (FieldsRead env req) (serveIn env req w) := by
  have hids : (req.parameters none).id = req.ids.getLastD "" := by rw [parameters_eq]; rfl
  rcases ends_setParameters hop (run_ends handler (serve env req) w) with ⟨hid, hacts, hres⟩ | ⟨hid, reply, hres, hend⟩
  · refine reports_rejection (by rw [show (serveIn env req w).acts = [] from hacts]; rfl) ?_ ?_
    · rintro (⟨_, h⟩ | ⟨vars, h⟩)
      · exact h (hids.symm.trans hid)
      · exact absurd (hop.unique h.op) (by decide)
    · intro reply hreply
      cases hres.symm.trans hreply
      exact Or.inr ⟨_, rfl⟩
  · have hfields : FieldsRead env req := Or.inl ⟨hop, fun h => hid (hids.trans h)⟩
    generalize hacts : ((serve env req).run handler w).acts = tr at hend
    cases hend with
    | done =>
      refine reports_success hfields hres ?_
      intro out hout
      rw [show (serveIn env req w).acts = _ from hacts, outcomes_succeeded] at hout
      exact List.eq_of_mem_replicate hout
    | failed done c rest out hcs hout =>
      have hone : outcomes (serveIn env req w).acts = List.replicate done.length (.ok .S_SUCCESS) ++ [out] := by
        rw [show (serveIn env req w).acts = _ from hacts]
        exact outcomes_failed _ done c out
      exact reports_failure hone hout hres (isFailureReply_param c out)

/-- How a `setKeywords` request is served: as a transaction, or not at all. -/
theorem setKeywords_cases (env : Env) (hop : req.IsNamed "setKeywords") (w : World) :
    (∃ vars, WellFormed env req vars ∧ Served vars (env.nodeToString req) w (serveIn env req w)) ∨
    ((¬∃ vars, WellFormed env req vars) ∧ (serveIn env req w).acts = [] ∧
      ∀ reply, (serveIn env req w).result = .ok (some reply) → IsRejection reply) := by
  by_cases hwf : ∃ vars, WellFormed env req vars
  · obtain ⟨vars, h⟩ := hwf
    exact Or.inl ⟨vars, h, serveIn_served h w⟩
  · rcases request_cases env hop with h | ⟨res, hserve, hbad⟩
    · exact absurd h hwf
    · refine Or.inr ⟨hwf, ?_⟩
      unfold serveIn
      rw [hserve]
      cases res with
      | ok r => exact ⟨rfl, hbad⟩
      | error e => exact ⟨rfl, nofun⟩

theorem setKeywords_reports (hop : req.IsNamed "setKeywords") : Reports (FieldsRead env req) (serveIn env req w) := by
  rcases setKeywords_cases env hop w with ⟨vars, hwf, hserved⟩ | ⟨hnwf, hacts, hres⟩
  · have hfields : FieldsRead env req := Or.inr ⟨vars, hwf⟩
    cases hserved with
    | duplicate found acts cache result =>
      refine reports_success hfields result ?_
      intro out hout
      rw [acts, outcomes_stage] at hout
      exact absurd hout List.not_mem_nil
    | recorded missed outcome acts cache result =>
      refine reports_success hfields result ?_
      intro out hout
      rw [acts, outcomes_stage] at hout
      exact List.mem_singleton.1 hout
    | failed missed outcome acts cache result =>
      have hone : outcomes (serveIn env req w).acts =
          List.replicate 0 (.ok .S_SUCCESS) ++ [(w.outcomes 0).map Prod.fst] := by
        rw [acts, outcomes_stage]
        rfl
      exact reports_failure hone outcome result (isFailureReply_keywords _)
  · refine reports_rejection (by rw [hacts]; rfl) ?_ hres
    rintro (⟨h, _⟩ | h)
    · exact absurd (hop.unique h) (by decide)
    · exact hnwf h

theorem setKeywords_records (hop : req.IsNamed "setKeywords") : Records env req w (serveIn env req w) := by
  have hpurge := noNewEntries_purge w.cache w.now
  rcases setKeywords_cases env hop w with ⟨vars, hwf, hserved⟩ | ⟨_, hacts, _⟩
  · constructor
    · intro hsent
      rcases hserved.sent_cases with ⟨_, hcache⟩ | ⟨hnot, _⟩
      · exact ⟨vars, _, hwf, hpurge, hcache⟩
      · exact absurd hsent hnot
    · intro hnot
      rcases hserved.sent_cases with ⟨hsent, _⟩ | ⟨_, hcache⟩
      · exact absurd hsent hnot
      · rw [hcache]; exact hpurge
    · intro hnot
      cases hserved with
      | duplicate found acts cache => rw [cache]; exact hpurge
      | recorded missed outcome acts =>
        refine absurd (fun out hout => ?_) hnot
        rw [acts, outcomes_stage] at hout
        exact List.mem_singleton.1 hout
      | failed missed outcome acts cache => rw [cache]; exact hpurge
  · have hcache := cache_of_no_acts hacts
    have hsame : NoNewEntries w.cache (serveIn env req w).state.cache := by
      rw [hcache]; exact noNewEntries_refl _
    refine ⟨?_, fun _ => hsame, fun _ => hsame⟩
    rintro ⟨id, keywords, final, hmem⟩
    rw [hacts] at hmem
    exact absurd hmem List.not_mem_nil

/-- A `setKeywords` request that is answered with `BAD_REQUEST` leaves the cache as it is. -/
theorem setKeywords_badRequest (hop : req.IsNamed "setKeywords")
    (h : Replies (serveIn env req w) (HasErrorType BAD_REQUEST)) : (serveIn env req w).state.cache = w.cache := by
  rcases setKeywords_cases env hop w with ⟨vars, _, hserved⟩ | ⟨_, hacts, _⟩
  · cases hserved with
    | duplicate _ _ _ result => exact absurd ((replies_iff result _).1 h) (not_errorType_success _)
    | recorded _ _ _ _ result => exact absurd ((replies_iff result _).1 h) (not_errorType_success _)
    | failed _ _ _ _ result => exact absurd ((replies_iff result _).1 h) (isFailureReply_keywords _).not_badRequest
  · exact cache_of_no_acts hacts

/-- **Replies are truthful, and processing stops at the first failure.** -/
theorem replies_truthful (env : Env) (w : World) (hop : req.IsNamed "setParameters" ∨ req.IsNamed "setKeywords") :
    (Replies (serveIn env req w) IsSuccess ↔ FieldsRead env req ∧ AllSucceed (serveIn env req w).acts) ∧
    (Replies (serveIn env req w) (HasErrorType DHS_ERROR) ↔ SomeFailed (serveIn env req w).acts) ∧
    FailStop (serveIn env req w).acts ∧
    (Replies (serveIn env req w) (HasErrorType BAD_REQUEST) →
      outcomes (serveIn env req w).acts = [] ∧ (serveIn env req w).state.cache = w.cache) ∧
    (req.IsNamed "setKeywords" → Records env req w (serveIn env req w)) := by
  have hreports : Reports (FieldsRead env req) (serveIn env req w) := by
    rcases hop with hop | hop
    · exact setParameters_reports env w hop
    · exact setKeywords_reports hop
  refine ⟨hreports.success, hreports.dhsError, hreports.failStop, fun hbad => ⟨hreports.badRequest hbad, ?_⟩,
    setKeywords_records⟩
  rcases hop with hop | hop
  · exact setParameters_cache hop
  · exact setKeywords_badRequest hop hbad

end Cases

/-- A world with an empty cache and an adapter that gives the status to every call. -/
def statusWorld (status : DhsStatus) : World := ⟨.new boostHash 90, 0, fun _ => .ok (status, "GS1")⟩

theorem replies_truthful_object :
    (Replies (serveIn plainEnv objectRequest (statusWorld .E_CTL_CMD)) (HasErrorType DHS_ERROR) ↔
      SomeFailed (serveIn plainEnv objectRequest (statusWorld .E_CTL_CMD)).acts) ∧
    Records plainEnv objectRequest (statusWorld .E_CTL_CMD)
      (serveIn plainEnv objectRequest (statusWorld .E_CTL_CMD)) := by
  obtain ⟨_, herror, _, _, hrecords⟩ := replies_truthful plainEnv (statusWorld .E_CTL_CMD) (Or.inr wellFormed_object.op)
  exact ⟨herror, hrecords wellFormed_object.op⟩

end DhsTranslator
