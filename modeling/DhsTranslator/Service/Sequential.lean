import DhsTranslator.Service.Concurrent

/-!
# Requests one after another

`setKeywords` requests served in turn by one service.

- `run_transaction`: the three ways a well-formed request is served;
- `Refines`, `refines_step`, `refines_run`: with times that do not decrease, the cache stays a window of the plain log
  of all successful requests;
- `duplicate_window`: so a request is withheld exactly when the log holds it in the window.
-/

namespace DhsTranslator

open Conc Aging DhsService

/-! ## Serving in turn -/

/-- A request with the time at which it is served and the answers the adapter is going to give. -/
structure Arrival where
  request : AxiomNode
  now : Int
  outcomes : Nat → Except String (DhsStatus × ImageId)

/-- Serving one request. -/
def serveOne (env : Env) (c : MessageCache) (a : Arrival) : Outcome SvcSig Abort (Option AxiomNode) World :=
  serveIn env a.request ⟨c, a.now, a.outcomes⟩

/-- The cache after serving the requests. -/
def cacheAfter (env : Env) (c : MessageCache) (run : List Arrival) : MessageCache :=
  run.foldl (fun c a => (serveOne env c a).state.cache) c

theorem cacheAfter_snoc (env : Env) (c : MessageCache) (run : List Arrival) (a : Arrival) :
    cacheAfter env c (run ++ [a]) = (serveOne env (cacheAfter env c run) a).state.cache := by
  unfold cacheAfter
  rw [List.foldl_append]
  rfl

/-- Every call of the adapter succeeds. -/
def AlwaysSucceeds (run : List Arrival) : Prop := ∀ a ∈ run, ∀ n, (a.outcomes n).map Prod.fst = .ok .S_SUCCESS

/-- Nothing was sent to the adapter. -/
def Withheld (o : Outcome SvcSig Abort (Option AxiomNode) World) : Prop := ∀ a ∈ o.acts, adapterOutcome a = none

/-- The keywords were sent to the adapter, with success. -/
def Sent (o : Outcome SvcSig Abort (Option AxiomNode) World) : Prop :=
  ∃ id keywords final, ⟨.setImageKeywords id keywords final, .ok .S_SUCCESS⟩ ∈ o.acts

theorem Sent.not_withheld {o : Outcome SvcSig Abort (Option AxiomNode) World} (h : Sent o) : ¬Withheld o := by
  obtain ⟨id, keywords, final, hmem⟩ := h
  intro hnone
  have hout := hnone _ hmem
  cases hout

/-! ## One transaction -/

/-- How a transaction with the given message is served: as a duplicate, with success or with a failure. -/
inductive Served (vars : KeywordsRequest) (msg : String) (w : World)
    (o : Outcome SvcSig Abort (Option AxiomNode) World) : Prop
  | duplicate (found : (w.cache.purgeOldMessages w.now).exists vars.id msg = true)
      (acts : o.acts = (Stage.found w.now).acts vars msg)
      (cache : o.state.cache = w.cache.purgeOldMessages w.now)
      (result : o.result = .ok (some (buildSuccessResponse none)))
  | recorded (missed : (w.cache.purgeOldMessages w.now).exists vars.id msg = false)
      (outcome : (w.outcomes 0).map Prod.fst = .ok .S_SUCCESS)
      (acts : o.acts = (Stage.recorded w.now).acts vars msg)
      (cache : o.state.cache = (w.cache.purgeOldMessages w.now).add vars.id w.now msg)
      (result : o.result = .ok (some (buildSuccessResponse none)))
  | failed (missed : (w.cache.purgeOldMessages w.now).exists vars.id msg = false)
      (outcome : (w.outcomes 0).map Prod.fst ≠ .ok .S_SUCCESS)
      (acts : o.acts = (Stage.called w.now ((w.outcomes 0).map Prod.fst)).acts vars msg)
      (cache : o.state.cache = w.cache.purgeOldMessages w.now)
      (result : o.result = .ok (some (keywordsReply ((w.outcomes 0).map Prod.fst))))

/-- **One transaction.** -/
theorem run_transaction (vars : KeywordsRequest) (msg : String) (w : World) :
    Served vars msg w ((transaction vars msg).run handler w) := by
  unfold transaction
  cases hf : (w.cache.purgeOldMessages w.now).exists vars.id msg with
  | true => refine .duplicate hf ?_ ?_ ?_ <;> simp [handler, hf, afterCheck, Stage.acts]
  | false =>
    by_cases ho : (w.outcomes 0).map Prod.fst = .ok .S_SUCCESS
    · refine .recorded hf ho ?_ ?_ ?_ <;> simp [handler, hf, ho, afterCheck, afterCall, Stage.acts, World.called]
    · have hafter : afterCall vars msg w.now ((w.outcomes 0).map Prod.fst) =
          .ret (some (keywordsReply ((w.outcomes 0).map Prod.fst))) := by
        rcases hout : (w.outcomes 0).map Prod.fst with what | (_ | _ | code)
        · rfl
        · exact absurd hout ho
        · rfl
        · rfl
      refine .failed hf ho ?_ ?_ ?_ <;> simp [handler, hf, hafter, afterCheck, Stage.acts, World.called]

/-- A well-formed request is served in one of these ways. -/
theorem serveIn_served {env : Env} {req : AxiomNode} {vars : KeywordsRequest} (h : WellFormed env req vars) (w : World) :
    Served vars (env.nodeToString req) w (serveIn env req w) := by
  unfold serveIn
  rw [serve_transaction h]
  exact run_transaction _ _ _

theorem serveOne_served {env : Env} {a : Arrival} {vars : KeywordsRequest} (c : MessageCache)
    (ha : WellFormed env a.request vars) :
    Served vars (env.nodeToString a.request) ⟨c, a.now, a.outcomes⟩ (serveOne env c a) := serveIn_served ha _

/-- A `setKeywords` request that is not well formed is served without a command. -/
theorem serveOne_malformed {env : Env} {a : Arrival} (c : MessageCache) (hop : a.request.IsNamed "setKeywords")
    (h : ¬∃ vars, WellFormed env a.request vars) : (serveOne env c a).acts = [] ∧ (serveOne env c a).state.cache = c := by
  rcases request_cases env hop with hwf | ⟨res, hserve, _⟩
  · exact absurd hwf h
  · unfold serveOne serveIn
    rw [hserve]
    cases res <;> exact ⟨rfl, rfl⟩

/-- Requests that are well formed are `setKeywords` requests. -/
theorem isNamed_of_wellFormed {env : Env} {run : List Arrival}
    (h : ∀ a ∈ run, ∃ vars, WellFormed env a.request vars) : ∀ a ∈ run, a.request.IsNamed "setKeywords" := by
  intro a ha
  obtain ⟨vars, hwf⟩ := h a ha
  exact hwf.op

section Outcomes

variable {vars : KeywordsRequest} {msg : String} {w : World} {o : Outcome SvcSig Abort (Option AxiomNode) World}

/-- Only a duplicate is withheld. -/
theorem Served.withheld_iff (h : Served vars msg w o) :
    Withheld o ↔ (w.cache.purgeOldMessages w.now).exists vars.id msg = true := by
  unfold Withheld
  cases h with
  | duplicate found acts => simp [acts, found, Stage.acts, adapterOutcome]
  | recorded missed _ acts => simp [acts, missed, Stage.acts, adapterOutcome]
  | failed missed _ acts => simp [acts, missed, Stage.acts, adapterOutcome]

/-- A transaction records its message iff it was sent. -/
theorem Served.sent_cases (h : Served vars msg w o) :
    (Sent o ∧ o.state.cache = (w.cache.purgeOldMessages w.now).add vars.id w.now msg) ∨
    (¬Sent o ∧ o.state.cache = w.cache.purgeOldMessages w.now) := by
  cases h with
  | duplicate found acts cache =>
    refine Or.inr ⟨?_, cache⟩
    rintro ⟨id, kws, final, hmem⟩
    simp [acts, Stage.acts] at hmem
  | recorded missed _ acts cache =>
    refine Or.inl ⟨⟨vars.id, vars.keywords, vars.final, ?_⟩, cache⟩
    simp [acts, Stage.acts]
  | failed missed outcome acts cache =>
    refine Or.inr ⟨?_, cache⟩
    rintro ⟨id, kws, final, hmem⟩
    simp only [acts, Stage.acts, List.mem_cons, Act.mk.injEq, reduceCtorEq, false_and, SvcCmd.setImageKeywords.injEq,
      List.not_mem_nil, or_false, false_or] at hmem
    obtain ⟨⟨rfl, rfl, rfl⟩, hout⟩ := hmem
    exact outcome (eq_of_heq hout).symm

end Outcomes

/-! ## The cache and the plain log -/

/-- At time `t` the cache is a window of the log: it holds what was recorded and can still count, in order. -/
structure Refines (w t : Int) (log : Set ((ImageId × String) × Int)) (c : MessageCache) : Prop where
  age : c.validAge = w
  tracks : Tracks w t log c.live
  inOrder : c.InOrder
  past : ∀ {k s}, (k, s) ∈ c.live → s ≤ t

section Log

variable {w t t' : Int} {log : Set ((ImageId × String) × Int)} {c : MessageCache}

theorem refines_new (hasher : String → UInt32) (w t : Int) : Refines w t ∅ (.new hasher w) where
  age := rfl
  tracks := by rw [MessageCache.live_new]; exact .empty
  inOrder := MessageCache.inOrder_new hasher w
  past h := by rw [MessageCache.live_new] at h; exact absurd h (Set.notMem_empty _)

theorem Refines.later (h : Refines w t log c) (ht : t ≤ t') : Refines w t' log c where
  age := h.age
  tracks := h.tracks.later ht
  inOrder := h.inOrder
  past hk := (h.past hk).trans ht

/-- Waiting and purging keep the refinement. -/
theorem Refines.purge (h : Refines w t log c) (ht : t ≤ t') : Refines w t' log (c.purgeOldMessages t') where
  age := h.age
  tracks := by
    refine (h.tracks.later ht).forget (MessageCache.live_purge_subset t') ?_
    intro k s hk hs
    exact MessageCache.live_purge hk (by rw [h.age]; exact hs)
  inOrder := h.inOrder.purge t'
  past hk := (h.past (MessageCache.live_purge_subset t' hk)).trans ht

/-- After the purge the check looks the key up in the window of the log. -/
theorem Refines.exists_iff (h : Refines w t log c) (ht : t ≤ t') {id : ImageId} {msg : String} :
    (c.purgeOldMessages t').exists id msg = true ↔ Recent w log (id, msg) t' := by
  have hfresh : (c.purgeOldMessages t').Fresh t' := MessageCache.purge_fresh_iff.2 (h.inOrder.expiredFirst t')
  rw [MessageCache.exists_iff_live]
  refine (h.purge ht).tracks.recent_iff ?_
  rintro ⟨id', d'⟩ s ⟨m, hm, _, rfl⟩
  rw [← h.age]
  exact hfresh id' m hm

/-- Recording a message of the present keeps the refinement. -/
theorem Refines.add (h : Refines w t log c) (id : ImageId) (msg : String) :
    Refines w t (insert ((id, msg), t) log) (c.add id t msg) where
  age := h.age
  tracks := by rw [MessageCache.live_add]; exact h.tracks.record _
  inOrder := by
    refine h.inOrder.add ?_ msg
    intro m hm
    have hlive : ((id, m.data), m.timestamp) ∈ c.live := ⟨m, hm, rfl, rfl⟩
    exact h.past hlive
  past hk := by
    rw [MessageCache.live_add] at hk
    rcases hk with hk | hk
    · have hs := congrArg Prod.snd hk
      exact le_of_eq hs
    · exact h.past hk

/-- **One request, on the cache and on the log.** -/
theorem refines_step {env : Env} {a : Arrival} {vars : KeywordsRequest} (h : Refines w t log c) (ht : t ≤ a.now)
    (ha : WellFormed env a.request vars) :
    (Withheld (serveOne env c a) ↔ Recent w log (vars.id, env.nodeToString a.request) a.now) ∧
    ((Sent (serveOne env c a) ∧ Refines w a.now (insert ((vars.id, env.nodeToString a.request), a.now) log)
        (serveOne env c a).state.cache) ∨
      (¬Sent (serveOne env c a) ∧ Refines w a.now log (serveOne env c a).state.cache)) := by
  have hserved := serveOne_served c ha
  refine ⟨hserved.withheld_iff.trans (h.exists_iff ht), ?_⟩
  rcases hserved.sent_cases with ⟨hsent, hcache⟩ | ⟨hsent, hcache⟩
  · refine Or.inl ⟨hsent, ?_⟩
    rw [hcache]
    exact (h.purge ht).add _ _
  · refine Or.inr ⟨hsent, ?_⟩
    rw [hcache]
    exact h.purge ht

end Log

section Window

variable {env : Env} {hasher : String → UInt32} {w : Int}

/-- What became of the request `a` after the requests `pre`. -/
def served (env : Env) (hasher : String → UInt32) (w : Int) (pre : List Arrival) (a : Arrival) :
    Outcome SvcSig Abort (Option AxiomNode) World := serveOne env (cacheAfter env (.new hasher w) pre) a

/-- The plain log: the id, the body and the time of every request that was sent with success. -/
def successes (env : Env) (hasher : String → UInt32) (w : Int) (run : List Arrival) : Set ((ImageId × String) × Int) :=
  {x | ∃ pre a post vars, run = pre ++ a :: post ∧ WellFormed env a.request vars ∧ Sent (served env hasher w pre a) ∧
    x = ((vars.id, env.nodeToString a.request), a.now)}

theorem WellFormed.unique {req : AxiomNode} {vars vars' : KeywordsRequest} (h : WellFormed env req vars)
    (h' : WellFormed env req vars') : vars' = vars := Except.ok.inj (h'.read.symm.trans h.read)

/-- The log after one more request: what it held, and the request if it was sent with success. -/
theorem mem_successes_append {run : List Arrival} {a : Arrival} (x : (ImageId × String) × Int) :
    x ∈ successes env hasher w (run ++ [a]) ↔ x ∈ successes env hasher w run ∨
      ∃ vars, WellFormed env a.request vars ∧ Sent (served env hasher w run a) ∧
        x = ((vars.id, env.nodeToString a.request), a.now) := by
  constructor
  · rintro ⟨pre, b, post, vb, heq, hb, hsent, rfl⟩
    rcases List.eq_nil_or_concat post with rfl | ⟨post', z, rfl⟩
    · obtain ⟨rfl, hab⟩ := List.append_inj' heq rfl
      obtain rfl := (List.cons.inj hab).1
      exact Or.inr ⟨vb, hb, hsent, rfl⟩
    · have heq' : run ++ [a] = (pre ++ b :: post') ++ [z] := by simpa using heq
      obtain ⟨rfl, _⟩ := List.append_inj' heq' rfl
      exact Or.inl ⟨pre, b, post', vb, rfl, hb, hsent, rfl⟩
  · rintro (⟨pre, b, post, vb, rfl, hb, hsent, rfl⟩ | ⟨vars, ha, hsent, rfl⟩)
    · exact ⟨pre, b, post ++ [a], vb, by simp, hb, hsent, rfl⟩
    · exact ⟨run, a, [], vars, rfl, ha, hsent, rfl⟩

/-- The same for a well-formed request. -/
theorem mem_successes_snoc {run : List Arrival} {a : Arrival} {vars : KeywordsRequest}
    (ha : WellFormed env a.request vars) (x : (ImageId × String) × Int) :
    x ∈ successes env hasher w (run ++ [a]) ↔ x ∈ successes env hasher w run ∨
      (Sent (served env hasher w run a) ∧ x = ((vars.id, env.nodeToString a.request), a.now)) := by
  rw [mem_successes_append]
  refine or_congr_right ⟨?_, fun h => ⟨vars, ha, h⟩⟩
  rintro ⟨va, hva, hsent, rfl⟩
  rw [ha.unique hva]
  exact ⟨hsent, rfl⟩

theorem successes_sent {run : List Arrival} {a : Arrival} {vars : KeywordsRequest} (ha : WellFormed env a.request vars)
    (hsent : Sent (served env hasher w run a)) : successes env hasher w (run ++ [a]) =
      insert ((vars.id, env.nodeToString a.request), a.now) (successes env hasher w run) := by
  ext x
  rw [mem_successes_snoc ha, Set.mem_insert_iff, and_iff_right hsent, or_comm]

theorem successes_not_sent {run : List Arrival} {a : Arrival} {vars : KeywordsRequest}
    (ha : WellFormed env a.request vars) (hsent : ¬Sent (served env hasher w run a)) :
    successes env hasher w (run ++ [a]) = successes env hasher w run := by
  ext x
  rw [mem_successes_snoc ha, or_iff_left fun h => hsent h.1]

/-- A request that is not well formed is not in the log. -/
theorem successes_malformed {run : List Arrival} {a : Arrival} (ha : ¬∃ vars, WellFormed env a.request vars) :
    successes env hasher w (run ++ [a]) = successes env hasher w run := by
  ext x
  rw [mem_successes_append, or_iff_left fun ⟨vars, hwf, _⟩ => ha ⟨vars, hwf⟩]

/-- **The cache refines the log**, over whole runs. -/
theorem refines_run {run : List Arrival} {t : Int} (hop : ∀ a ∈ run, a.request.IsNamed "setKeywords")
    (htimes : run.Pairwise fun a b => a.now ≤ b.now) (ht : ∀ a ∈ run, a.now ≤ t) :
    Refines w t (successes env hasher w run) (cacheAfter env (.new hasher w) run) := by
  induction run using List.reverseRecOn generalizing t with
  | nil =>
    have hempty : successes env hasher w [] = ∅ := by
      ext x
      simp [successes]
    rw [hempty]
    exact refines_new hasher w t
  | append_singleton run a ih =>
    obtain ⟨hrun, _, hlast⟩ := List.pairwise_append.1 htimes
    have hprefix : Refines w a.now (successes env hasher w run) (cacheAfter env (.new hasher w) run) :=
      ih (fun b hb => hop b (List.mem_append_left _ hb)) hrun fun b hb => hlast b hb a (List.mem_singleton.2 rfl)
    refine Refines.later ?_ (ht a (by simp))
    rw [cacheAfter_snoc]
    by_cases hwf : ∃ vars, WellFormed env a.request vars
    · obtain ⟨vars, ha⟩ := hwf
      rcases (refines_step hprefix le_rfl ha).2 with ⟨hsent, hstep⟩ | ⟨hsent, hstep⟩
      · rw [successes_sent ha hsent]; exact hstep
      · rw [successes_not_sent ha hsent]; exact hstep
    · rw [successes_malformed hwf, (serveOne_malformed _ (hop a (by simp)) hwf).2]
      exact hprefix

/-- A request is withheld iff the log of those before it holds its message in the window. -/
theorem withheld_iff_recent {run pre post : List Arrival} {a : Arrival} {vars : KeywordsRequest}
    (hop : ∀ b ∈ run, b.request.IsNamed "setKeywords") (htimes : run.Pairwise fun a b => a.now ≤ b.now)
    (hrun : run = pre ++ a :: post) (ha : WellFormed env a.request vars) :
    Withheld (served env hasher w pre a) ↔
      Recent w (successes env hasher w pre) (vars.id, env.nodeToString a.request) a.now := by
  subst hrun
  obtain ⟨hpre, _, hlast⟩ := List.pairwise_append.1 htimes
  have href : Refines w a.now (successes env hasher w pre) (cacheAfter env (.new hasher w) pre) :=
    refines_run (fun b hb => hop b (List.mem_append_left _ hb)) hpre fun b hb => hlast b hb a List.mem_cons_self
  exact (refines_step href le_rfl ha).1

/-- The same id and the same body. -/
def SameMessage (env : Env) (b a : Arrival) : Prop :=
  ∃ vb va, WellFormed env b.request vb ∧ WellFormed env a.request va ∧ vb.id = va.id ∧
    env.nodeToString b.request = env.nodeToString a.request

/-- **The duplicate window.** -/
theorem duplicate_window {run pre post : List Arrival} {a : Arrival}
    (hwf : ∀ b ∈ run, ∃ vars, WellFormed env b.request vars) (htimes : run.Pairwise fun a b => a.now ≤ b.now)
    (hrun : run = pre ++ a :: post) :
    Withheld (served env hasher w pre a) ↔ ∃ pre' b post', pre = pre' ++ b :: post' ∧ SameMessage env b a ∧
      Sent (served env hasher w pre' b) ∧ a.now - b.now ≤ w := by
  obtain ⟨vars, ha⟩ := hwf a (by rw [hrun]; simp)
  rw [withheld_iff_recent (isNamed_of_wellFormed hwf) htimes hrun ha]
  constructor
  · rintro ⟨s, ⟨pre', b, post', vb, heq, hb, hsent, hx⟩, hage⟩
    obtain ⟨⟨hid, hmsg⟩, rfl⟩ : (vars.id = vb.id ∧ env.nodeToString a.request = env.nodeToString b.request) ∧
      s = b.now := by simpa using hx
    exact ⟨pre', b, post', heq, ⟨vb, vars, hb, ha, hid.symm, hmsg.symm⟩, hsent, not_lt.1 hage⟩
  · rintro ⟨pre', b, post', heq, ⟨vb, va, hb, ha', hid, hmsg⟩, hsent, hage⟩
    obtain rfl := ha.unique ha'
    exact ⟨b.now, ⟨pre', b, post', vb, heq, hb, hsent, by rw [hid, hmsg]⟩, not_lt.2 hage⟩

end Window

/-- The request of `objectRequest`, served by an adapter that succeeds. -/
def objectArrival (now : Int) : Arrival := ⟨objectRequest, now, fun _ => .ok (.S_SUCCESS, "")⟩

theorem sameMessage_object (t t' : Int) : SameMessage plainEnv (objectArrival t) (objectArrival t') :=
  ⟨objectVars, objectVars, wellFormed_object, wellFormed_object, rfl, rfl⟩

theorem sent_objectArrival : Sent (served plainEnv boostHash 90 [] (objectArrival 0)) := by
  have h : Served objectVars _ _ (served plainEnv boostHash 90 [] (objectArrival 0)) :=
    serveOne_served (.new boostHash 90) wellFormed_object
  cases h with
  | duplicate found => exact Bool.noConfusion found
  | recorded _ _ acts =>
    refine ⟨objectVars.id, objectVars.keywords, objectVars.final, ?_⟩
    simp [acts, Stage.acts]
  | failed _ outcome => exact absurd rfl outcome

/-- A request, and the same 50 seconds later. -/
def retriedRun : List Arrival := [objectArrival 0, objectArrival 50]

theorem mem_retriedRun {a : Arrival} (ha : a ∈ retriedRun) : ∃ t, a = objectArrival t := by
  simp only [retriedRun, List.mem_cons, List.not_mem_nil, or_false] at ha
  rcases ha with rfl | rfl <;> exact ⟨_, rfl⟩

theorem retried_wellFormed : ∀ a ∈ retriedRun, ∃ vars, WellFormed plainEnv a.request vars := by
  intro a ha
  obtain ⟨t, rfl⟩ := mem_retriedRun ha
  exact ⟨objectVars, wellFormed_object⟩

theorem retried_times : retriedRun.Pairwise fun a b => a.now ≤ b.now := by decide

theorem duplicate_window_retry : Withheld (served plainEnv boostHash 90 [objectArrival 0] (objectArrival 50)) :=
  (duplicate_window retried_wellFormed retried_times rfl).2
    ⟨[], objectArrival 0, [], rfl, sameMessage_object 0 50, sent_objectArrival, by decide⟩

end DhsTranslator
