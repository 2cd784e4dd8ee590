import DhsTranslator.Service.Asks
import DhsTranslator.Service.Requests
import Mathlib.Algebra.Order.Group.Abs

/-!
# Concurrent `setKeywords` requests

Every request is a thread of its own over one message cache; the clock and the adapter may answer anything.

- `exec_live`, `exec_keeps`: in any execution a message enters the cache by `add` and leaves it by a purge that finds
  it expired;
- `thread_stage`: what a well-formed request has done, at any time of any run, is a stage of its transaction;
- `acknowledged_delivered`: a reply of success is backed by a successful adapter call for an equal request;
- `delivered_once`: the second of two equal requests is withheld once the first is recorded; `overlap_delivered_twice`
  and `purged_delivered_twice`: but not before, and not after a purge at a later time.
-/

namespace DhsTranslator

open Conc Aging DhsService

/-! ## The cache in an execution -/

section Executions

variable {ι : Type} {c c' : MessageCache} {tr : List (Event ι SvcSig)}

/-- What one command does to the cache. -/
theorem sem_cases {i : ι} {a : Act SvcSig} (h : svcSem i c a c') :
    (∃ t, a = ⟨.purgeOldMessages t, ()⟩ ∧ c' = c.purgeOldMessages t) ∨
    (∃ id t d, a = ⟨.add id t d, ()⟩ ∧ c' = c.add id t d) ∨
    c' = c := by
  obtain ⟨cmd, r⟩ := a
  cases cmd with
  | purgeOldMessages t => exact Or.inl ⟨t, rfl, h⟩
  | add id t d => exact Or.inr (Or.inl ⟨id, t, d, rfl, h⟩)
  | «exists» id d => exact Or.inr (Or.inr h.2)
  | _ => exact Or.inr (Or.inr h)

theorem exec_validAge (h : Exec svcSem c tr c') : c'.validAge = c.validAge := by
  induction tr generalizing c with
  | nil => rw [exec_nil.1 h]
  | cons e tr ih =>
    obtain ⟨m, hm, h'⟩ := exec_cons.1 h
    rw [ih h']
    rcases sem_cases hm with ⟨t, _, rfl⟩ | ⟨id, t, d, _, rfl⟩ | rfl <;> rfl

/-- A message in the cache was there before or was added. -/
theorem exec_live (h : Exec svcSem c tr c') {id : ImageId} {d : String} {s : Int} (hx : ((id, d), s) ∈ c'.live) :
    ((id, d), s) ∈ c.live ∨ ∃ i, ⟨i, ⟨.add id s d, ()⟩⟩ ∈ tr := by
  induction tr generalizing c with
  | nil => rw [exec_nil.1 h] at hx; exact Or.inl hx
  | cons e tr ih =>
    obtain ⟨i, a⟩ := e
    obtain ⟨m, hm, h'⟩ := exec_cons.1 h
    rcases ih h' with hlive | ⟨j, hj⟩
    · rcases sem_cases hm with ⟨t, _, rfl⟩ | ⟨id', t, d', ha, rfl⟩ | rfl
      · exact Or.inl (MessageCache.live_purge_subset t hlive)
      · rw [MessageCache.live_add] at hlive
        rcases hlive with heq | hlive
        · obtain ⟨⟨rfl, rfl⟩, rfl⟩ : (id = id' ∧ d = d') ∧ s = t := by simpa using heq
          obtain rfl : a = _ := ha
          exact Or.inr ⟨i, List.mem_cons_self⟩
        · exact Or.inl hlive
      · exact Or.inl hlive
    · exact Or.inr ⟨j, List.mem_cons_of_mem _ hj⟩

/-- A message stays as long as no purge finds it expired. -/
theorem exec_keeps (h : Exec svcSem c tr c') {k : ImageId × String} {s : Int} (hx : (k, s) ∈ c.live)
    (hp : ∀ i t, ⟨i, ⟨.purgeOldMessages t, ()⟩⟩ ∈ tr → ¬Expired c.validAge t s) : (k, s) ∈ c'.live := by
  induction tr generalizing c with
  | nil => rw [exec_nil.1 h]; exact hx
  | cons e tr ih =>
    obtain ⟨i, a⟩ := e
    obtain ⟨m, hm, h'⟩ := exec_cons.1 h
    have hrest : ∀ j t, ⟨j, ⟨.purgeOldMessages t, ()⟩⟩ ∈ tr → ¬Expired c.validAge t s :=
      fun j t hj => hp j t (List.mem_cons_of_mem _ hj)
    rcases sem_cases hm with ⟨t, ha, rfl⟩ | ⟨id, t, d, _, rfl⟩ | rfl
    · obtain rfl : a = _ := ha
      have hkeep := MessageCache.live_purge hx (hp i t List.mem_cons_self)
      exact ih h' hkeep hrest
    · refine ih h' ?_ hrest
      rw [MessageCache.live_add]
      exact Set.mem_insert_of_mem _ hx
    · exact ih h' hx hrest

/-- A check finds what was added before, if no purge in between found it expired. -/
theorem exec_found {pre mid post : List (Event ι SvcSig)} {i j : ι} {id : ImageId} {t : Int} {msg : String} {found : Bool}
    (h : Exec svcSem c (pre ++ ⟨i, ⟨.add id t msg, ()⟩⟩ :: (mid ++ ⟨j, ⟨.exists id msg, found⟩⟩ :: post)) c')
    (hp : ∀ k t', ⟨k, ⟨.purgeOldMessages t', ()⟩⟩ ∈ mid → ¬Expired c.validAge t' t) : found = true := by
  obtain ⟨c₁, h₁, h₂⟩ := exec_append.1 h
  obtain ⟨c₂, hadd, h₃⟩ := exec_cons.1 h₂
  obtain rfl : c₂ = c₁.add id t msg := hadd
  obtain ⟨c₃, hmid, h₄⟩ := exec_append.1 h₃
  obtain ⟨_, ⟨hfound, _⟩, _⟩ := exec_cons.1 h₄
  have hage : (c₁.add id t msg).validAge = c.validAge := by
    rw [MessageCache.validAge_add]; exact exec_validAge h₁
  have hlive : ((id, msg), t) ∈ (c₁.add id t msg).live := by
    rw [MessageCache.live_add]; exact Set.mem_insert _ _
  have hkept : ((id, msg), t) ∈ c₃.live := exec_keeps hmid hlive (by rw [hage]; exact hp)
  rw [hfound]
  exact MessageCache.exists_iff_live.2 ⟨t, hkept⟩

end Executions

/-! ## The service -/

/-- The cache and what is left of every request. -/
abbrev ServiceState (ι : Type) := Config ι MessageCache SvcSig Abort (Option AxiomNode)

/-- An empty cache and one thread for each request. -/
def start {ι : Type} (env : Env) (hasher : String → UInt32) (deltat : Int) (req : ι → AxiomNode) : ServiceState ι :=
  ⟨.new hasher deltat, fun i => serve env (req i)⟩

section Threads

variable {ι : Type} [DecidableEq ι] {env : Env} {hasher : String → UInt32} {w : Int} {req : ι → AxiomNode}
  {tr : List (Event ι SvcSig)} {b : ServiceState ι}

/-- **The stages of a thread.** -/
theorem thread_stage (h : Run svcSem (start env hasher w req) tr b) {i : ι} {vars : KeywordsRequest}
    (hi : WellFormed env (req i) vars) : ∃ s : Stage, actsOf i tr = s.acts vars (env.nodeToString (req i)) ∧
      b.prog i = s.rest vars (env.nodeToString (req i)) := by
  have hp : Path (serve env (req i)) (actsOf i tr) (b.prog i) := h.path i
  rw [serve_transaction hi] at hp
  exact path_transaction.1 hp

/-- **Runs are executions of stages**: any execution in which every thread has acted as far as some stage. -/
theorem run_of_stages {vars : ι → KeywordsRequest} {st : ι → Stage} {c : MessageCache}
    (hwf : ∀ i, WellFormed env (req i) (vars i)) (hx : Exec svcSem (.new hasher w) tr c)
    (hacts : ∀ i, actsOf i tr = (st i).acts (vars i) (env.nodeToString (req i))) :
    Run svcSem (start env hasher w req) tr ⟨c, fun i => (st i).rest (vars i) (env.nodeToString (req i))⟩ := by
  refine run_iff.2 ⟨hx, fun i => ?_⟩
  show Path (serve env (req i)) (actsOf i tr) _
  rw [serve_transaction (hwf i)]
  exact path_transaction.2 ⟨st i, hacts i, rfl⟩

/-- A request to set one keyword. -/
def objectRequest : AxiomNode := setKeywordsRequest "GS1" false [⟨"OBJECT", "STRING", "M31"⟩]

def objectVars : KeywordsRequest := ⟨[Keyword.of "OBJECT" "M31"], "GS1", false, true⟩

theorem wellFormed_object : WellFormed plainEnv objectRequest objectVars where
  op := rfl
  read := setKeywordsRequest_read "GS1" false rfl
  id := by decide
  parsed := rfl

/-- The keywords of a request with several of them, of several types. -/
def nightTexts : List KeywordText :=
  [⟨"FILTER", "STRING", "R"⟩, ⟨"EXPOSED", "INT16", "-30"⟩, ⟨"DARK", "BOOLEAN", "true"⟩]

def nightRequest : AxiomNode := setKeywordsRequest "GS2" true nightTexts

def nightVars : KeywordsRequest :=
  ⟨[Keyword.of "FILTER" "R", Keyword.of "EXPOSED" (-30 : Int16), Keyword.of "DARK" true], "GS2", true, true⟩

theorem wellFormed_night : WellFormed plainEnv nightRequest nightVars where
  op := rfl
  read := setKeywordsRequest_read "GS2" true rfl
  id := by decide
  parsed := rfl

/-- The steps of a thread with the first request as far as a stage. -/
def stepsOf (i : ι) (s : Stage) : List (Event ι SvcSig) :=
  (s.acts objectVars (plainEnv.nodeToString objectRequest)).map (Event.mk i)

theorem object_run {c : MessageCache} (st : ι → Stage) (hx : Exec svcSem (.new boostHash w) tr c)
    (hacts : ∀ i, actsOf i tr = (st i).acts objectVars (plainEnv.nodeToString objectRequest)) :
    Run svcSem (start plainEnv boostHash w fun _ => objectRequest) tr
      ⟨c, fun i => (st i).rest objectVars (plainEnv.nodeToString objectRequest)⟩ :=
  run_of_stages (fun _ => wellFormed_object) hx hacts

/-- What a thread issues, its request asks for. -/
theorem asked (h : Run svcSem (start env hasher w req) tr b) {i : ι} {a : Act SvcSig} (ha : ⟨i, a⟩ ∈ tr) :
    Asks env (req i) a.cmd := by
  obtain ⟨pre, post, htr⟩ := List.append_of_mem (mem_actsOf.2 ha)
  have hpath := h.path i
  rw [htr] at hpath
  exact (serve_asks env (req i)).may hpath

/-- A request that adds to the cache adds its own message, at its own time, after its own successful call. -/
theorem add_after_call (h : Run svcSem (start env hasher w req) tr b) {i : ι} {vars : KeywordsRequest}
    (hi : WellFormed env (req i) vars) {id : ImageId} {t : Int} {d : String} (ha : ⟨i, ⟨.add id t d, ()⟩⟩ ∈ tr) :
    id = vars.id ∧ d = env.nodeToString (req i) ∧ ⟨i, ⟨.time, t⟩⟩ ∈ tr ∧
      ⟨i, ⟨.setImageKeywords vars.id vars.keywords vars.final, .ok .S_SUCCESS⟩⟩ ∈ tr := by
  obtain ⟨s, hacts, _⟩ := thread_stage h hi
  simp only [← mem_actsOf, hacts] at ha ⊢
  cases s <;> simp [Stage.acts] at ha ⊢
  · exact ⟨ha.1, ha.2.2, ha.2.1⟩

/-- The adapter took the keywords of a request with this id and body. -/
def Delivered (env : Env) (req : ι → AxiomNode) (tr : List (Event ι SvcSig)) (id : ImageId) (msg : String) : Prop :=
  ∃ j vars, WellFormed env (req j) vars ∧ vars.id = id ∧ env.nodeToString (req j) = msg ∧
    ⟨j, ⟨.setImageKeywords vars.id vars.keywords vars.final, .ok .S_SUCCESS⟩⟩ ∈ tr

/-- Every message in the cache was delivered, whatever the other requests are. -/
theorem live_delivered (h : Run svcSem (start env hasher w req) tr b) {id : ImageId} {msg : String} {s : Int}
    (hx : ((id, msg), s) ∈ b.shared.live) : Delivered env req tr id msg := by
  rcases exec_live h.exec hx with hnew | ⟨j, hj⟩
  · rw [start, MessageCache.live_new] at hnew
    exact absurd hnew (Set.notMem_empty _)
  · obtain ⟨vars, hwf⟩ := asked h hj
    obtain ⟨hid, hmsg, _, hcall⟩ := add_after_call h hwf hj
    exact ⟨j, vars, hwf, hid.symm, hmsg.symm, hcall⟩

/-- What a duplicate check finds was delivered before. -/
theorem found_delivered (h : Run svcSem (start env hasher w req) tr b) {i : ι} {id : ImageId} {msg : String}
    (hf : ⟨i, ⟨.exists id msg, true⟩⟩ ∈ tr) : Delivered env req tr id msg := by
  obtain ⟨pre, post, rfl⟩ := List.append_of_mem hf
  obtain ⟨m, hpre, hpost⟩ := h.split
  obtain ⟨m', ⟨hex, _⟩, _⟩ := exec_cons.1 hpost.exec
  obtain ⟨s, hs⟩ := MessageCache.exists_iff_live.1 hex.symm
  obtain ⟨j, vars, hwf, hid, hmsg, hcall⟩ := live_delivered hpre hs
  exact ⟨j, vars, hwf, hid, hmsg, List.mem_append_left _ hcall⟩

/-- A request for keywords that is answered with success was delivered, by itself or before. -/
theorem success_delivered (h : Run svcSem (start env hasher w req) tr b) {i : ι} {reply : AxiomNode}
    (hop : (req i).IsNamed "setKeywords") (hdone : b.prog i = .ret (some reply)) (hok : IsSuccess reply) :
    ∃ vars, WellFormed env (req i) vars ∧ Delivered env req tr vars.id (env.nodeToString (req i)) := by
  rcases request_cases env hop with ⟨vars, hi⟩ | ⟨res, hserve, hbad⟩
  · obtain ⟨s, hacts, hrest⟩ := thread_stage h hi
    refine ⟨vars, hi, ?_⟩
    rcases Stage.rest_success (hrest.symm.trans hdone) hok with ⟨t, rfl⟩ | ⟨t, rfl⟩
    · have hf : ⟨i, ⟨.exists vars.id (env.nodeToString (req i)), true⟩⟩ ∈ tr := by
        rw [← mem_actsOf, hacts]; simp [Stage.acts]
      exact found_delivered h hf
    · have hcall : ⟨i, ⟨.setImageKeywords vars.id vars.keywords vars.final, .ok .S_SUCCESS⟩⟩ ∈ tr := by
        rw [← mem_actsOf, hacts]; simp [Stage.acts]
      exact ⟨i, vars, hi, rfl, rfl, hcall⟩
  · have hp : Path (serve env (req i)) (actsOf i tr) (b.prog i) := h.path i
    rw [hserve, hdone] at hp
    have hres : res = .ok (some reply) := by
      cases res with
      | ok r => exact congrArg Except.ok (Prog.ret.inj (path_ret.1 hp).2).symm
      | error e => cases (path_raise.1 hp).2
    exact absurd hok (hbad reply hres).not_isSuccess

/-- **No acknowledged update is lost**, whatever the clock and the adapter answer. -/
theorem acknowledged_delivered (hreq : ∀ i, (req i).IsNamed "setKeywords")
    (h : Run svcSem (start env hasher w req) tr b) {i : ι} {reply : AxiomNode}
    (hdone : b.prog i = .ret (some reply)) (hok : IsSuccess reply) :
    ∃ vars, WellFormed env (req i) vars ∧ Delivered env req tr vars.id (env.nodeToString (req i)) :=
  success_delivered h (hreq i) hdone hok

/-- A request is sent, and sent again 50 seconds later. -/
def retryTrace : List (Event Bool SvcSig) := stepsOf false (.recorded 0) ++ stepsOf true (.found 50)

theorem retry_run : ∃ b, Run svcSem (start plainEnv boostHash 90 fun _ => objectRequest) retryTrace b ∧
    b.prog true = .ret (some (buildSuccessResponse none)) := by
  have hfound : ((((MessageCache.new boostHash (90 : Int)).purgeOldMessages 0).add objectVars.id 0
      (plainEnv.nodeToString objectRequest)).purgeOldMessages 50).exists objectVars.id
        (plainEnv.nodeToString objectRequest) = true := by
    refine MessageCache.exists_iff_live.2 ⟨0, MessageCache.live_purge ?_ (by decide)⟩
    rw [MessageCache.live_add]
    exact Set.mem_insert _ _
  have hx : ∃ c, Exec svcSem (.new boostHash 90) retryTrace c :=
    ⟨_, _, rfl, _, rfl, _, ⟨rfl, rfl⟩, _, rfl, _, rfl, _, rfl, _, rfl, _, ⟨hfound.symm, rfl⟩, rfl⟩
  obtain ⟨c, hx⟩ := hx
  refine ⟨_, object_run (fun i => bif i then .found 50 else .recorded 0) hx ?_, rfl⟩
  intro i
  cases i <;> rfl

theorem acknowledged_delivered_retry : ∃ vars, WellFormed plainEnv objectRequest vars ∧
    Delivered plainEnv (fun _ : Bool => objectRequest) retryTrace vars.id (plainEnv.nodeToString objectRequest) := by
  obtain ⟨b, hrun, hdone⟩ := retry_run
  exact acknowledged_delivered (fun _ => wellFormed_object.op) hrun hdone (isSuccess_success none)

/-! ## At most one delivery -/

/-- The request of thread `i` reached the adapter. -/
def Reaches (tr : List (Event ι SvcSig)) (i : ι) : Prop :=
  ∃ id keywords final out, ⟨i, ⟨.setImageKeywords id keywords final, out⟩⟩ ∈ tr

/-- The clock never goes back. -/
def ClockMonotone (tr : List (Event ι SvcSig)) : Prop := (tr.filterMap fun e => clockRead e.act).Pairwise (· ≤ ·)

/-- No adapter call fails. -/
def AdapterSucceeds (tr : List (Event ι SvcSig)) : Prop :=
  ∀ e ∈ tr, adapterOutcome e.act = none ∨ adapterOutcome e.act = some (.ok .S_SUCCESS)

instance (tr : List (Event ι SvcSig)) : Decidable (ClockMonotone tr) := inferInstanceAs (Decidable (List.Pairwise _ _))

instance (tr : List (Event ι SvcSig)) : Decidable (AdapterSucceeds tr) :=
  inferInstanceAs (Decidable (∀ e ∈ tr, _ ∨ _))

/-- No two requests with the same id, the same body and times at most `w` apart reach the adapter both. -/
def DeliveredOnce (env : Env) (w : Int) (req : ι → AxiomNode) (tr : List (Event ι SvcSig)) : Prop :=
  ∀ i j vi vj ti tj, i ≠ j → WellFormed env (req i) vi → WellFormed env (req j) vj → vi.id = vj.id →
    env.nodeToString (req i) = env.nodeToString (req j) → ⟨i, ⟨.time, ti⟩⟩ ∈ tr → ⟨j, ⟨.time, tj⟩⟩ ∈ tr →
    |ti - tj| ≤ w → ¬(Reaches tr i ∧ Reaches tr j)

/-- The check of `j` comes after the record of `i`, and no other request purges in between at a time at which the
record is expired. -/
def RecordedBefore (w : Int) (tr : List (Event ι SvcSig)) (i j : ι) : Prop :=
  ∃ pre mid post id ti msg id' msg' found,
    tr = pre ++ ⟨i, ⟨.add id ti msg, ()⟩⟩ :: (mid ++ ⟨j, ⟨.exists id' msg', found⟩⟩ :: post) ∧
    ∀ k t, k ≠ j → ⟨k, ⟨.purgeOldMessages t, ()⟩⟩ ∈ mid → t - ti ≤ w

/-- A request that finds a duplicate does not reach the adapter. -/
theorem not_reaches_of_found (h : Run svcSem (start env hasher w req) tr b) {i : ι} {vars : KeywordsRequest}
    (hi : WellFormed env (req i) vars) {id : ImageId} {msg : String} (hf : ⟨i, ⟨.exists id msg, true⟩⟩ ∈ tr) :
    ¬Reaches tr i := by
  obtain ⟨s, hacts, _⟩ := thread_stage h hi
  rintro ⟨id', kws, final, out, hr⟩
  rw [← mem_actsOf, hacts] at hf hr
  cases s <;> simp [Stage.acts] at hf hr

/-- What a request does to the cache is about its own message, at the time it read. -/
theorem own_commands (h : Run svcSem (start env hasher w req) tr b) {i : ι} {vars : KeywordsRequest}
    (hi : WellFormed env (req i) vars) {t : Int} (ht : ⟨i, ⟨.time, t⟩⟩ ∈ tr) :
    (∀ t', ⟨i, ⟨.purgeOldMessages t', ()⟩⟩ ∈ tr → t' = t) ∧
    (∀ id msg found, ⟨i, ⟨.exists id msg, found⟩⟩ ∈ tr → id = vars.id ∧ msg = env.nodeToString (req i)) ∧
    ∀ id t' msg, ⟨i, ⟨.add id t' msg, ()⟩⟩ ∈ tr → id = vars.id ∧ t' = t ∧ msg = env.nodeToString (req i) := by
  obtain ⟨s, hacts, _⟩ := thread_stage h hi
  simp only [← mem_actsOf, hacts] at ht ⊢
  cases s <;> simp [Stage.acts] at ht ⊢ <;> simp_all

/-- **The second of two equal requests is withheld** once the first is recorded. -/
theorem delivered_once (h : Run svcSem (start env hasher w req) tr b) {i j : ι} {vi vj : KeywordsRequest}
    (hi : WellFormed env (req i) vi) (hj : WellFormed env (req j) vj) (hid : vi.id = vj.id)
    (hmsg : env.nodeToString (req i) = env.nodeToString (req j)) {ti tj : Int} (hti : ⟨i, ⟨.time, ti⟩⟩ ∈ tr)
    (htj : ⟨j, ⟨.time, tj⟩⟩ ∈ tr) (hage : |ti - tj| ≤ w) (hrec : RecordedBefore w tr i j) :
    ¬(Reaches tr i ∧ Reaches tr j) := by
  rintro ⟨_, hreach⟩
  obtain ⟨pre, mid, post, id, t, msg, id', msg', found, htr, hpurge⟩ := hrec
  have hadd : ⟨i, ⟨.add id t msg, ()⟩⟩ ∈ tr := by rw [htr]; simp
  have hcheck : ⟨j, ⟨.exists id' msg', found⟩⟩ ∈ tr := by rw [htr]; simp
  -- both commands are about the same key, and the record carries the time of `i`
  obtain ⟨_, _, hai⟩ := own_commands h hi hti
  obtain ⟨hpj, hcj, _⟩ := own_commands h hj htj
  obtain ⟨rfl, rfl, rfl⟩ := hai _ _ _ hadd
  obtain ⟨rfl, rfl⟩ := hcj _ _ _ hcheck
  -- so no purge in between takes the record away, neither of another request nor of `j`
  have hkept : ∀ k t', ⟨k, ⟨.purgeOldMessages t', ()⟩⟩ ∈ mid → ¬Expired w t' t := by
    intro k t' hk
    refine not_lt.2 ?_
    by_cases hkj : k = j
    · subst hkj
      have htr' : ⟨k, ⟨.purgeOldMessages t', ()⟩⟩ ∈ tr := by rw [htr]; simp [hk]
      rw [hpj t' htr', ← neg_sub]
      exact (abs_le'.1 hage).2
    · exact hpurge k t' hkj hk
  have hx := h.exec
  rw [htr, ← hid, ← hmsg] at hx
  obtain rfl : found = true := exec_found hx hkept
  exact not_reaches_of_found h hj hcheck hreach

theorem delivered_once_retry : ¬(Reaches retryTrace false ∧ Reaches retryTrace true) := by
  obtain ⟨b, hrun, _⟩ := retry_run
  have hrec : RecordedBefore 90 retryTrace false true := by
    refine ⟨(stepsOf false (.recorded 0)).take 4, (stepsOf true (.found 50)).take 2, [], _, _, _, _, _, _, rfl, ?_⟩
    intro k t hk ht
    cases k with
    | false => simp [stepsOf, Stage.acts] at ht
    | true => exact absurd rfl hk
  have hti : ⟨false, ⟨.time, (0 : Int)⟩⟩ ∈ retryTrace := by simp [retryTrace, stepsOf, Stage.acts]
  have htj : ⟨true, ⟨.time, (50 : Int)⟩⟩ ∈ retryTrace := by simp [retryTrace, stepsOf, Stage.acts]
  exact delivered_once hrun wellFormed_object wellFormed_object rfl rfl hti htj (by decide) hrec

/-- Two requests that overlap: the second checks before the first is recorded. -/
def overlapTrace : List (Event Bool SvcSig) :=
  stepsOf false (.missed 0) ++ stepsOf true (.recorded 0) ++ (stepsOf false (.recorded 0)).drop 3

/-- **Overlapping requests are delivered twice.** -/
theorem overlap_delivered_twice : ¬∀ tr b, Run svcSem (start plainEnv boostHash 90 fun _ : Bool => objectRequest) tr b →
    ClockMonotone tr → AdapterSucceeds tr → DeliveredOnce plainEnv 90 (fun _ => objectRequest) tr := by
  intro hall
  have hx : ∃ c, Exec svcSem (.new boostHash 90) overlapTrace c :=
    ⟨_, _, rfl, _, rfl, _, ⟨rfl, rfl⟩, _, rfl, _, rfl, _, ⟨rfl, rfl⟩, _, rfl, _, rfl, _, rfl, _, rfl, rfl⟩
  obtain ⟨c, hx⟩ := hx
  have hrun := object_run (fun _ => .recorded 0) hx (by intro i; cases i <;> rfl)
  have hreach : ∀ i, Reaches overlapTrace i := by
    intro i
    refine ⟨objectVars.id, objectVars.keywords, objectVars.final, .ok .S_SUCCESS, ?_⟩
    cases i <;> simp [overlapTrace, stepsOf, Stage.acts]
  have htime : ∀ i, ⟨i, ⟨.time, 0⟩⟩ ∈ overlapTrace := by
    intro i
    cases i <;> simp [overlapTrace, stepsOf, Stage.acts]
  exact hall overlapTrace _ hrun (by decide) (by decide) false true _ _ 0 0 (by decide) wellFormed_object
    wellFormed_object rfl rfl (htime false) (htime true) (by decide) ⟨hreach false, hreach true⟩

/-- Three requests. -/
inductive Three where
  | first
  | second
  | third
  deriving DecidableEq

/-- A third request purges the record of the first between the purge and the check of the second. -/
def purgedTrace : List (Event Three SvcSig) :=
  stepsOf .first (.recorded 0) ++ stepsOf .second (.purged 50) ++ stepsOf .third (.purged 100) ++
    (stepsOf .second (.recorded 50)).drop 2

/-- That a request is recorded before the check of the other is not enough: here a purge 100 seconds later comes in
between. -/
theorem purged_delivered_twice : ∃ b, Run svcSem (start plainEnv boostHash 90 fun _ => objectRequest) purgedTrace b ∧
    ClockMonotone purgedTrace ∧ AdapterSucceeds purgedTrace ∧ RecordedBefore 100 purgedTrace .first .second ∧
    ¬DeliveredOnce plainEnv 90 (fun _ => objectRequest) purgedTrace := by
  have hx : ∃ c, Exec svcSem (.new boostHash 90) purgedTrace c :=
    ⟨_, _, rfl, _, rfl, _, ⟨rfl, rfl⟩, _, rfl, _, rfl, _, rfl, _, rfl, _, rfl, _, rfl, _, ⟨rfl, rfl⟩, _, rfl, _, rfl, rfl⟩
  obtain ⟨c, hx⟩ := hx
  have hrun := object_run (fun | .first => .recorded 0 | .second => .recorded 50 | .third => .purged 100) hx
    (by intro i; cases i <;> rfl)
  refine ⟨_, hrun, by decide, by decide, ?_, fun hone => ?_⟩
  · refine ⟨(stepsOf .first (.recorded 0)).take 4, (stepsOf .second (.purged 50)) ++ stepsOf .third (.purged 100),
      (stepsOf .second (.recorded 50)).drop 3, _, _, _, _, _, _, rfl, ?_⟩
    intro k t _ ht
    simp [stepsOf, Stage.acts] at ht
    omega
  · refine hone .first .second _ _ 0 50 (by decide) wellFormed_object wellFormed_object rfl rfl ?_ ?_ (by decide) ⟨?_, ?_⟩
    · simp [purgedTrace, stepsOf, Stage.acts]
    · simp [purgedTrace, stepsOf, Stage.acts]
    · exact ⟨objectVars.id, objectVars.keywords, objectVars.final, .ok .S_SUCCESS, by
        simp [purgedTrace, stepsOf, Stage.acts]⟩
    · exact ⟨objectVars.id, objectVars.keywords, objectVars.final, .ok .S_SUCCESS, by
        simp [purgedTrace, stepsOf, Stage.acts]⟩

end Threads

end DhsTranslator
