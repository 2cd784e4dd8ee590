import DhsTranslator.Service.EndToEnd

/-!
# The two locks of the translator

The cache has a lock and the adapter has one, and a request takes one after the other.

- `library_used`: the library is used safely by the whole translator;
- `locks_apart`: no thread ever has both locks, or waits for one of them with the other;
- `live_together`: every thread can go on, unless it waits for the cache, and then the one that has the cache can;
- `between_requests`: what is left when all requests are done.
-/

namespace DhsTranslator

open Conc DhsAdapter DhsService

section Locks

variable {ι : Type} [DecidableEq ι] {env : Env} {hasher : String → UInt32} {age : Int} {rounds : Nat}
  {cfg : AdapterConfig} {req : ι → AxiomNode} {past : List (Event ι AdapterSig)} {s : AdapterState ι}
  {tr : List (Event ι SystemSig)} {b : Config ι (SystemState ι) SystemSig Abort (Option AxiomNode)} {i j : ι}

/-! ## The adapter among requests -/

/-- The phases of the calls of the adapter. -/
abbrev callPhases (tr : List (Event ι SystemSig)) : ι → Phase :=
  phases connectOnce (fun _ => .free false) (adapterEvents tr)

/-- The next step is one that is done without the lock of the adapter. -/
def WithoutLock : Prog SystemSig Abort (Option AxiomNode) → Prop
  | .ret _ | .raise _ => True
  | .call (.inl _) _ => True
  | .call (.inr (.inl _)) _ => True
  | .call (.inr (.inr c)) _ => c = .timedLock

theorem system_connectOnce (h : Run systemSem (systemStart env hasher age rounds cfg s req) tr b) :
    Permitted connectOnce (fun _ => .free false) (adapterEvents tr) ∧
      ∀ i, WithoutLock (b.prog i) → ∃ up, callPhases tr i = .free up := by
  let L : Library ι := ⟨fun _ => .S_SUCCESS, fun _ => none, fun _ => none, [], []⟩
  obtain ⟨hpermitted, hfollows⟩ := system_permitted h L
  refine ⟨hpermitted.rights.rights.first, fun i hi => ?_⟩
  have hphase : (phases (systemDiscipline (JobsOf env req)) (atFirst L) tr i).1 = callPhases tr i := by
    rw [phases_beside, phases_beside, phases_both]
    rfl
  have hnext := hfollows i
  rw [← hphase]
  cases hprog : b.prog i with
  | ret res =>
    rw [hprog] at hnext
    exact hnext.1
  | raise e =>
    rw [hprog] at hnext
    exact hnext.1
  | call c k =>
    rw [hprog] at hnext hi
    rcases c with d | c | c
    · exact hnext.1.1
    · exact hnext.1.1
    · obtain rfl : c = .timedLock := hi
      exact hnext.1.1

theorem system_safe (hnew : Constructed cfg past s)
    (h : Run systemSem (systemStart env hasher age rounds cfg s req) tr b) :
    Safe (past ++ adapterEvents tr) b.shared.2.2 (callPhases tr) :=
  (system_connectOnce h).1.keeps keeps_safe (constructed_safe hnew) (system_exec h)

/-- The library call that a command begins or ends. -/
def AdapterCmd.call? : AdapterCmd → Option LibCall
  | .enter f _ | .leave f => some f
  | _ => none

/-- **A connection that is passed to the library** comes from a successful `dhsConnect`. -/
theorem system_connection (hnew : Constructed cfg past s)
    (h : Run systemSem (systemStart env hasher age rounds cfg s req) tr b) {pre post : List (Event ι AdapterSig)}
    {e : Event ι AdapterSig} {f : LibCall} {c : DhsConnect} (htr : adapterEvents tr = pre ++ e :: post)
    (hf : e.act.cmd.call? = some f) (hc : f.connection? = some c) : c ∈ connects (past ++ pre) := by
  obtain ⟨hpermitted, _⟩ := system_connectOnce h
  have hmay := hpermitted pre e post htr
  -- the connection was read with the lock, since there was one
  have hread : (phases connectOnce (fun _ => .free false) pre e.tid).link = .read c := by
    obtain ⟨j, ⟨cmd, r⟩⟩ := e
    cases cmd with
    | enter g status =>
      obtain rfl : g = f := Option.some.inj hf
      obtain ⟨l, hl, hallows⟩ := hmay
      rw [hl]
      exact hallows.read hc
    | leave g =>
      obtain rfl : g = f := Option.some.inj hf
      obtain ⟨l, hl, hallows⟩ := hmay
      rw [hl]
      exact hallows.read hc
    | _ => cases hf
  have hx := system_exec h
  rw [htr] at hpermitted hx
  obtain ⟨m, hpre, _⟩ := exec_append.1 hx
  have hbefore := hpermitted.append.keeps keeps_safe (constructed_safe hnew) hpre
  have hlink := hbefore.link e.tid
  rw [hread] at hlink
  rw [(hbefore.up hlink.1).1, hlink.2]
  exact List.mem_singleton.2 rfl

/-- The library is used safely by all requests. -/
structure LibraryUsed (past T : List (Event ι AdapterSig)) (s : AdapterState ι) : Prop where
  /-- a call inside of the library holds the lock -/
  locked : ∀ i, s.inside i ≠ none → s.owner = some i
  exclusive : ∀ i j, s.inside i ≠ none → s.inside j ≠ none → i = j
  /-- a connection that is passed to the library comes from a successful `dhsConnect` -/
  connection : ∀ pre i f status post c, T = pre ++ ⟨i, ⟨.enter f status, ()⟩⟩ :: post → f.connection? = some c →
    c ∈ connects (past ++ pre)
  once : (connects (past ++ T)).length ≤ 1

/-- **The library is used safely** by all requests together, next to the cache. -/
theorem library_used (hnew : Constructed cfg past s)
    (h : Run systemSem (systemStart env hasher age rounds cfg s req) tr b) :
    LibraryUsed past (adapterEvents tr) b.shared.2.2 := by
  have hsafe := system_safe hnew h
  refine ⟨fun i => hsafe.locked, fun i j hi hj => ?_, ?_, ?_⟩
  · exact Option.some.inj ((hsafe.locked hi).symm.trans (hsafe.locked hj))
  · intro pre i f status post c htr hc
    exact system_connection hnew h htr rfl hc
  · rcases hsafe.connection with hnone | ⟨c, hone, _⟩
    · rw [hnone]
      exact Nat.zero_le 1
    · rw [hone]
      exact Nat.le_refl 1

/-! ## Both locks -/

/-- Who has the lock of the adapter is going to do a step that needs it. -/
theorem adapter_holder (hnew : Constructed cfg past s)
    (h : Run systemSem (systemStart env hasher age rounds cfg s req) tr b) (hi : WithoutLock (b.prog i)) :
    b.shared.2.2.owner ≠ some i := by
  intro howner
  have hholds := ((system_safe hnew h).lock i).2 howner
  obtain ⟨up, hup⟩ := (system_connectOnce h).2 i hi
  rw [hup] at hholds
  cases hholds

/-- Who has the lock of the cache is going to do a step on the cache. -/
theorem cache_holder (h : Run systemSem (systemStart env hasher age rounds cfg s req) tr b)
    (howner : b.shared.1.owner = some i) : ∃ d k, b.prog i = .call (.inl d) k :=
  beside_holder (.free outImpl_call) () trivial h howner

/-- The two locks do not get into each other's way. -/
structure LocksApart (b : Config ι (SystemState ι) SystemSig Abort (Option AxiomNode)) : Prop where
  both : ∀ i, ¬(b.shared.1.owner = some i ∧ b.shared.2.2.owner = some i)
  /-- who waits for the cache does not have the adapter -/
  cache : ∀ i k, b.prog i = .call (.inl .lock) k → b.shared.1.owner ≠ some i ∧ b.shared.2.2.owner ≠ some i
  /-- who waits for the adapter does not have the cache -/
  adapter : ∀ i k, b.prog i = .call (.inr (.inr .timedLock)) k → b.shared.1.owner ≠ some i ∧ b.shared.2.2.owner ≠ some i
  /-- a request that is done has neither -/
  done : ∀ i res, b.prog i = .lift res → b.shared.1.owner ≠ some i ∧ b.shared.2.2.owner ≠ some i

/-- **The locks are apart.** -/
theorem locks_apart (hnew : Constructed cfg past s)
    (h : Run systemSem (systemStart env hasher age rounds cfg s req) tr b) : LocksApart b where
  both i := by
    rintro ⟨hcache, hadapter⟩
    obtain ⟨d, k, hi⟩ := cache_holder h hcache
    exact adapter_holder hnew h (by rw [hi]; trivial) hadapter
  cache i k hi := by
    refine ⟨fun hcache => ?_, adapter_holder hnew h (by rw [hi]; trivial)⟩
    exact (beside_used (.free outImpl_call) () trivial h).lock hi hcache
  adapter i k hi := by
    refine ⟨fun hcache => ?_, adapter_holder hnew h (by rw [hi]; rfl)⟩
    obtain ⟨d, k', hi'⟩ := cache_holder h hcache
    cases hi.symm.trans hi'
  done i res hi := by
    refine ⟨fun hcache => ?_, adapter_holder hnew h (by rw [hi]; cases res <;> trivial)⟩
    obtain ⟨d, k, hi'⟩ := cache_holder h hcache
    cases res <;> cases hi.symm.trans hi'

/-! ## Liveness -/

omit [DecidableEq ι] in
/-- Steps of the clock can be made at any time. -/
theorem host_total (i : ι) {c : HostCmd} (hc : c ≠ .crash) : ∃ r s', hostSem i () ⟨c, r⟩ s' := by
  cases c with
  | time => exact ⟨(0 : Int), (), trivial⟩
  | crash => exact absurd rfl hc

/-- So can those of the adapter: its lock is given up after a while, and library calls return. -/
theorem adapter_total (i : ι) (s : AdapterState ι) (c : AdapterCmd) : ∃ r s', adapterSem i s ⟨c, r⟩ s' := by
  cases c with
  | timedLock => exact ⟨false, s, rfl⟩
  | getIsConnected => exact ⟨s.isConnected, s, rfl, rfl⟩
  | getConnection => exact ⟨s.connection, s, rfl, rfl⟩
  | leave f => exact ⟨plainAnswers f, _, rfl⟩
  | _ => exact ⟨(), _, rfl⟩

/-- **No deadlock**: every request can go on, unless it waits for the cache, and then the one that has the cache can. -/
theorem live_together (h : Run systemSem (systemStart env hasher age rounds cfg s req) tr b) (hrounds : tr.length < rounds)
    (hmem : ∃ m, b.shared.1.heap m = none) {c : SystemSig.Cmd} {k} (hi : b.prog i = .call c k)
    (hcrash : c ≠ .inr (.inl .crash)) :
    (∃ r s', systemSem i b.shared ⟨c, r⟩ s') ∨ (c = .inl .lock ∧ ∃ j, j ≠ i ∧ b.shared.1.owner = some j ∧
      ∃ d k' r s', b.prog j = .call (.inl d) k' ∧ systemSem j b.shared ⟨.inl d, r⟩ s') := by
  have hgoes : ∀ {j : ι} {d : LockCmd CacheAccess} {k'}, b.prog j = .call (.inl d) k' →
      (d = .lock → b.shared.1.owner = none ∨ b.shared.1.owner = some j) →
      ∃ r s', systemSem j b.shared ⟨.inl d, r⟩ s' :=
    fun hj howner => beside_goes (.free outImpl_call) () trivial h hrounds hmem hj howner
  rcases c with d | c | c
  · by_cases howner : d = .lock → b.shared.1.owner = none ∨ b.shared.1.owner = some i
    · exact Or.inl (hgoes hi howner)
    · push Not at howner
      obtain ⟨rfl, hsome, hother⟩ := howner
      obtain ⟨j, hj⟩ := Option.ne_none_iff_exists'.1 hsome
      obtain ⟨d, k', hprog⟩ := cache_holder h hj
      obtain ⟨r, s', hstep⟩ := hgoes hprog fun _ => Or.inr hj
      refine Or.inr ⟨rfl, j, ?_, hj, d, k', r, s', hprog, hstep⟩
      rintro rfl
      exact hother hj
  · obtain ⟨r, s', hstep⟩ := host_total i fun hc => hcrash (congrArg (fun c => Sum.inr (Sum.inl c)) hc)
    exact Or.inl ⟨r, (b.shared.1, (s', b.shared.2.2)), rfl, hstep, rfl⟩
  · obtain ⟨r, s', hstep⟩ := adapter_total i b.shared.2.2 c
    exact Or.inl ⟨r, (b.shared.1, ((), s')), rfl, rfl, hstep⟩

/-! ## Between requests -/

/-- The translator when all requests are done. -/
structure Idle (env : Env) (req : ι → AxiomNode) (L L' : Library ι)
    (b : Config ι (SystemState ι) SystemSig Abort (Option AxiomNode)) : Prop where
  cache : b.shared.1.owner = none
  adapter : b.shared.2.2.owner = none
  /-- the library has its lists and its commands back -/
  returned : L'.lists = L.lists ∧ L'.tags = L.tags
  /-- on the heap are the messages of the cache, and nothing is remembered that is not stored -/
  remembered : ∃ v, Stands [] v b.shared.1.guarded b.shared.1.heap ∧
    ∀ id l, (id, l) ∈ v → ∀ m y, (m, y) ∈ l → StoredFor env req L' id y.data

/-- **Between requests** both locks are free, nothing that was allocated or got from the library is left but the messages
of the cache, and each of these is of a request whose keywords are stored. -/
theorem between_requests (hnew : Constructed cfg past s)
    (h : Run systemSem (systemStart env hasher age rounds cfg s req) tr b) {L L' : Library ι}
    (hlib : Exec librarySem L (adapterEvents tr) L') (hend : ∀ i, ∃ res, b.prog i = .lift res) :
    Idle env req L L' b := by
  obtain ⟨J, m, K, b', hreveals⟩ := system_reveals h
  obtain ⟨hcache, _, _, v, hstands, hmsgs⟩ := hreveals.rest hend
  have hadapter : b.shared.2.2.owner = none := by
    refine Option.eq_none_iff_forall_ne_some.2 fun i howner => ?_
    obtain ⟨res, hi⟩ := hend i
    exact adapter_holder hnew h (by rw [hi]; cases res <;> trivial) howner
  obtain ⟨_, hsafe, hdrafts⟩ := system_drafts hnew h hlib
  refine ⟨hcache, hadapter, hdrafts.returned hsafe hadapter, v, hstands, fun id l hl m y hy => ?_⟩
  -- a message of the view is one of the atomic cache
  have hmem : (id, l.map Prod.snd) ∈ b'.shared.cache := hmsgs ▸ List.mem_map.2 ⟨(id, l), hl, rfl⟩
  have hlive : ((id, y.data), y.timestamp) ∈ b'.shared.live :=
    MessageCache.mem_live hmem (List.mem_map.2 ⟨(m, y), hy, rfl⟩)
  exact hreveals.stored hnew h hlib (live_delivered hreveals.run hlive)

end Locks

/-! ## Requests that wait -/

theorem library_used_both :
    LibraryUsed (plainNew.acts.map (Event.mk false)) (adapterEvents bothSteps) bothServed.shared.2.2 :=
  library_used plain_constructed both_run

/-- The first request has the cache, and the second begins. -/
def bothWait : List (Event Bool SystemSig) :=
  [⟨true, ⟨.inr (.inl .time), (0 : Int)⟩⟩, ⟨true, ⟨.inl .lock, ()⟩⟩, ⟨false, ⟨.inr (.inl .time), (0 : Int)⟩⟩]

theorem both_wait : ∃ b k, Run systemSem bothStart bothWait b ∧ b.prog false = .call (.inl .lock) k ∧
    b.shared.1.heap = .none := by
  -- the programs are what is left of the requests after their first steps
  have hfirst : ∀ i, ∃ k, Path (bothStart.prog i) [⟨.inr (.inl .time), (0 : Int)⟩] (.call (.inl .lock) k) := by
    intro i
    have hpath := path_both i
    rw [actsOf_both] at hpath
    obtain ⟨p, htime, hrest⟩ := path_append.1 hpath
    cases hrest with
    | cons _ _ => exact ⟨_, htime⟩
  obtain ⟨k, htrue⟩ := hfirst true
  obtain ⟨k', hfalse⟩ := hfirst false
  let left : Bool → Prog SystemSig Abort (Option AxiomNode) := fun i => if i then k () else .call (.inl .lock) k'
  let locked : SystemState Bool := (⟨some true, [], .none⟩, ((), plainNew.state))
  refine ⟨⟨locked, left⟩, k', run_iff.2 ⟨?_, ?_⟩, rfl, rfl⟩
  · exact ⟨bothStart.shared, ⟨rfl, trivial, rfl⟩, locked, ⟨⟨rfl, rfl⟩, rfl⟩, locked, ⟨rfl, trivial, rfl⟩, rfl⟩
  · intro i
    cases i with
    | false => exact hfalse
    | true => exact htrue.trans (.cons _ (.nil _))

theorem locks_apart_both : ∃ b, Run systemSem bothStart bothWait b ∧ LocksApart b := by
  obtain ⟨b, k, hrun, _, _⟩ := both_wait
  exact ⟨b, hrun, locks_apart plain_constructed hrun⟩

theorem live_together_both : ∃ b, Run systemSem bothStart bothWait b ∧
    ((∃ r s', systemSem false b.shared ⟨.inl .lock, r⟩ s') ∨ ∃ j, j ≠ false ∧ b.shared.1.owner = some j ∧
      ∃ d k' r s', b.prog j = .call (.inl d) k' ∧ systemSem j b.shared ⟨.inl d, r⟩ s') := by
  obtain ⟨b, k, hrun, hprog, hheap⟩ := both_wait
  have hlive := live_together hrun (by decide) ⟨⟨0⟩, by rw [hheap]; rfl⟩ hprog (by simp)
  exact ⟨b, hrun, hlive.imp_right And.right⟩

theorem between_requests_both : Idle plainEnv bothRequests emptyLibrary servedLibrary bothServed :=
  between_requests plain_constructed both_run library_both fun _ => ⟨.ok (some (buildSuccessResponse none)), rfl⟩

end DhsTranslator
