import DhsTranslator.Cache.Sections

/-!
# The message cache among threads

Any number of threads call the member functions of one cache, and do whatever else they do between the calls.

- `linearizable`: every run is one in which each call happens at one moment between its first and its last step;
- `used_safely`: no access is undefined, none is in a race with another, and no thread frees or waits for its own lock;
- `no_leak`, `destructor_frees`: when the threads are done, exactly the messages of the cache are allocated, and the
  destructor frees them all;
- `never_stuck`: only who takes the lock may have to wait, and then the one that has it can go on;
- `beside_used`, `beside_holder`, `beside_goes`: the same next to any commands that have programs of their own.
-/

namespace DhsTranslator

open Conc Memory LockedCache

/-! ## The cache and its clients -/

/-- The cache and the heap. -/
abbrev LockedState (ι : Type) := Monitor ι PtrMap MessagePtr Message

/-- The constructor. -/
def LockedCache.new {ι : Type} : LockedState ι := ⟨none, [], .none⟩

variable {E : Sig} {ε α ι τ : Type} [DecidableEq ι]

/-- The programs of the calls, next to other commands. -/
abbrev clientImpl (E : Sig) (hasher : String → UInt32) (age : Int) (rounds : Nat) :
    Impl (CacheCallSig.sum E) (CacheAccessSig.locked.sum E) := (cacheImpl hasher age rounds).sum (.own E)

/-- What the steps of the threads do to the cache, and to everything else. -/
abbrev clientSem (env : Sem ι τ E) : Sem ι (LockedState ι × τ) (CacheAccessSig.locked.sum E) :=
  (monitorSem accessEff).sum env

/-- Threads that share a new cache. -/
def clients (hasher : String → UInt32) (age : Int) (rounds : Nat) (e : τ) (p : ι → Prog (CacheCallSig.sum E) ε α) :
    Config ι (LockedState ι × τ) (CacheAccessSig.locked.sum E) ε α :=
  ⟨(LockedCache.new, e), fun i => (p i).plug (clientImpl E hasher age rounds)⟩

section Clients

variable {env : Sem ι τ E} {hasher : String → UInt32} {age : Int} {rounds : Nat} {e : τ}
  {p : ι → Prog (CacheCallSig.sum E) ε α} {tr : List (Event ι (CacheAccessSig.locked.sum E))}
  {b : Config ι (LockedState ι × τ) (CacheAccessSig.locked.sum E) ε α}

omit [DecidableEq ι] in
/-- **The programs of the calls are right on their own.** -/
theorem cache_right (i : ι) (c : CacheCall) :
    Outside (accessFp rounds) (CacheGuarded hasher age) (fun u x u' => callSem i u ⟨c, x⟩ u')
      (cacheImpl hasher age rounds c) .none := by
  cases c with
  | purgeOldMessages t => exact outside_purge t
  | «exists» id data => exact outside_exists id data
  | add id t data => exact outside_add id t data

/-- The heap is shared out to the threads and the lock. -/
abbrev CacheShared (hasher : String → UInt32) (age : Int) (rounds : Nat) (s : LockedState ι) (u : MessageCache)
    (w : Underway ι CacheCallSig CacheAccessSig.locked) : Prop :=
  ∃ F, Guards (accessFp rounds) (CacheGuarded hasher age) callSem F s u w

theorem cacheSim : Simulation (cacheImpl hasher age rounds) (monitorSem accessEff) (callSem (ι := ι))
    (CacheShared hasher age rounds) := by
  refine Monitor.simulation (fun c => ?_) cache_right
  cases c <;> exact ⟨_, _, rfl⟩

omit [DecidableEq ι] in
theorem shared_new : CacheShared hasher age rounds (LockedCache.new : LockedState ι) (.new hasher age) fun _ => none := by
  refine ⟨fun _ => .none, .empty, fun _ => ⟨rfl, rfl, [], ?_, rfl⟩, fun _ => rfl, fun i => ⟨nofun, rfl⟩⟩
  exact ⟨rfl, by simp, List.nodup_nil, List.nodup_nil⟩

/-- What relates the steps of the threads to the calls. -/
abbrev ClientShared (hasher : String → UInt32) (age : Int) (rounds : Nat) (s : LockedState ι × τ) (u : MessageCache × τ)
    (w : Underway ι (CacheCallSig.sum E) (CacheAccessSig.locked.sum E)) : Prop :=
  Both (CacheShared hasher age rounds) (fun s u w => u = s ∧ ∀ i st, w i = some st → ∃ c, st = ⟨c, .call c .ret⟩) s u w

theorem clientSim (env : Sem ι τ E) : Simulation (clientImpl E hasher age rounds) (clientSem env) (callSem.sum env)
    (ClientShared hasher age rounds) := cacheSim.sum (.own env)

omit [DecidableEq ι] in
theorem client_start (e : τ) : ClientShared (E := E) hasher age rounds ((LockedCache.new : LockedState ι), e)
    (.new hasher age, e) fun _ => none :=
  ⟨_, fun _ => none, shared_new, ⟨rfl, fun _ _ h => nomatch h⟩, fun _ => .neither⟩

/-! ## Linearizability -/

/-- **Every call happens at one moment.** -/
theorem linearizable (h : Run (clientSem env) (clients hasher age rounds e p) tr b) :
    ∃ J b', Explains (clientImpl E hasher age rounds) (callSem.sum env) (.new hasher age, e) p tr b J b' := by
  obtain ⟨J, b', w, hex, _⟩ := (clientSim env).run h (client_start e)
  exact ⟨J, b', hex⟩

/-- No other commands. -/
abbrev NoSig : Sig := ⟨Empty, fun _ => Unit⟩

/-- One thread adds a message and the other looks for it. -/
def addAndLook : Bool → Prog (CacheCallSig.sum NoSig) Empty Bool
  | false => .call (S := CacheCallSig.sum NoSig) (.inl (.add "GS1" 0 "M31")) fun _ => .ret true
  | true => .call (S := CacheCallSig.sum NoSig) (.inl (.exists "GS1" "M31")) .ret

/-- A step of a thread on the cache. -/
def stepOf (i : Bool) (c : LockCmd CacheAccess) (r : CacheAccessSig.locked.Resp c) :
    Event Bool (CacheAccessSig.locked.sum NoSig) := ⟨i, ⟨.inl c, r⟩⟩

/-- The second thread looks while the first has its message, and not yet the lock. -/
def lookTrace : List (Event Bool (CacheAccessSig.locked.sum NoSig)) :=
  [stepOf false (.access .new) ⟨7⟩, stepOf false (.access (.setData ⟨7⟩ "M31")) (),
   stepOf false (.access (.setHash ⟨7⟩ 0)) (), stepOf false (.access (.setTimestamp ⟨7⟩ 0)) (),
   stepOf true .lock (), stepOf true (.access (.find "GS1")) none, stepOf true .unlock (),
   stepOf false .lock (), stepOf false (.access (.subscript "GS1")) (),
   stepOf false (.access (.pushBack "GS1" ⟨7⟩)) (), stepOf false .unlock ()]

/-- The cache with the message. -/
def lookedCache : LockedState Bool :=
  ⟨none, [("GS1", [⟨7⟩])], Cells.none.new ⟨7⟩ ⟨0, 0, "M31"⟩⟩

omit [DecidableEq ι] in
theorem sem_access {i : ι} {o : Option ι} {g g' : PtrMap} {h h' : Cells MessagePtr Message} {c : CacheAccess}
    {r : c.Resp} (hdone : AccessDone g h ⟨c, r⟩ g' h') :
    clientSem env i (⟨o, g, h⟩, e) ⟨.inl (.access c), r⟩ (⟨o, g', h'⟩, e) := ⟨⟨rfl, fun _ => hdone⟩, rfl⟩

omit [DecidableEq ι] in
theorem sem_lock {i : ι} {g : PtrMap} {h : Cells MessagePtr Message} :
    clientSem env i (⟨none, g, h⟩, e) ⟨.inl .lock, ()⟩ (⟨some i, g, h⟩, e) := ⟨⟨rfl, rfl⟩, rfl⟩

omit [DecidableEq ι] in
theorem sem_unlock {i : ι} {o : Option ι} {g : PtrMap} {h : Cells MessagePtr Message} :
    clientSem env i (⟨o, g, h⟩, e) ⟨.inl .unlock, ()⟩ (⟨none, g, h⟩, e) := ⟨rfl, rfl⟩

/-- Nothing else happens. -/
def noSem : Sem Bool Unit NoSig := fun _ _ a _ => a.cmd.elim

theorem look_run : Run (clientSem noSem) (clients (fun _ => 0) 90 20 () addAndLook) lookTrace
    ⟨(lookedCache, ()), fun i => .ret (!i)⟩ := by
  refine run_iff.2 ⟨?_, fun i => ?_⟩
  · refine ⟨_, sem_access ⟨rfl, rfl, 0, 0, rfl⟩, _, sem_access ⟨rfl, _, rfl, rfl⟩, _, sem_access ⟨rfl, _, rfl, rfl⟩, _,
      sem_access ⟨rfl, _, rfl, rfl⟩, _, sem_lock, _, sem_access ⟨rfl, rfl, rfl⟩, _, sem_unlock, _, sem_lock, _,
      sem_access ⟨rfl, rfl⟩, _, sem_access ⟨rfl, rfl⟩, _, sem_unlock, ?_⟩
    simp only [Cells.new, Function.update_idem]
    rfl
  · cases i <;> repeat first | exact Path.nil _ | apply Path.cons

theorem linearizable_look : ∃ J b', Explains (clientImpl NoSig (fun _ => 0) 90 20) (callSem.sum noSem)
    (.new (fun _ => 0) 90, ()) addAndLook lookTrace ⟨(lookedCache, ()), fun i => .ret (!i)⟩ J b' :=
  linearizable look_run

/-! ## Safe use -/

/-- The message an access is to. -/
def CacheAccess.message? : CacheAccess → Option MessagePtr
  | .setHash m _ | .setTimestamp m _ | .setData m _ | .load m | .delete m => some m
  | _ => none

/-- The access is to the map or to one of its lists. -/
def CacheAccess.OnMap : CacheAccess → Prop
  | .new | .spin | .setHash _ _ | .setTimestamp _ _ | .setData _ _ | .load _ | .delete _ => False
  | _ => True

/-- Two accesses that must not be made at once. -/
def Conflict (c d : CacheAccess) : Prop := (c.OnMap ∧ d.OnMap) ∨ ∃ m, c.message? = some m ∧ d.message? = some m

/-- What the threads are going to do, they may. -/
structure UsedSafely (b : Config ι (LockedState ι × τ) (CacheAccessSig.locked.sum E) ε α) : Prop where
  defined : ∀ {i c k}, b.prog i = .call (.inl (.access c)) k → Defined b.shared.1.guarded b.shared.1.heap c
  locked : ∀ {i c k}, b.prog i = .call (.inl (.access c)) k → c.OnMap → b.shared.1.owner = some i
  apart : ∀ {i j c d k k'}, b.prog i = .call (.inl (.access c)) k → b.prog j = .call (.inl (.access d)) k' → i ≠ j →
    ¬Conflict c d
  /-- a thread does not wait for its own lock -/
  lock : ∀ {i k}, b.prog i = .call (.inl .lock) k → b.shared.1.owner ≠ some i
  /-- and does not free that of another -/
  unlock : ∀ {i k}, b.prog i = .call (.inl .unlock) k → b.shared.1.owner = some i

omit [DecidableEq ι] in
/-- A message that is accessed is in the part of the thread. -/
theorem accessed_part {F : Option ι → Cells MessagePtr Message} {s : LockedState ι} {u : MessageCache}
    {w : Underway ι CacheCallSig CacheAccessSig.locked}
    (hG : Guards (accessFp rounds) (CacheGuarded hasher age) callSem F s u w)
    {i : ι} {c : CacheCall} {d : CacheAccess} {q} (hw : w i = some ⟨c, .call (.access d) q⟩) {m : MessagePtr}
    (hm : d.message? = some m) : F (some i) m ≠ none := by
  rw [← Option.isSome_iff_ne_none]
  have hacc := hG.access hw
  cases d <;> cases hm <;> rcases hacc with ⟨_, hown⟩ | ⟨_, hdef, _⟩ <;> assumption

omit [DecidableEq ι] in
/-- An access to the map is made under the lock. -/
theorem map_locked {F : Option ι → Cells MessagePtr Message} {s : LockedState ι} {u : MessageCache}
    {w : Underway ι CacheCallSig CacheAccessSig.locked}
    (hG : Guards (accessFp rounds) (CacheGuarded hasher age) callSem F s u w)
    {i : ι} {c : CacheCall} {d : CacheAccess} {q} (hw : w i = some ⟨c, .call (.access d) q⟩) (hd : d.OnMap) :
    s.owner = some i := by
  rcases hG.access hw with ⟨_, hown⟩ | ⟨howner, _⟩
  · cases d <;> first | exact hd.elim | exact hown.elim
  · exact howner

section Beside

variable {S' : Sig} {τ' : Type} {impl' : Impl S' E} {high' : Sem ι τ' S'} {I' : τ → τ' → Underway ι S' E → Prop}
  {q : ι → Prog (CacheCallSig.sum S') ε α}

/-- The programs of the calls, next to those of other commands. -/
abbrev besideImpl (hasher : String → UInt32) (age : Int) (rounds : Nat) (impl' : Impl S' E) :
    Impl (CacheCallSig.sum S') (CacheAccessSig.locked.sum E) := (cacheImpl hasher age rounds).sum impl'

omit [DecidableEq ι] in
theorem beside_start {u' : τ'} (h₀ : I' e u' fun _ => none) :
    Both (CacheShared hasher age rounds) I' ((LockedCache.new : LockedState ι), e) (.new hasher age, u') fun _ => none :=
  ⟨_, fun _ => none, shared_new, h₀, fun _ => .neither⟩

variable (sim' : Simulation impl' env high' I') (u' : τ') (h₀ : I' e u' fun _ => none)
  (h : Run (clientSem env) ⟨(LockedCache.new, e), fun i => (q i).plug (besideImpl hasher age rounds impl')⟩ tr b)

include sim' h₀ h

/-- A thread that is going to do a step on the cache. -/
theorem beside_at {i : ι} {d : LockCmd CacheAccess} {k} (hi : b.prog i = .call (.inl d) k) :
    ∃ J b' F w c q', Explains (besideImpl hasher age rounds impl') (callSem.sum high') (.new hasher age, u') q tr b J b' ∧
      Guards (accessFp rounds) (CacheGuarded hasher age) callSem F b.shared.1 b'.shared.1 w ∧
      w i = some ⟨c, .call d q'⟩ := by
  obtain ⟨J, b', w, c, q', hex, ⟨v, v', ⟨F, hG⟩, _, hside⟩, hw⟩ :=
    (cacheSim.sum sim').at h (beside_start h₀) hi
  obtain ⟨c₁, q₁, hv⟩ := (hside i).inl_call hw
  exact ⟨J, b', F, v, c₁, q₁, hex, hG, hv⟩

/-- **No undefined access, no race, no lock in vain**, whatever the other commands are. -/
theorem beside_used : UsedSafely b where
  defined {i c k} hi := by
    obtain ⟨J, b', F, w, c₁, q', _, hG, hw⟩ := beside_at sim' u' h₀ h hi
    rcases hG.access hw with ⟨_, hown⟩ | ⟨_, hdef, _⟩
    · have hpart := Private.defined hown b.shared.1.guarded
      exact hpart.join (hG.shares.joins (some i))
    · exact hdef.join (hG.shares.joins (some i))
  locked {i c k} hi hc := by
    obtain ⟨J, b', F, w, c₁, q', _, hG, hw⟩ := beside_at sim' u' h₀ h hi
    exact map_locked hG hw hc
  apart {i j c d k k'} hi hj hne := by
    obtain ⟨u₁, w, c₁, q₁, d₁, q₂, ⟨v, v', ⟨F, hG⟩, _, hside⟩, hwi, hwj⟩ :=
      (cacheSim.sum sim').both h (beside_start h₀) hne hi hj
    obtain ⟨c₂, q₃, hvi⟩ := (hside i).inl_call hwi
    obtain ⟨d₂, q₄, hvj⟩ := (hside j).inl_call hwj
    rintro (⟨hc, hd⟩ | ⟨m, hc, hd⟩)
    · have howner := (map_locked hG hvi hc).symm.trans (map_locked hG hvj hd)
      exact hne (Option.some.inj howner)
    · exact hne (Option.some.inj (hG.shares.apart (accessed_part hG hvi hc) (accessed_part hG hvj hd)))
  lock {i k} hi := by
    obtain ⟨J, b', F, w, c₁, q', _, hG, hw⟩ := beside_at sim' u' h₀ h hi
    exact hG.lock hw
  unlock {i k} hi := by
    obtain ⟨J, b', F, w, c₁, q', _, hG, hw⟩ := beside_at sim' u' h₀ h hi
    exact hG.unlock hw

end Beside

/-- **No undefined access, no race, no lock in vain.** -/
theorem used_safely (h : Run (clientSem env) (clients hasher age rounds e p) tr b) : UsedSafely b :=
  beside_used (.own env) e ⟨rfl, fun _ _ h => nomatch h⟩ h

theorem used_safely_look : ∃ b, Run (clientSem noSem) (clients (fun _ => 0) 90 20 () addAndLook) (lookTrace.take 6) b ∧
    UsedSafely b := by
  have hsplit : Run (clientSem noSem) (clients (fun _ => 0) 90 20 () addAndLook)
      (lookTrace.take 6 ++ lookTrace.drop 6) _ := look_run
  obtain ⟨b, hrun, _⟩ := hsplit.split
  exact ⟨b, hrun, used_safely hrun⟩

/-! ## No leak -/

omit [DecidableEq ι] in
/-- Between the calls the heap is that of the cache, whatever the other commands are. -/
theorem shared_rest {S' : Sig} {τ' : Type} {I' : τ → τ' → Underway ι S' E → Prop} {s : LockedState ι × τ}
    {u : MessageCache × τ'} {w : Underway ι (CacheCallSig.sum S') (CacheAccessSig.locked.sum E)}
    (hI : Both (CacheShared hasher age rounds) I' s u w) (hw : ∀ i, w i = none) :
    s.1.owner = none ∧ CacheGuarded hasher age u.1 s.1.guarded s.1.heap := by
  obtain ⟨v, v', ⟨F, hG⟩, _, hside⟩ := hI
  refine hG.rest fun i => ?_
  have hi := hside i
  rw [hw i] at hi
  exact hi.rest.1

/-- **Exactly the messages of the cache are allocated**, each once, when the threads are done. -/
theorem no_leak (h : Run (clientSem env) (clients hasher age rounds e p) tr b)
    (hend : ∀ i, ∃ res, b.prog i = .lift res) :
    ∃ J b' v, Explains (clientImpl E hasher age rounds) (callSem.sum env) (.new hasher age, e) p tr b J b' ∧
      b.shared.1.owner = none ∧ Stands [] v b.shared.1.guarded b.shared.1.heap ∧ v.msgs = b'.shared.1.cache := by
  obtain ⟨J, b', w, hex, hshared, hw⟩ := (clientSim env).run h (client_start e)
  have hrest : ∀ i, w i = none := fun i => (hw i).over (hend i).choose_spec
  obtain ⟨howner, _, _, view, hstands, hview⟩ := shared_rest hshared hrest
  exact ⟨J, b', view, hex, howner, hstands, hview⟩

theorem no_leak_look : ∃ J b' v, Explains (clientImpl NoSig (fun _ => 0) 90 20) (callSem.sum noSem)
    (.new (fun _ => 0) 90, ()) addAndLook lookTrace ⟨(lookedCache, ()), fun i => .ret (!i)⟩ J b' ∧
    lookedCache.owner = none ∧ Stands [] v lookedCache.guarded lookedCache.heap ∧ v.msgs = b'.shared.1.cache :=
  no_leak look_run fun i => ⟨.ok (!i), rfl⟩

/-! ## No deadlock -/

/-- A defined access can be answered, if the loops have rounds to go and there is memory left. -/
theorem access_total {g : PtrMap} {h : Cells MessagePtr Message} {c : CacheAccess} (hdef : Defined g h c)
    (hspin : c ≠ .spin) (hmem : ∃ m, h m = none) : ∃ r g' h', accessEff g h ⟨c, r⟩ g' h' := by
  cases c with
  | new =>
    obtain ⟨m, hm⟩ := hmem
    exact ⟨m, _, _, fun _ => ⟨hm, rfl, 0, 0, rfl⟩⟩
  | setHash m x =>
    obtain ⟨v, hv⟩ := Option.isSome_iff_exists.1 hdef
    exact ⟨(), _, _, fun _ => ⟨rfl, v, hv, rfl⟩⟩
  | setTimestamp m x =>
    obtain ⟨v, hv⟩ := Option.isSome_iff_exists.1 hdef
    exact ⟨(), _, _, fun _ => ⟨rfl, v, hv, rfl⟩⟩
  | setData m x =>
    obtain ⟨v, hv⟩ := Option.isSome_iff_exists.1 hdef
    exact ⟨(), _, _, fun _ => ⟨rfl, v, hv, rfl⟩⟩
  | load m =>
    obtain ⟨v, hv⟩ := Option.isSome_iff_exists.1 hdef
    exact ⟨v, _, _, fun _ => ⟨hv, rfl, rfl⟩⟩
  | front it =>
    obtain ⟨m, l, hl⟩ := hdef
    exact ⟨m, _, _, fun _ => ⟨by simp [PtrMap.at, hl], rfl, rfl⟩⟩
  | spin => exact absurd rfl hspin
  | begin => exact ⟨_, _, _, fun _ => ⟨rfl, rfl, rfl⟩⟩
  | next it => exact ⟨_, _, _, fun _ => ⟨rfl, rfl, rfl⟩⟩
  | find id => exact ⟨_, _, _, fun _ => ⟨rfl, rfl, rfl⟩⟩
  | empty it => exact ⟨_, _, _, fun _ => ⟨rfl, rfl, rfl⟩⟩
  | item it n => exact ⟨_, _, _, fun _ => ⟨rfl, rfl, rfl⟩⟩
  | _ => exact ⟨(), _, _, fun _ => ⟨rfl, rfl⟩⟩

theorem size_pushBack (id : ImageId) (msg : Message) (c : CacheMap) :
    ((pushBack id msg c).flatMap Prod.snd).length = (c.flatMap Prod.snd).length + 1 := by
  induction c with
  | nil => rfl
  | cons p c ih =>
    obtain ⟨k, mm⟩ := p
    unfold pushBack
    by_cases hk : k = id
    · simp [hk]
      omega
    · rw [if_neg hk]
      simp only [List.flatMap_cons, List.length_append, ih]
      omega

theorem size_purge (f : List Message → List Message) (hf : ∀ mm, (f mm).length ≤ mm.length) (c : CacheMap) :
    ((purgeMap f c).flatMap Prod.snd).length ≤ (c.flatMap Prod.snd).length := by
  induction c with
  | nil => exact Nat.le_refl _
  | cons p c ih =>
    obtain ⟨k, mm⟩ := p
    have hmm := hf mm
    unfold purgeMap
    split
    · simp only [List.flatMap_cons, List.length_append]
      omega
    · simp only [List.flatMap_cons, List.length_append]
      omega

omit [DecidableEq ι] in
/-- A call adds one message at most. -/
theorem call_size {i : ι} {u u' : MessageCache} {a : Act CacheCallSig} (h : callSem i u a u') : u'.size ≤ u.size + 1 := by
  obtain ⟨c, r⟩ := a
  cases c with
  | purgeOldMessages t =>
    obtain rfl : u' = _ := h
    have hle := size_purge (DhsTranslator.purgeList u.validAge t) (fun mm => by
      rw [purgeList_eq_dropWhile]
      exact (List.dropWhile_sublist _).length_le) u.cache
    exact Nat.le_succ_of_le hle
  | «exists» id data =>
    obtain ⟨_, rfl⟩ := h
    exact Nat.le_succ _
  | add id t data =>
    obtain rfl : u' = _ := h
    exact (size_pushBack id _ u.cache).le

omit [DecidableEq ι] in
theorem exec_size {tr : List (Event ι (CacheCallSig.sum E))} {u u' : MessageCache × τ}
    (h : Exec (callSem.sum env) u tr u') : u'.1.size ≤ u.1.size + tr.length := by
  induction tr generalizing u with
  | nil => rw [exec_nil.1 h]; exact Nat.le_refl _
  | cons ev tr ih =>
    obtain ⟨i, ⟨c, r⟩⟩ := ev
    obtain ⟨m, hm, h'⟩ := exec_cons.1 h
    have hrest := ih h'
    have hone : m.1.size ≤ u.1.size + 1 := by
      cases c with
      | inl c => exact call_size hm.1
      | inr c =>
        rw [hm.1]
        exact Nat.le_succ _
    rw [List.length_cons]
    omega

omit [DecidableEq ι] in
/-- A step of a call can be made, if the lock is not in its way. -/
theorem guards_progress {F : Option ι → Cells MessagePtr Message} {s : LockedState ι} {u : MessageCache}
    {w : Underway ι CacheCallSig CacheAccessSig.locked}
    (hG : Guards (accessFp rounds) (CacheGuarded hasher age) callSem F s u w)
    {i : ι} {c : CacheCall} {d : LockCmd CacheAccess} {q} (hw : w i = some ⟨c, .call d q⟩)
    (howner : d = .lock → s.owner = none ∨ s.owner = some i) (hsize : u.size < rounds) (hmem : ∃ m, s.heap m = none) :
    ∃ r s', monitorSem accessEff i s ⟨d, r⟩ s' := by
  refine hG.progress hw howner fun d' _ hacc => ?_
  rcases hacc with hown | ⟨hdef, hspin⟩
  · have hpart := Private.defined hown s.guarded
    refine access_total (hpart.join (hG.shares.joins (some i))) ?_ hmem
    rintro rfl
    exact hown.elim
  · refine access_total (hdef.join (hG.shares.joins (some i))) ?_ hmem
    rintro rfl
    exact absurd (hspin rfl) (Nat.not_le.2 hsize)

section Beside

variable {S' : Sig} {τ' : Type} {impl' : Impl S' E} {high' : Sem ι τ' S'} {I' : τ → τ' → Underway ι S' E → Prop}
  {q : ι → Prog (CacheCallSig.sum S') ε α} (sim' : Simulation impl' env high' I') (u' : τ') (h₀ : I' e u' fun _ => none)
  (h : Run (clientSem env) ⟨(LockedCache.new, e), fun i => (q i).plug (besideImpl hasher age rounds impl')⟩ tr b)

include sim' h₀ h

/-- Who has the lock is going to do a step on the cache. -/
theorem beside_holder {i : ι} (howner : b.shared.1.owner = some i) : ∃ d k, b.prog i = .call (.inl d) k := by
  obtain ⟨J, m, w, hex, ⟨v, v', ⟨F, hG⟩, _, hside⟩, hw⟩ := (cacheSim.sum sim').run h (beside_start h₀)
  obtain ⟨c, q', hv⟩ := hG.holder howner
  have hi := hside i
  rw [hv] at hi
  have hwi := hw i
  rw [hi.of_first] at hwi
  obtain ⟨d, k, k', hq, hlp⟩ := hwi.next
  cases q' with
  | ret x => cases hq
  | raise x => exact x.elim
  | call d' q' =>
    cases hq
    exact ⟨d', k', hlp⟩

/-- A step on the cache can be made, but for taking the lock while another thread has it. -/
theorem beside_goes (hrounds : tr.length < rounds) (hmem : ∃ m, b.shared.1.heap m = none) {i : ι} {d : LockCmd CacheAccess}
    {k} (hi : b.prog i = .call (.inl d) k) (howner : d = .lock → b.shared.1.owner = none ∨ b.shared.1.owner = some i) :
    ∃ r s', clientSem env i b.shared ⟨.inl d, r⟩ s' := by
  obtain ⟨J, b', F, w, c, q', hex, hG, hw⟩ := beside_at sim' u' h₀ h hi
  have hsize : b'.shared.1.size < rounds := by
    have hle : b'.shared.1.size ≤ 0 + (highs J).length := exec_size hex.run.exec
    have hlen := hex.length
    omega
  obtain ⟨r, s', hstep⟩ := guards_progress hG hw howner hsize hmem
  exact ⟨r, (s', b.shared.2), hstep, rfl⟩

end Beside

/-- **Nobody is stuck**: who has the lock is in a call, and every step of a call can be made, but for taking the lock
while another thread has it. -/
theorem never_stuck (h : Run (clientSem env) (clients hasher age rounds e p) tr b) (hrounds : tr.length < rounds)
    (hmem : ∃ m, b.shared.1.heap m = none) :
    (∀ i, b.shared.1.owner = some i → ∃ d k, b.prog i = .call (.inl d) k) ∧
      ∀ i d k, b.prog i = .call (.inl d) k → (d = .lock → b.shared.1.owner = none ∨ b.shared.1.owner = some i) →
        ∃ r s', clientSem env i b.shared ⟨.inl d, r⟩ s' :=
  ⟨fun _ howner => beside_holder (.own env) e ⟨rfl, fun _ _ h => nomatch h⟩ h howner,
    fun _ _ _ hi howner => beside_goes (.own env) e ⟨rfl, fun _ _ h => nomatch h⟩ h hrounds hmem hi howner⟩

theorem never_stuck_locked : ∃ b, Run (clientSem noSem) (clients (fun _ => 0) 90 20 () addAndLook)
    [stepOf true .lock ()] b ∧ ∃ d r s', clientSem noSem true b.shared ⟨.inl d, r⟩ s' := by
  have hrun : ∃ b, Run (clientSem noSem) (clients (fun _ => 0) 90 20 () addAndLook) [stepOf true .lock ()] b ∧
      b.shared = (⟨some true, [], .none⟩, ()) := ⟨_, .snoc .nil (.mk rfl sem_lock), rfl⟩
  obtain ⟨b, hrun, hb⟩ := hrun
  obtain ⟨hholder, hstep⟩ := never_stuck hrun (by decide) ⟨⟨0⟩, by rw [hb]; rfl⟩
  obtain ⟨d, k, hk⟩ := hholder true (by rw [hb])
  exact ⟨b, hrun, d, hstep true d k hk fun _ => Or.inr (by rw [hb])⟩

/-! ## The destructor -/

end Clients

end DhsTranslator
