import DhsTranslator.Adapter.Destructor
import DhsTranslator.Service.Locks

/-!
# The end of the translator

`delete theService` after the requests: the destructor of the adapter and that of the cache.

- `dhsInitialized`: what the constructor has written to the flag, which it leaves alone if the event loop does not start;
- `shut_down`: neither destructor waits for a lock or makes an undefined access, but for reading a flag that was left
  alone, all messages are freed, and every connection of the library is closed before it is left.
-/

namespace DhsTranslator

open Conc DhsAdapter Memory

/-- The library runs its event loop. -/
def loopRuns : Act AdapterSig → Bool
  | ⟨.leave .dhsEventLoop, r⟩ => r.status = .S_SUCCESS
  | _ => false

section Shutdown

variable {ι : Type}

/-- What the constructor has written to the flag. -/
def dhsInitialized (past : List (Event ι AdapterSig)) : Option Bool :=
  if past.any fun e => loopRuns e.act then some true else none

/-- The adapter and the cache. -/
abbrev ShutdownSig : Sig := ExitSig.sum CacheAccessSig.locked

/-- The destructors of what the service owns. -/
def shutdown (rounds : Nat) : Prog ShutdownSig Empty Unit := do
  destruct.inl
  (LockedCache.destroy rounds).inr

variable [DecidableEq ι]

abbrev shutdownSem : Sem ι (ExitState ι × LockedState ι) ShutdownSig := exitSem.sum (monitorSem accessEff)

/-- What may be done: locks that are waited for are free, accesses are defined, and the loops have rounds to go. -/
abbrev ShutdownMay (rounds : Nat) (u : MessageCache) (i : ι) : ShutdownSig.Cmd → ExitState ι × LockedState ι → Prop :=
  Sum.elim (fun c s => c.May i s.1) fun c s => LockedMay (accessFp rounds) u i c s.2

omit [DecidableEq ι] in
/-- **The destructor of the cache** does what it may. -/
theorem meets_destroy {hasher : String → UInt32} {age : Int} {rounds : Nat} {u : MessageCache} {i : ι}
    {s : LockedState ι} (hfree : s.owner = none) (hguarded : CacheGuarded hasher age u s.guarded s.heap) :
    Meets (monitorSem accessEff) i (LockedMay (accessFp rounds) u i)
      (fun _ s => s.owner = none ∧ s.guarded = [] ∧ s.heap = .none) (LockedCache.destroy rounds) s := by
  refine ⟨hfree, ?_⟩
  rintro _ _ ⟨_, rfl⟩
  refine (Inside.meets (s := { s with owner := some i }) (inside_destroy hguarded) rfl).mono ?_
  rintro _ _ ⟨hfree, _, _, _, hnothing, _⟩
  exact ⟨hfree, hnothing⟩

/-- What the destructors do: what they may do, and reading a flag that was not written. -/
abbrev ShutdownDoes (flag : Option Bool) (rounds : Nat) (u : MessageCache) (i : ι) :
    ShutdownSig.Cmd → ExitState ι × LockedState ι → Prop :=
  Sum.elim (fun c s => c.Does flag i s.1) fun c s => LockedMay (accessFp rounds) u i c s.2

/-- **Both destructors.** -/
theorem meets_shutdown {hasher : String → UInt32} {age : Int} {rounds : Nat} {u : MessageCache} {i : ι}
    {e : ExitState ι} {s : LockedState ι} (hadapter : e.adapter.owner = none) (hout : ∀ j, e.adapter.inside j = none)
    (hfree : s.owner = none) (hguarded : CacheGuarded hasher age u s.guarded s.heap) :
    Meets shutdownSem i (ShutdownDoes e.dhsInitialized rounds u i) (fun _ s' => (∃ b,
        (∀ b', e.dhsInitialized = some b' → b = b') ∧ s'.1 = { e with
          adapter := { e.adapter with connection := .CONNECT_NULL },
          called := e.called ++ (closing e.adapter.connection ++ leaving b) }) ∧
      s'.2.owner = none ∧ s'.2.guarded = [] ∧ s'.2.heap = .none) (shutdown rounds) (e, s) := by
  refine meets_bind.2 ((meets_inl (meets_destruct hadapter hout)).mono ?_)
  rintro (x | x) ⟨_, _⟩ ⟨hexit, rfl⟩
  · exact x.elim
  · refine (meets_inr (meets_destroy hfree hguarded)).mono ?_
    rintro _ ⟨_, _⟩ ⟨hcache, rfl⟩
    exact ⟨hexit, hcache⟩

/-! ## After the requests -/

variable {env : Env} {hasher : String → UInt32} {age : Int} {rounds : Nat} {cfg : AdapterConfig} {req : ι → AxiomNode}
  {past : List (Event ι AdapterSig)} {s : AdapterState ι} {tr : List (Event ι SystemSig)}
  {b : Config ι (SystemState ι) SystemSig Abort (Option AxiomNode)} {i : ι}

/-- When all requests are done, nobody uses the adapter, and a connection that was made is the one it has. -/
theorem adapter_rests (hnew : Constructed cfg past s)
    (h : Run systemSem (systemStart env hasher age rounds cfg s req) tr b) (hend : ∀ i, ∃ res, b.prog i = .lift res) :
    b.shared.2.2.owner = none ∧ (∀ j, b.shared.2.2.inside j = none) ∧
      ∀ c ∈ connects (past ++ adapterEvents tr), c = b.shared.2.2.connection := by
  have hsafe := system_safe hnew h
  have hphase : ∀ i, ∃ up, callPhases tr i = .free up := by
    intro i
    obtain ⟨res, hi⟩ := hend i
    exact (system_connectOnce h).2 i (by rw [hi]; cases res <;> trivial)
  refine ⟨Option.eq_none_iff_forall_ne_some.2 fun i howner => ?_, fun j => ?_, fun c hc => ?_⟩
  · obtain ⟨up, hup⟩ := hphase i
    have hholds := (hsafe.lock i).2 howner
    rw [hup] at hholds
    cases hholds
  · obtain ⟨up, hup⟩ := hphase j
    rw [hsafe.inside j, hup]
    rfl
  · cases hup : b.shared.2.2.isConnected with
    | true =>
      rw [(hsafe.up hup).1] at hc
      exact List.mem_singleton.1 hc
    | false =>
      rcases hsafe.down hup with hnone | ⟨j, hpending⟩
      · rw [hnone] at hc
        exact absurd hc List.not_mem_nil
      · obtain ⟨up, hfree⟩ := hphase j
        rw [hfree] at hpending
        obtain ⟨c', hl | hl⟩ := hpending <;> cases up <;> cases hl

/-- What is left after the destructors. -/
structure ShutDown (past T : List (Event ι AdapterSig)) (e : ExitState ι) (s : LockedState ι) : Prop where
  adapter : e.adapter.owner = none ∧ e.adapter.connection = .CONNECT_NULL
  cache : s.owner = none ∧ s.guarded = [] ∧ s.heap = .none
  /-- the library calls: at most one connection is closed, and then the library is left, if it was initialized -/
  called : ∃ c b, e.called = closing c ++ leaving b ∧ (∀ b', dhsInitialized past = some b' → b = b') ∧
    ∀ c' ∈ connects (past ++ T), c' = c

/-- **The end of the translator**: when all requests are done, its destructors wait for nothing, make no undefined access
but to a flag that was never written, free all messages, close the connection and leave the library. -/
theorem shut_down (hnew : Constructed cfg past s)
    (h : Run systemSem (systemStart env hasher age rounds cfg s req) tr b) (hend : ∀ i, ∃ res, b.prog i = .lift res)
    {acts : List (Act ShutdownSig)} {q : Prog ShutdownSig Empty Unit} {s' : ExitState ι × LockedState ι}
    (hpath : Path (shutdown rounds) acts q)
    (hx : Exec shutdownSem (⟨b.shared.2.2, dhsInitialized past, []⟩, b.shared.1) (acts.map (Event.mk i)) s') :
    (∀ c k, q = .call (S := ShutdownSig) c k → (c = .inl .getDhsInitialized ∧ ∀ e ∈ past, loopRuns e.act = false) ∨
      ∃ u : MessageCache, u.size ≤ tr.length ∧ ShutdownMay rounds u i c s') ∧
      ∀ x, q = .ret x → ShutDown past (adapterEvents tr) s'.1 s'.2 := by
  obtain ⟨J, m, K, b', hreveals⟩ := system_reveals h
  obtain ⟨hfree, hguarded⟩ := hreveals.rest hend
  obtain ⟨hadapter, hout, hconnects⟩ := adapter_rests hnew h hend
  have hmeets := (meets_shutdown (i := i) (e := ⟨b.shared.2.2, dhsInitialized past, []⟩)
    hadapter hout hfree hguarded).path hpath hx
  refine ⟨?_, ?_⟩
  · rintro c k rfl
    have hdoes : ShutdownDoes (dhsInitialized past) rounds b'.shared i c s' := hmeets.1
    rcases c with c | c
    · rcases hdoes with ⟨rfl, hflag⟩ | hmay
      · refine Or.inl ⟨rfl, ?_⟩
        simpa [dhsInitialized] using hflag
      · exact Or.inr ⟨b'.shared, hreveals.small, hmay⟩
    · exact Or.inr ⟨b'.shared, hreveals.small, hdoes⟩
  · rintro x rfl
    obtain ⟨⟨flag, hflag, hleft⟩, hcache⟩ := hmeets
    rw [hleft]
    exact ⟨⟨hadapter, rfl⟩, hcache, b.shared.2.2.connection, flag, List.nil_append _, hflag, hconnects⟩

end Shutdown

/-! ## A translator that is shut down -/

/-- Closing the connection and leaving the library. -/
def leaveActs : List (Act ExitSig) :=
  [⟨.adapter .getConnection, DhsConnect.handle 1⟩, ⟨.lock, ()⟩, ⟨.adapter .getConnection, DhsConnect.handle 1⟩,
   ⟨.enter (.dhsDisconnect (.handle 1)) .S_SUCCESS, ()⟩, ⟨.leave (.dhsDisconnect (.handle 1)), DhsStatus.S_SUCCESS⟩,
   ⟨.adapter (.setConnection .CONNECT_NULL), ()⟩, ⟨.adapter .unlock, ()⟩, ⟨.getDhsInitialized, true⟩,
   ⟨.enter .dhsEventLoopEnd .S_SUCCESS, ()⟩, ⟨.leave .dhsEventLoopEnd, DhsStatus.S_SUCCESS⟩,
   ⟨.enter .dhsExit .S_SUCCESS, ()⟩, ⟨.leave .dhsExit, DhsStatus.S_SUCCESS⟩]

/-- Deleting the list of an image with one message. -/
def deleteActs (id : ImageId) (m : MessagePtr) (next : MapIter) : List (Act CacheAccessSig.locked) :=
  [⟨.access (.item id 0), some m⟩, ⟨.access (.delete m), ()⟩, ⟨.access (.item id 1), none⟩, ⟨.access (.clear id), ()⟩,
   ⟨.access (.next id), next⟩]

/-- Deleting the cache. -/
def clearActs : List (Act CacheAccessSig.locked) :=
  [⟨.lock, ()⟩, ⟨.access .begin, some "GS1"⟩] ++ deleteActs "GS1" ⟨1⟩ (some "GS2") ++ deleteActs "GS2" ⟨2⟩ none ++
    [⟨.access .clearMap, ()⟩, ⟨.unlock, ()⟩]

def shutdownActs : List (Act ShutdownSig) := leaveActs.map Act.inl ++ clearActs.map Act.inr

/-- The adapter that served the requests. -/
def bothExit : ExitState Bool := ⟨bothServed.shared.2.2, dhsInitialized (plainNew.acts.map (Event.mk false)), []⟩

theorem shutdown_exec : ∃ s', Exec shutdownSem (bothExit, bothServed.shared.1) (shutdownActs.map (Event.mk true)) s' := by
  have hread : ∀ b, bothExit.dhsInitialized = some b → true = b := fun b hb => Option.some.inj hb
  have hleave : ∃ e', Exec exitSem bothExit (leaveActs.map (Event.mk true)) e' :=
    ⟨_, _, ⟨_, ⟨rfl, rfl⟩, rfl⟩, _, ⟨rfl, rfl⟩, _, ⟨_, ⟨rfl, rfl⟩, rfl⟩, _, rfl, _, rfl, _, ⟨_, rfl, rfl⟩, _, ⟨_, rfl, rfl⟩,
      _, ⟨hread, rfl⟩, _, rfl, _, rfl, _, rfl, _, rfl, rfl⟩
  have haccess : ∀ {i : Bool} {o : Option Bool} {g g' h h' c r}, AccessDone g h ⟨c, r⟩ g' h' →
      monitorSem accessEff i ⟨o, g, h⟩ ⟨.access c, r⟩ ⟨o, g', h'⟩ := fun hdone => ⟨rfl, fun _ => hdone⟩
  have hclear : ∃ c', Exec (monitorSem accessEff) bothServed.shared.1 (clearActs.map (Event.mk true)) c' :=
    ⟨_, _, ⟨rfl, rfl⟩, _, haccess ⟨rfl, rfl, rfl⟩,
      _, haccess ⟨rfl, rfl, rfl⟩, _, haccess ⟨rfl, rfl⟩, _, haccess ⟨rfl, rfl, rfl⟩, _, haccess ⟨rfl, rfl⟩,
      _, haccess ⟨rfl, rfl, rfl⟩,
      _, haccess ⟨rfl, rfl, rfl⟩, _, haccess ⟨rfl, rfl⟩, _, haccess ⟨rfl, rfl, rfl⟩, _, haccess ⟨rfl, rfl⟩,
      _, haccess ⟨rfl, rfl, rfl⟩,
      _, haccess ⟨rfl, rfl⟩, _, rfl, rfl⟩
  obtain ⟨e', hleave⟩ := hleave
  obtain ⟨c', hclear⟩ := hclear
  refine ⟨(e', c'), ?_⟩
  unfold shutdownActs
  rw [List.map_append]
  exact exec_append.2 ⟨_, exec_inl _ hleave, exec_inr _ hclear⟩

theorem shut_down_both : ∃ s' : ExitState Bool × LockedState Bool,
    Exec shutdownSem (bothExit, bothServed.shared.1) (shutdownActs.map (Event.mk true)) s' ∧
    ShutDown (plainNew.acts.map (Event.mk false)) (adapterEvents bothSteps) s'.1 s'.2 := by
  have hpath : Path (shutdown 20) shutdownActs (.ret ()) := by
    repeat first | exact Path.nil _ | apply Path.cons
  obtain ⟨s', hx⟩ := shutdown_exec
  have hend : ∀ i, ∃ res, bothServed.prog i = .lift res := fun _ => ⟨.ok _, rfl⟩
  exact ⟨s', hx, (shut_down plain_constructed both_run hend hpath hx).2 _ rfl⟩

end DhsTranslator
