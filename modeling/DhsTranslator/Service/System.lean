import DhsTranslator.Adapter.Library
import DhsTranslator.Cache.Linear
import DhsTranslator.Conc.Permitted
import DhsTranslator.Service.Concurrent

/-!
# The whole translator

The service with the message cache as it is written, the adapter of the client library, and the clock: every request is
a thread, and a step is one access to the memory or the lock of the cache, to the lock or a field of the adapter, or one
end of a library call.

- `systemImpl`: the commands of the service as programs over these steps;
- `Reveals`: a run of the translator and the run of the service that it is, over an atomic cache and an adapter whose
  operations happen at once; `Reveals.performed`: a call of the adapter is a complete run of the operation;
- `system_refines`: there is one for every run, so what holds of all runs of the service holds of the translator;
- `path_steps`: the other way, a request is served by complete runs of the operations that it calls.
-/

namespace DhsTranslator

open Conc Memory DhsAdapter DhsService LockedCache

/-! ## Steps -/

/-- The clock, and a thread that does not come back. -/
inductive HostCmd where
  | time
  | crash
  deriving DecidableEq

abbrev HostCmd.Resp : HostCmd → Type
  | .time => Int
  | .crash => Empty

abbrev HostSig : Sig := ⟨HostCmd, HostCmd.Resp⟩

/-- The steps outside of the cache. -/
abbrev OutsideSig : Sig := HostSig.sum AdapterSig

/-- All steps. -/
abbrev SystemSig : Sig := CacheAccessSig.locked.sum OutsideSig

/-- The clock may say anything. -/
def hostSem {ι : Type} : Sem ι Unit HostSig := fun _ _ _ _ => True

/-- The cache with its heap, and the adapter. -/
abbrev SystemState (ι : Type) := LockedState ι × (Unit × AdapterState ι)

abbrev systemSem {ι : Type} [DecidableEq ι] : Sem ι (SystemState ι) SystemSig :=
  (monitorSem accessEff).sum (hostSem.sum adapterSem)

/-! ## Commands as programs -/

/-- The commands of the service outside of the cache. -/
inductive OutCmd where
  | time
  | createImage
  | setImageLifeTime (id : ImageId) (lifeTime : DhsBdLifetime)
  | setImageContrib (id : ImageId) (contribs : List String)
  | setImageKeywords (id : ImageId) (keywords : List Keyword) (final : Bool)
  deriving DecidableEq

abbrev OutCmd.Resp : OutCmd → Type
  | .time => Int
  | .createImage => Except String (DhsStatus × ImageId)
  | .setImageLifeTime _ _ => Except String DhsStatus
  | .setImageContrib _ _ => Except String DhsStatus
  | .setImageKeywords _ _ _ => Except String DhsStatus

abbrev OutSig : Sig := ⟨OutCmd, OutCmd.Resp⟩

/-- What the caller of an operation sees of its end. An assignment from `NULL` is not an exception, and nothing comes
after it. -/
def seen {α : Type} : Except AdapterAbort α → Prog OutsideSig Empty (Except String α)
  | .ok a => .ret (.ok a)
  | .error (.raised (.exception what)) => .ret (.error what)
  | .error _ => .call (S := OutsideSig) (.inl .crash) fun r => r.elim

/-- An operation of the adapter as it is called. -/
def called {α : Type} (p : Adapter α) : Prog OutsideSig Empty (Except String α) := p.inr.attempt seen

/-- The clock and the operations of the adapter. The service creates an image with an empty id. -/
def outImpl (cfg : AdapterConfig) : Impl OutSig OutsideSig
  | .time => .call (S := OutsideSig) (.inl .time) .ret
  | .createImage => called (DhsAdapter.createImage cfg "")
  | .setImageLifeTime id lifeTime => called (DhsAdapter.setImageLifeTime cfg id lifeTime)
  | .setImageContrib id contribs => called (DhsAdapter.setImageContrib cfg id contribs)
  | .setImageKeywords id keywords final => called (DhsAdapter.setImageKeywords cfg id keywords final)

/-- Whose command it is. -/
def SvcCmd.place : SvcCmd → (CacheCallSig.sum OutSig).Cmd
  | .time => .inr .time
  | .purgeOldMessages t => .inl (.purgeOldMessages t)
  | .exists id data => .inl (.exists id data)
  | .add id t data => .inl (.add id t data)
  | .createImage => .inr .createImage
  | .setImageLifeTime id lifeTime => .inr (.setImageLifeTime id lifeTime)
  | .setImageContrib id contribs => .inr (.setImageContrib id contribs)
  | .setImageKeywords id keywords final => .inr (.setImageKeywords id keywords final)

/-- The response is the same. -/
def SvcCmd.back : (c : SvcCmd) → (CacheCallSig.sum OutSig).Resp c.place → c.Resp
  | .time, r | .purgeOldMessages _, r | .exists _ _, r | .add _ _ _, r | .createImage, r | .setImageLifeTime _ _, r
  | .setImageContrib _ _, r | .setImageKeywords _ _ _, r => r

/-- The commands of the service, each one of the cache or one outside of it. -/
def placeImpl : Impl SvcSig (CacheCallSig.sum OutSig) := fun c =>
  .call (S := CacheCallSig.sum OutSig) c.place fun r => .ret (c.back r)

/-- The programs of the cache and of the adapter. -/
abbrev systemImpl (hasher : String → UInt32) (age : Int) (rounds : Nat) (cfg : AdapterConfig) :
    Impl (CacheCallSig.sum OutSig) SystemSig := (cacheImpl hasher age rounds).sum (outImpl cfg)

/-- A request, step by step. -/
def serveSteps (env : Env) (hasher : String → UInt32) (age : Int) (rounds : Nat) (cfg : AdapterConfig) (req : AxiomNode) :
    Prog SystemSig Abort (Option AxiomNode) :=
  ((serve env req).plug placeImpl).plug (systemImpl hasher age rounds cfg)

/-- The translator with one thread for each request, over an adapter that is constructed. -/
def systemStart {ι : Type} (env : Env) (hasher : String → UInt32) (age : Int) (rounds : Nat) (cfg : AdapterConfig)
    (s : AdapterState ι) (req : ι → AxiomNode) : Config ι (SystemState ι) SystemSig Abort (Option AxiomNode) :=
  ⟨(LockedCache.new, ((), s)), fun i => serveSteps env hasher age rounds cfg (req i)⟩

/-! ## Refinement -/

section Refinement

variable {ι : Type} [DecidableEq ι] {hasher : String → UInt32} {age : Int} {rounds : Nat} {cfg : AdapterConfig}

/-- Nothing is said of what the commands outside of the cache do. -/
abbrev openSem : Sem ι (MessageCache × Unit) (CacheCallSig.sum OutSig) := callSem.sum fun _ _ _ _ => True

theorem outImpl_call (c : OutCmd) : ∃ d k, outImpl cfg c = .call d k := by
  cases c <;> exact ⟨_, _, rfl⟩

/-- What relates the steps to the commands of the cache and those outside of it. -/
abbrev SystemShared (hasher : String → UInt32) (age : Int) (rounds : Nat) (s : SystemState ι) (u : MessageCache × Unit)
    (w : Underway ι (CacheCallSig.sum OutSig) SystemSig) : Prop :=
  Both (CacheShared hasher age rounds) (fun _ _ _ => True) s u w

theorem systemSim : Simulation (systemImpl hasher age rounds cfg) systemSem (openSem (ι := ι))
    (SystemShared hasher age rounds) :=
  cacheSim.sum (.free outImpl_call)

omit [DecidableEq ι] in
theorem system_new (s : AdapterState ι) : SystemShared hasher age rounds (LockedCache.new, ((), s))
    (.new hasher age, ()) fun _ => none :=
  ⟨_, fun _ => none, shared_new, trivial, fun _ => .neither⟩

omit [DecidableEq ι] in
/-- The commands of the cache do to it what the service says. -/
theorem open_sem {i : ι} {s s' : MessageCache × Unit} {c : SvcCmd} {r : (CacheCallSig.sum OutSig).Resp c.place}
    (h : openSem i s ⟨c.place, r⟩ s') : svcSem i s.1 ⟨c, c.back r⟩ s'.1 := by
  cases c with
  | purgeOldMessages t => exact h.1
  | «exists» id data => exact h.1
  | add id t data => exact h.1
  | _ => exact h.1

theorem placeSim : Simulation placeImpl openSem (svcSem (ι := ι)) fun s u w =>
    u = s.1 ∧ ∀ i st, w i = some st → ∃ c, st = ⟨c, placeImpl c⟩ :=
  Simulation.single open_sem

variable {env : Env} {s : AdapterState ι} {req : ι → AxiomNode} {tr : List (Event ι SystemSig)}
  {b : Config ι (SystemState ι) SystemSig Abort (Option AxiomNode)}

/-- The run as one of the service: `J` has the steps and the commands of the parts in one order, and `K` the latter and
the commands of the service. -/
structure Reveals (env : Env) (hasher : String → UInt32) (age : Int) (rounds : Nat) (cfg : AdapterConfig)
    (req : ι → AxiomNode) (tr : List (Event ι SystemSig))
    (b : Config ι (SystemState ι) SystemSig Abort (Option AxiomNode)) (J : History ι (CacheCallSig.sum OutSig) SystemSig)
    (m : Config ι (MessageCache × Unit) (CacheCallSig.sum OutSig) Abort (Option AxiomNode))
    (K : History ι SvcSig (CacheCallSig.sum OutSig)) (b' : ServiceState ι) : Prop where
  steps : Explains (systemImpl hasher age rounds cfg) openSem (.new hasher age, ())
    (fun i => (serve env (req i)).plug placeImpl) tr b J m
  commands : Explains placeImpl svcSem (.new hasher age) (fun i => serve env (req i)) (highs J) m K b'
  /-- between the commands the heap is that of the cache -/
  rest : (∀ i, ∃ res, b.prog i = .lift res) →
    b.shared.1.owner = none ∧ CacheGuarded hasher age b'.shared b.shared.1.guarded b.shared.1.heap
  /-- every message took a step -/
  small : b'.shared.size ≤ tr.length

theorem system_reveals (h : Run systemSem (systemStart env hasher age rounds cfg s req) tr b) :
    ∃ J m K b', Reveals env hasher age rounds cfg req tr b J m K b' := by
  obtain ⟨J, m, w, hsteps, hshared, hw⟩ := systemSim.run h (system_new s)
  obtain ⟨K, b', w', hcommands, ⟨hcache, _⟩, _⟩ := placeSim.run hsteps.run ⟨rfl, fun _ _ h => nomatch h⟩
  refine ⟨J, m, K, b', hsteps, hcommands, fun hend => ?_, ?_⟩
  · rw [hcache]
    exact shared_rest hshared fun i => (hw i).over (hend i).choose_spec
  · have hsize : m.shared.1.size ≤ 0 + (highs J).length := exec_size hsteps.run.exec
    have hlength := hsteps.length
    rw [hcache]
    omega

section Revealed

variable {J : History ι (CacheCallSig.sum OutSig) SystemSig}
  {m : Config ι (MessageCache × Unit) (CacheCallSig.sum OutSig) Abort (Option AxiomNode)}
  {K : History ι SvcSig (CacheCallSig.sum OutSig)} {b' : ServiceState ι}

theorem Reveals.run (h : Reveals env hasher age rounds cfg req tr b J m K b') :
    Run svcSem (start env hasher age req) (highs K) b' := h.commands.run

/-- A request is done for the service when it is. -/
theorem Reveals.done (h : Reveals env hasher age rounds cfg req tr b J m K b') {i : ι}
    {res : Except Abort (Option AxiomNode)} : b.prog i = .lift res ↔ b'.prog i = .lift res := by
  obtain ⟨_, hsteps⟩ := h.steps.threads i
  obtain ⟨_, hcommands⟩ := h.commands.threads i
  rw [hsteps.done (systemSim (ι := ι)).calls, hcommands.done (placeSim (ι := ι)).calls]

/-- A step of the adapter. -/
def adapterStep (a : Act AdapterSig) : Act SystemSig := .inr (.inr a)

/-- The exception that the caller of an operation sees. -/
def thrown (what : String) : AdapterAbort := .raised (.exception what)

theorem ends_called {α : Type} {p : Adapter α} {acts : List (Act OutsideSig)} {out : Except String α}
    (h : Ends (called p) acts (.ok out)) : ∃ tr, acts = tr.map .inr ∧ Ends p tr (out.mapError thrown) := by
  obtain ⟨x, tr₁, tr₂, rfl, h₁, h₂⟩ := ends_attempt.1 h
  obtain ⟨tr, hend, rfl⟩ := ends_inr.1 h₁
  refine ⟨tr, ?_⟩
  have hcrash : ∀ {k : Empty → Prog OutsideSig Empty (Except String α)},
      ¬Ends (.call (S := OutsideSig) (.inl .crash) k) tr₂ (.ok out) := by
    intro k hk
    obtain ⟨r, _⟩ := ends_call.1 hk
    exact r.elim
  rcases x with (_ | fn | what) | a
  · exact absurd h₂ hcrash
  · exact absurd h₂ hcrash
  · obtain ⟨rfl, hout⟩ := ends_ret.1 h₂
    cases hout
    exact ⟨List.append_nil _, hend⟩
  · obtain ⟨rfl, hout⟩ := ends_ret.1 h₂
    cases hout
    exact ⟨List.append_nil _, hend⟩

/-- What the service sees of a call of the adapter, and what the operation did. -/
inductive Performs (cfg : AdapterConfig) : Act SvcSig → List (Act AdapterSig) → Prop
  | createImage {out : Except String (DhsStatus × ImageId)} {acts : List (Act AdapterSig)}
      (h : Ends (DhsAdapter.createImage cfg "") acts (out.mapError thrown)) : Performs cfg ⟨.createImage, out⟩ acts
  | setImageLifeTime {id : ImageId} {lifeTime : DhsBdLifetime} {out : Except String DhsStatus}
      {acts : List (Act AdapterSig)} (h : Ends (DhsAdapter.setImageLifeTime cfg id lifeTime) acts (out.mapError thrown)) :
      Performs cfg ⟨.setImageLifeTime id lifeTime, out⟩ acts
  | setImageContrib {id : ImageId} {contribs : List String} {out : Except String DhsStatus}
      {acts : List (Act AdapterSig)} (h : Ends (DhsAdapter.setImageContrib cfg id contribs) acts (out.mapError thrown)) :
      Performs cfg ⟨.setImageContrib id contribs, out⟩ acts
  | setImageKeywords {id : ImageId} {keywords : List Keyword} {final : Bool} {out : Except String DhsStatus}
      {acts : List (Act AdapterSig)}
      (h : Ends (DhsAdapter.setImageKeywords cfg id keywords final) acts (out.mapError thrown)) :
      Performs cfg ⟨.setImageKeywords id keywords final, out⟩ acts

/-- The programs of the operations, by the command of the service. -/
theorem place_performs {c : SvcCmd} {out : c.Resp} {r : (CacheCallSig.sum OutSig).Resp c.place} {acts : List (Act SystemSig)}
    (hback : c.back r = out) (hout : adapterOutcome ⟨c, out⟩ ≠ none)
    (h : Ends (systemImpl hasher age rounds cfg c.place) acts (.ok r)) :
    ∃ tr : List (Act AdapterSig), acts = tr.map adapterStep ∧ Performs cfg ⟨c, out⟩ tr := by
  have hcalled : ∀ {α : Type} {p : Adapter α} {acts : List (Act SystemSig)} {out : Except String α},
      Ends (called p).inr acts (.ok out) → ∃ tr, acts = tr.map adapterStep ∧ Ends p tr (out.mapError thrown) := by
    intro α p acts out h
    obtain ⟨acts', h', rfl⟩ := ends_inr.1 h
    obtain ⟨tr, rfl, hend⟩ := ends_called h'
    exact ⟨tr, List.map_map, hend⟩
  subst hback
  cases c with
  | createImage =>
    obtain ⟨tr, hacts, hend⟩ := hcalled h
    exact ⟨tr, hacts, .createImage hend⟩
  | setImageLifeTime id lifeTime =>
    obtain ⟨tr, hacts, hend⟩ := hcalled h
    exact ⟨tr, hacts, .setImageLifeTime hend⟩
  | setImageContrib id contribs =>
    obtain ⟨tr, hacts, hend⟩ := hcalled h
    exact ⟨tr, hacts, .setImageContrib hend⟩
  | setImageKeywords id keywords final =>
    obtain ⟨tr, hacts, hend⟩ := hcalled h
    exact ⟨tr, hacts, .setImageKeywords hend⟩
  | _ => exact absurd rfl hout

/-- **A call of the adapter** is a complete run of the operation among the steps of the thread. -/
theorem Reveals.performed (h : Reveals env hasher age rounds cfg req tr b J m K b') {i : ι} {a : Act SvcSig}
    (ha : ⟨i, a⟩ ∈ highs K) (hout : adapterOutcome a ≠ none) :
    ∃ acts, Performs cfg a acts ∧ acts.map adapterStep <:+: actsOf i tr := by
  obtain ⟨c, out⟩ := a
  obtain ⟨one, hone, hend⟩ := h.commands.ran ha
  obtain ⟨r, _, rfl, hret⟩ := ends_call.1 hend
  obtain ⟨rfl, hback⟩ := ends_ret.1 hret
  have hmem : ⟨c.place, r⟩ ∈ actsOf i (highs J) := hone.subset List.mem_cons_self
  obtain ⟨acts, hacts, hend⟩ := h.steps.ran (mem_actsOf.1 hmem)
  obtain ⟨acts', rfl, hperforms⟩ := place_performs (Except.ok.inj hback).symm hout hend
  exact ⟨acts', hperforms, hacts⟩

/-- **The translator is the service over an atomic cache**: every run of its steps is a run of the commands of the
service, with the same replies, and what the service sees of a call of the adapter is how the operation ended. -/
theorem system_refines (h : Run systemSem (systemStart env hasher age rounds cfg s req) tr b) :
    ∃ J m K b', Reveals env hasher age rounds cfg req tr b J m K b' ∧
      Run svcSem (start env hasher age req) (highs K) b' ∧
      (∀ i res, b.prog i = .lift res ↔ b'.prog i = .lift res) ∧
      ∀ i a, ⟨i, a⟩ ∈ highs K → adapterOutcome a ≠ none →
        ∃ acts, Performs cfg a acts ∧ acts.map adapterStep <:+: actsOf i tr := by
  obtain ⟨J, m, K, b', hreveals⟩ := system_reveals h
  exact ⟨J, m, K, b', hreveals, hreveals.run, fun _ _ => hreveals.done, fun _ _ ha hout => hreveals.performed ha hout⟩

end Revealed

end Refinement

/-! ## A request, step by step -/

section Serving

variable {env : Env} {hasher : String → UInt32} {age : Int} {rounds : Nat} {cfg : AdapterConfig} {req : AxiomNode}
  {vars : KeywordsRequest}

/-- An operation of the adapter as it is called. -/
theorem called_ends {α : Type} {p : Adapter α} {acts : List (Act AdapterSig)} {a : α} (h : Ends p acts (.ok a)) :
    Ends (called p).inr (acts.map adapterStep) (.ok (Except.ok a)) := by
  have hcalled : Ends (called p) (acts.map Act.inr) (.ok (Except.ok a)) :=
    ends_attempt.2 ⟨_, _, [], by simp, ends_inr.2 ⟨acts, h, rfl⟩, ends_ret.2 ⟨rfl, rfl⟩⟩
  exact ends_inr.2 ⟨_, hcalled, by simp [adapterStep]⟩

/-- The steps that a command of the service takes. -/
def Takes (hasher : String → UInt32) (age : Int) (rounds : Nat) (cfg : AdapterConfig) :
    Act SvcSig → List (Act SystemSig) → Prop
  | ⟨c, out⟩, acts => ∃ r, c.back r = out ∧ Ends (systemImpl hasher age rounds cfg c.place) acts (.ok r)

/-- **Command by command**: what the service does, step by step. -/
theorem path_steps {p q : Svc (Option AxiomNode)} {svc : List (Act SvcSig)} (h : Path p svc q)
    {steps : List (List (Act SystemSig))} (hsteps : List.Forall₂ (Takes hasher age rounds cfg) svc steps) :
    Path ((p.plug placeImpl).plug (systemImpl hasher age rounds cfg)) steps.flatten
      ((q.plug placeImpl).plug (systemImpl hasher age rounds cfg)) := by
  induction h generalizing steps with
  | nil p =>
    cases hsteps
    exact .nil _
  | cons r _ ih =>
    cases hsteps with
    | cons htakes hrest =>
      obtain ⟨r', rfl, hend⟩ := htakes
      exact hend.andThen.trans (ih hrest)

/-- A request that is new, whose keywords the adapter takes. -/
theorem path_recorded {purge check add : List (Act CacheAccessSig.locked)} {put : List (Act AdapterSig)} {t : Int}
    (hwf : WellFormed env req vars) (hpurge : Ends (cacheImpl hasher age rounds (.purgeOldMessages t)) purge (.ok ()))
    (hcheck : Ends (cacheImpl hasher age rounds (.exists vars.id (env.nodeToString req))) check (.ok false))
    (hput : Ends (setImageKeywords cfg vars.id vars.keywords vars.final) put (.ok .S_SUCCESS))
    (hadd : Ends (cacheImpl hasher age rounds (.add vars.id t (env.nodeToString req))) add (.ok ())) :
    Path (serveSteps env hasher age rounds cfg req) [[⟨.inr (.inl .time), t⟩], purge.map Act.inl, check.map Act.inl,
      put.map adapterStep, add.map Act.inl].flatten (.ret (some (buildSuccessResponse none))) := by
  have htime : Ends (systemImpl hasher age rounds cfg (.inr .time)) [⟨.inr (.inl .time), t⟩] (.ok t) :=
    ends_inr.2 ⟨[⟨.inl .time, t⟩], ends_call.2 ⟨t, [], rfl, ends_ret.2 ⟨rfl, rfl⟩⟩, rfl⟩
  have hpath : Path (serve env req) ((Stage.recorded t).acts vars (env.nodeToString req))
      (.ret (some (buildSuccessResponse none))) := by
    rw [serve_transaction hwf]
    exact path_transaction.2 ⟨.recorded t, rfl, rfl⟩
  exact path_steps hpath (.cons ⟨t, rfl, htime⟩ (.cons ⟨(), rfl, ends_inl.2 ⟨purge, hpurge, rfl⟩⟩
    (.cons ⟨false, rfl, ends_inl.2 ⟨check, hcheck, rfl⟩⟩ (.cons ⟨.ok .S_SUCCESS, rfl, called_ends hput⟩
      (.cons ⟨(), rfl, ends_inl.2 ⟨add, hadd, rfl⟩⟩ .nil)))))

end Serving

/-! ## Requests that are served -/

/-- Two requests, for two images. -/
def bothRequests : Bool → AxiomNode
  | true => objectRequest
  | false => nightRequest

def bothVars : Bool → KeywordsRequest
  | true => objectVars
  | false => nightVars

theorem wellFormed_both : ∀ i, WellFormed plainEnv (bothRequests i) (bothVars i)
  | true => wellFormed_object
  | false => wellFormed_night

/-- What is stored for them. -/
def bothEntries : Bool → List AvEntry
  | true => [("OBJECT", .STRING, .string "M31")]
  | false => [("FILTER", .STRING, .string "R"), ("EXPOSED", .INT16, .int16 (-30)), ("DARK", .BOOLEAN, .boolean true)]

theorem holds_both : ∀ i, List.Forall₂ Holds (bothVars i).keywords (bothEntries i)
  | true => .cons (holds_of_iff.2 rfl) .nil
  | false => .cons (holds_of_iff.2 rfl) (.cons (holds_of_iff.2 rfl) (.cons (holds_of_iff.2 rfl) .nil))

/-- The number of the list, the command and the message of a request. -/
def handleNo : Bool → Nat
  | true => 1
  | false => 2

/-- One thread acts, then the other. -/
def inTurn {S : Sig} (acts : Bool → List (Act S)) : List (Event Bool S) :=
  (acts true).map (Event.mk true) ++ (acts false).map (Event.mk false)

theorem actsOf_inTurn {S : Sig} (acts : Bool → List (Act S)) (i : Bool) : actsOf i (inTurn acts) = acts i := by
  unfold inTurn
  rw [actsOf_append, actsOf_map, actsOf_map]
  cases i <;> simp

theorem exec_inTurn {S : Sig} {σ : Type} {sem : Sem Bool σ S} {acts : Bool → List (Act S)} {s s' s'' : σ}
    (h : Exec sem s ((acts true).map (Event.mk true)) s') (h' : Exec sem s' ((acts false).map (Event.mk false)) s'') :
    Exec sem s (inTurn acts) s'' := exec_append.2 ⟨s', h, h'⟩

/-- The accesses of a purge that finds nothing. -/
def purgeActs : List (Act CacheAccessSig.locked) := [⟨.lock, ()⟩, ⟨.access .begin, none⟩, ⟨.unlock, ()⟩]

/-- The accesses of a check that finds nothing. -/
def missActs (id : ImageId) : List (Act CacheAccessSig.locked) :=
  [⟨.lock, ()⟩, ⟨.access (.find id), none⟩, ⟨.unlock, ()⟩]

/-- The accesses of an addition. -/
def addActs (m : MessagePtr) (id : ImageId) (msg : String) : List (Act CacheAccessSig.locked) :=
  [⟨.access .new, m⟩, ⟨.access (.setData m msg), ()⟩, ⟨.access (.setHash m 0), ()⟩, ⟨.access (.setTimestamp m 0), ()⟩,
   ⟨.lock, ()⟩, ⟨.access (.subscript id), ()⟩, ⟨.access (.pushBack id m), ()⟩, ⟨.unlock, ()⟩]

/-- The text of a request. -/
def bothText (i : Bool) : String := plainEnv.nodeToString (bothRequests i)

/-- Up to its keywords. -/
def askSteps (i : Bool) : List (Act SystemSig) :=
  [⟨.inr (.inl .time), (0 : Int)⟩] ++ (purgeActs.map Act.inl ++ (missActs (bothVars i).id).map Act.inl)

/-- Its keywords are stored under the lock. -/
def putActs (i : Bool) : List (Act AdapterSig) :=
  storedSection (.handle 1) ⟨handleNo i⟩ ⟨handleNo i⟩ (bothVars i).id (bothEntries i) (bothVars i).final

/-- It is remembered. -/
def keepActs (i : Bool) : List (Act CacheAccessSig.locked) := addActs ⟨handleNo i⟩ (bothVars i).id (bothText i)

/-- What serving both does: each thread gets as far as the other before it goes on. -/
def bothSteps : List (Event Bool SystemSig) :=
  inTurn askSteps ++ (inTurn (fun _ => connectedTrace.map adapterStep) ++
    (inTurn (fun i => (putActs i).map adapterStep) ++ inTurn fun i => (keepActs i).map Act.inl))

theorem actsOf_both (i : Bool) : actsOf i bothSteps = [[(⟨.inr (.inl .time), (0 : Int)⟩ : Act SystemSig)], purgeActs.map Act.inl,
    (missActs (bothVars i).id).map Act.inl, (connectedTrace ++ putActs i).map adapterStep,
    (keepActs i).map Act.inl].flatten := by
  unfold bothSteps
  simp [actsOf_inTurn, askSteps]

theorem path_both (i : Bool) : Path (serveSteps plainEnv (fun _ => 0) 90 20 plainConfig (bothRequests i))
    (actsOf i bothSteps) (.ret (some (buildSuccessResponse none))) := by
  have hpurge : Ends (cacheImpl (fun _ => 0) 90 20 (.purgeOldMessages 0)) purgeActs (.ok ()) := by
    repeat first | exact Path.nil _ | apply Path.cons
  have hmiss : ∀ id msg, Ends (cacheImpl (fun _ => 0) 90 20 (.exists id msg)) (missActs id) (.ok false) := by
    intro id msg
    repeat first | exact Path.nil _ | apply Path.cons
  have hadd : ∀ m id msg, Ends (cacheImpl (fun _ => 0) 90 20 (.add id 0 msg)) (addActs m id msg) (.ok ()) := by
    intro m id msg
    repeat first | exact Path.nil _ | apply Path.cons
  have hsome : (bothVars i).keywords ≠ [] := by cases i <;> exact List.cons_ne_nil _ _
  rw [actsOf_both]
  exact path_recorded (wellFormed_both i) hpurge (hmiss _ _)
    (ends_stored _ _ _ _ _ _ hsome (holds_both i)) (hadd _ _ _)

/-- The cache with both messages. -/
def bothCache : LockedState Bool :=
  ⟨none, [("GS1", [⟨1⟩]), ("GS2", [⟨2⟩])],
    (Cells.none.new ⟨1⟩ ⟨0, 0, bothText true⟩).new ⟨2⟩ ⟨0, 0, bothText false⟩⟩

theorem exec_keep : Exec (monitorSem accessEff) LockedCache.new (inTurn keepActs) bothCache := by
  have haccess : ∀ {i : Bool} {o : Option Bool} {g g' h h' c r}, AccessDone g h ⟨c, r⟩ g' h' →
      monitorSem accessEff i ⟨o, g, h⟩ ⟨.access c, r⟩ ⟨o, g', h'⟩ := fun hdone => ⟨rfl, fun _ => hdone⟩
  have hadd : ∀ {i : Bool} {m : MessagePtr} {id : ImageId} {msg : String} {g g₁ g₂ : PtrMap} {h h₁ : Cells MessagePtr Message},
      h m = none → AccessDone g (h.new m ⟨0, 0, msg⟩) ⟨.subscript id, ()⟩ g₁ (h.new m ⟨0, 0, msg⟩) →
      AccessDone g₁ (h.new m ⟨0, 0, msg⟩) ⟨.pushBack id m, ()⟩ g₂ h₁ →
      Exec (monitorSem accessEff) ⟨none, g, h⟩ ((addActs m id msg).map (Event.mk i)) ⟨none, g₂, h₁⟩ := by
    intro i m id msg g g₁ g₂ h h₁ hm hsub hpush
    refine ⟨_, haccess ⟨hm, rfl, 0, 0, rfl⟩, _, haccess ⟨rfl, _, Cells.new_self, rfl⟩, _,
      haccess ⟨rfl, _, Cells.new_self, rfl⟩, _, haccess ⟨rfl, _, Cells.new_self, rfl⟩, _, ⟨rfl, rfl⟩, ?_⟩
    simp only [Cells.new, Function.update_idem]
    exact ⟨_, haccess hsub, _, haccess hpush, _, rfl, rfl⟩
  exact exec_inTurn (hadd rfl ⟨rfl, rfl⟩ ⟨rfl, rfl⟩) (hadd rfl ⟨rfl, rfl⟩ ⟨rfl, rfl⟩)

/-- What the adapter does alone. -/
theorem exec_adapter {i : Bool} {c : LockedState Bool} {acts : List (Act AdapterSig)}
    (hx : Exec adapterSem plainNew.state (acts.map (Event.mk i)) plainNew.state) :
    Exec systemSem (c, ((), plainNew.state)) ((acts.map adapterStep).map (Event.mk i)) (c, ((), plainNew.state)) := by
  have hsteps : acts.map adapterStep = (acts.map Act.inr).map Act.inr := List.map_map.symm
  rw [hsteps]
  exact exec_inr c (exec_inr () hx)

theorem exec_bothSteps : Exec systemSem (LockedCache.new, ((), plainNew.state)) bothSteps
    (bothCache, ((), plainNew.state)) := by
  have haccess : ∀ {i : Bool} {c r}, AccessDone [] .none ⟨c, r⟩ [] .none →
      monitorSem accessEff i ⟨some i, [], .none⟩ ⟨.access c, r⟩ ⟨some i, [], .none⟩ := fun hdone =>
    ⟨rfl, fun _ => hdone⟩
  have hask : ∀ i, Exec systemSem (LockedCache.new, ((), plainNew.state)) ((askSteps i).map (Event.mk i))
      (LockedCache.new, ((), plainNew.state)) := by
    intro i
    have hpurge : Exec (monitorSem accessEff) LockedCache.new (purgeActs.map (Event.mk i)) LockedCache.new :=
      ⟨_, ⟨rfl, rfl⟩, _, haccess ⟨rfl, rfl, rfl⟩, _, rfl, rfl⟩
    have hmiss : Exec (monitorSem accessEff) LockedCache.new ((missActs (bothVars i).id).map (Event.mk i))
        LockedCache.new := ⟨_, ⟨rfl, rfl⟩, _, haccess ⟨rfl, rfl, rfl⟩, _, rfl, rfl⟩
    unfold askSteps
    simp only [List.map_append, List.map_cons, List.cons_append, List.nil_append]
    exact ⟨_, ⟨rfl, trivial, rfl⟩, exec_append.2 ⟨_, exec_inl ((), plainNew.state) hpurge,
      exec_inl ((), plainNew.state) hmiss⟩⟩
  have hcheck : Exec systemSem (LockedCache.new, ((), plainNew.state)) (inTurn fun _ => connectedTrace.map adapterStep)
      (LockedCache.new, ((), plainNew.state)) :=
    exec_inTurn (exec_adapter (exec_connected rfl rfl)) (exec_adapter (exec_connected rfl rfl))
  have hput : Exec systemSem (LockedCache.new, ((), plainNew.state)) (inTurn fun i => (putActs i).map adapterStep)
      (LockedCache.new, ((), plainNew.state)) :=
    exec_inTurn (exec_adapter (exec_stored rfl rfl _ _ _ _)) (exec_adapter (exec_stored rfl rfl _ _ _ _))
  have hkeep : Exec systemSem (LockedCache.new, ((), plainNew.state)) (inTurn fun i => (keepActs i).map Act.inl)
      (bothCache, ((), plainNew.state)) := by
    obtain ⟨c, htrue, hfalse⟩ := exec_append.1 exec_keep
    exact exec_inTurn (exec_inl _ htrue) (exec_inl _ hfalse)
  exact exec_append.2 ⟨_, exec_inTurn (hask true) (hask false),
    exec_append.2 ⟨_, hcheck, exec_append.2 ⟨_, hput, hkeep⟩⟩⟩

/-- The new adapter that serves the requests. -/
theorem plain_constructed : Constructed plainConfig (plainNew.acts.map (Event.mk false)) plainNew.state :=
  ⟨false, true, .CONNECT_NULL, plainNew.acts, rfl, run_ends _ _ _, runPlain_exec _ _ _⟩

/-- The configuration at first. -/
def bothStart : Config Bool (SystemState Bool) SystemSig Abort (Option AxiomNode) :=
  systemStart plainEnv (fun _ => 0) 90 20 plainConfig plainNew.state bothRequests

/-- The configuration in the end. -/
def bothServed : Config Bool (SystemState Bool) SystemSig Abort (Option AxiomNode) :=
  ⟨(bothCache, ((), plainNew.state)), fun _ => .ret (some (buildSuccessResponse none))⟩

/-- **The requests are served** at the same time. -/
theorem both_run : Run systemSem bothStart bothSteps bothServed := run_iff.2 ⟨exec_bothSteps, path_both⟩

theorem system_refines_both : ∃ J m K b', Reveals plainEnv (fun _ => 0) 90 20 plainConfig bothRequests bothSteps
    bothServed J m K b' ∧ Run svcSem (start plainEnv (fun _ => 0) 90 bothRequests) (highs K) b' ∧
    ∀ i, b'.prog i = .ret (some (buildSuccessResponse none)) := by
  obtain ⟨J, m, K, b', hreveals, hservice, hsame, _⟩ := system_refines both_run
  exact ⟨J, m, K, b', hreveals, hservice, fun i => (hsame i (.ok (some (buildSuccessResponse none)))).1 rfl⟩

end DhsTranslator
