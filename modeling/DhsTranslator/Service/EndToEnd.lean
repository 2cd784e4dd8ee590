import DhsTranslator.Adapter.Handles
import DhsTranslator.Service.System

/-!
# From requests to the library

What requests have made of the library, when the whole translator serves them.

- `systemDiscipline`: the lock of the adapter, its connection and its lists are only touched between the accesses to the
  cache;
- `acknowledged_stored`, `nothing_else_issued`: what the library has stored and what the clients sent.
-/

namespace DhsTranslator

open Conc DhsAdapter DhsService

/-! ## The discipline of the translator -/

/-- A thread that is not in an operation of the adapter. -/
def Rested (φ : Phase × DraftPhase) : Prop := (∃ up, φ.1 = .free up) ∧ φ.2.draft = .nothing

/-- The adapter next to the host. -/
abbrev outsideDiscipline (jobs : Put → Prop) : Discipline OutsideSig (Phase × DraftPhase) :=
  (connectOnce.both (drafting jobs)).beside Rested HostSig

/-- The adapter next to the cache. -/
abbrev systemDiscipline (jobs : Put → Prop) : Discipline SystemSig (Phase × DraftPhase) :=
  (outsideDiscipline jobs).beside Rested CacheAccessSig.locked

section Disciplined

variable {α : Type} {jobs : Put → Prop} {cfg : AdapterConfig} {φ : Phase × DraftPhase}

/-- What an operation of the adapter leaves, its caller goes on with. -/
theorem follows_called {p : Adapter α} (h : Follows (connectOnce.both (drafting jobs)) p φ fun _ ψ => Rested ψ) :
    Follows (outsideDiscipline jobs) (called p) φ fun _ ψ => Rested ψ := by
  refine follows_attempt.2 (follows_inr (h.mono fun x ψ hψ => ?_))
  rcases x with (_ | _ | _) | a
  · exact ⟨hψ, fun r => r.elim⟩
  · exact ⟨hψ, fun r => r.elim⟩
  · exact hψ
  · exact hψ

/-- The keywords that are to be set are among the jobs. -/
def OutCmd.Fair (jobs : Put → Prop) : OutCmd → Prop
  | .setImageKeywords id keywords final => ∀ es, List.Forall₂ Holds keywords es → jobs ⟨id, final, es⟩
  | _ => True

theorem follows_operations {c : OutCmd} (hc : c.Fair jobs) (hφ : Rested φ) :
    Follows (outsideDiscipline jobs) (outImpl cfg c) φ fun _ ψ => Rested ψ := by
  obtain ⟨⟨up, hup⟩, hdraft⟩ := hφ
  have hboth : ∀ {α : Type} {p : Adapter α}, Follows connectOnce p (.free up) AtRest →
      Follows (drafting jobs) p φ.2 (fun _ ψ => ψ.draft = .nothing) →
      Follows (connectOnce.both (drafting jobs)) p φ fun _ ψ => Rested ψ := by
    intro α p h h'
    rw [← hup] at h
    exact follows_both h h'
  cases c with
  | time => exact ⟨⟨⟨up, hup⟩, hdraft⟩, fun t => ⟨⟨up, hup⟩, hdraft⟩⟩
  | createImage => exact follows_called (hboth (follows_createImage "") (follows_draft_createImage hdraft ""))
  | setImageLifeTime id lifeTime =>
    exact follows_called (hboth (follows_setImageLifeTime id lifeTime) (follows_draft_setImageLifeTime hdraft id lifeTime))
  | setImageContrib id contribs =>
    exact follows_called (hboth (follows_setImageContrib id contribs) (follows_draft_setImageContrib hdraft id contribs))
  | setImageKeywords id keywords final =>
    exact follows_called (hboth (follows_setImageKeywords id keywords final)
      ((follows_draft_setImageKeywords hdraft hc).mono fun _ _ h => h.1))

/-- What was read from a request is among the jobs. -/
def JobsOf {ι : Type} (env : Env) (req : ι → AxiomNode) (p : Put) : Prop :=
  ∃ j vars, WellFormed env (req j) vars ∧ vars.id = p.id ∧ vars.final = p.final ∧
    List.Forall₂ Holds vars.keywords p.entries

/-- **Serving a request** follows the discipline. -/
theorem follows_serveSteps {ι : Type} {env : Env} {hasher : String → UInt32} {age : Int} {rounds : Nat}
    {req : ι → AxiomNode} (i : ι) (hφ : Rested φ) :
    Follows (systemDiscipline (JobsOf env req)) (serveSteps env hasher age rounds cfg (req i)) φ fun _ ψ => Rested ψ := by
  have hplaced : Follows (.only fun c => ∀ c', c = Sum.inr c' → c'.Fair (JobsOf env req))
      ((serve env (req i)).plug placeImpl) () fun _ _ => True := by
    refine follows_plug (serve_asks env (req i)) (fun c φ hc _ => ?_) trivial
    refine ⟨fun c' hc' => ?_, fun _ => trivial⟩
    cases c with
    | setImageKeywords id keywords final =>
      cases hc'
      exact fun es hes => ⟨i, _, hc, rfl, rfl, hes⟩
    | _ => cases hc' <;> trivial
  refine follows_plug hplaced (fun c ψ hc hψ => ?_) hφ
  cases c with
  | inl c => exact follows_inl hψ
  | inr c => exact follows_inr (follows_operations (hc c rfl) hψ)

end Disciplined

/-! ## The state of the adapter and of the library -/

section Adapters

variable {ι : Type} [DecidableEq ι] {cfg : AdapterConfig} {jobs : Put → Prop} {past T : List (Event ι AdapterSig)}
  {s s' : AdapterState ι} {L L' : Library ι}

/-- Where the threads are at first. -/
def atFirst (L : Library ι) (i : ι) : Phase × DraftPhase := (.free false, ⟨.nothing, L.given i, [], false⟩)

omit [DecidableEq ι] in
theorem rested_first (L : Library ι) (i : ι) : Rested (atFirst L i) := ⟨⟨false, rfl⟩, rfl⟩

omit [DecidableEq ι] in
theorem drafts_first (L : Library ι) : Drafts jobs L L (atFirst L) where
  given _ := rfl
  outside _ _ := rfl
  owns _ h := nomatch h
  rest _ := ⟨rfl, rfl⟩
  right _ := rfl
  stored _ _ hp := absurd hp List.not_mem_nil
  issued _ hp := Or.inl hp

/-- **Permitted events** of an adapter that was constructed leave it safe, and the library as its calls know it. -/
theorem permitted_drafts (hnew : Constructed cfg past s)
    (hp : Permitted (connectOnce.both (drafting jobs)) (atFirst L) T) (hx : Exec adapterSem s T s')
    (hlib : Exec librarySem L T L') :
    Safe (past ++ T) s' (fun i => (phases (connectOnce.both (drafting jobs)) (atFirst L) T i).1) ∧
      Drafts jobs L L' (phases (connectOnce.both (drafting jobs)) (atFirst L) T) :=
  hp.keeps keeps_drafts ⟨constructed_safe hnew, drafts_first L⟩ (exec_both hx hlib)

omit [DecidableEq ι] in
theorem Library.done_after (L : Library ι) (f : LibCall) (r : f.Answer) {p : Put} (hp : p ∈ L.done) :
    p ∈ (L.after f r).done := by
  cases f with
  | dhsStatus tag =>
    obtain ⟨_ | code, _ | _ | other⟩ := r
    · exact List.mem_append_left _ hp
    all_goals exact hp
  | dhsAvListFree l => exact hp
  | dhsTagFree tag => exact hp
  | _ => obtain ⟨_, _ | _ | other⟩ := r <;> exact hp

/-- What is stored stays. -/
theorem done_exec (h : Exec librarySem L T L') {p : Put} (hp : p ∈ L.done) : p ∈ L'.done := by
  induction T generalizing L with
  | nil => rwa [exec_nil.1 h]
  | cons e T ih =>
    obtain ⟨i, ⟨c, r⟩⟩ := e
    obtain ⟨m, hm, hx⟩ := exec_cons.1 h
    refine ih hx ?_
    cases c with
    | enter f status =>
      obtain rfl : m = { L with given := Function.update L.given i status } := hm
      exact hp
    | leave f =>
      rw [hm.2.2]
      exact L.done_after f r hp
    | _ =>
      obtain rfl : m = L := hm
      exact hp

/-- **A call for keywords that succeeds** has them stored. -/
theorem call_stored (hnew : Constructed cfg past s)
    (hp : Permitted (connectOnce.both (drafting jobs)) (atFirst L) T) (hx : Exec adapterSem s T s')
    (hlib : Exec librarySem L T L') {i : ι} {id : ImageId} {keywords : List Keyword} {final : Bool}
    {acts : List (Act AdapterSig)} (hjobs : ∀ es, List.Forall₂ Holds keywords es → jobs ⟨id, final, es⟩)
    (hacts : acts <:+: actsOf i T) (hend : Ends (setImageKeywords cfg id keywords final) acts (.ok .S_SUCCESS))
    (hk : keywords ≠ []) : ∃ es, List.Forall₂ Holds keywords es ∧ ⟨id, final, es⟩ ∈ L'.done := by
  obtain ⟨pre, post, hpieces⟩ := hacts
  obtain ⟨T₁, T₂, rfl, hT₁, _⟩ := actsOf_split hpieces.symm
  obtain ⟨T₀, rest, rfl, hT₀, _⟩ := actsOf_split hT₁
  obtain ⟨locked, acts', rfl, _⟩ := ends_call.1 hend
  -- the call begins with the lock free, and nothing under way
  obtain ⟨⟨up, hup⟩, _⟩ := hp.append.may hT₁
  obtain ⟨s₁, hx₁, _⟩ := exec_append.1 hx
  obtain ⟨s₀, hx₀, _⟩ := exec_append.1 hx₁
  obtain ⟨L₁, hlib₁, hlib₂⟩ := exec_append.1 hlib
  obtain ⟨L₀, hlib₀, _⟩ := exec_append.1 hlib₁
  obtain ⟨_, hdrafts₀⟩ := permitted_drafts hnew hp.append.append hx₀ hlib₀
  have hphase : phases (connectOnce.both (drafting jobs)) (atFirst L) T₀ i =
      pre.foldl (connectOnce.both (drafting jobs)).next (atFirst L i) := by
    unfold phases
    rw [hT₀]
  have hdraft := hdrafts₀.outside i (by rw [hphase, hup]; rfl)
  rw [hphase] at hdraft
  -- it leaves what it has stored in its phase
  have hlocks : Follows connectOnce (setImageKeywords cfg id keywords final) _ AtRest :=
    hup ▸ follows_setImageKeywords id keywords final
  have hfollows := follows_both hlocks (follows_draft_setImageKeywords hdraft hjobs)
  obtain ⟨_, _, hsuccess⟩ := hfollows.ends hend
  obtain ⟨_, hdrafts₁⟩ := permitted_drafts hnew hp.append hx₁ hlib₁
  have hphase₁ : phases (connectOnce.both (drafting jobs)) (atFirst L) (T₀ ++ rest) i =
      (⟨.timedLock, locked⟩ :: acts').foldl (connectOnce.both (drafting jobs)).next
        (pre.foldl (connectOnce.both (drafting jobs)).next (atFirst L i)) := by
    unfold phases
    rw [hT₁, List.foldl_append]
  rw [← hphase₁] at hsuccess
  rcases hsuccess rfl hk with hbroken | ⟨es, hes, hstored⟩
  · cases hbroken.symm.trans (hdrafts₁.right i)
  · exact ⟨es, hes, done_exec hlib₂ (hdrafts₁.stored i _ hstored)⟩

end Adapters

/-! ## What was stored -/

section Stored

variable {ι : Type} [DecidableEq ι] {env : Env} {hasher : String → UInt32} {age : Int} {rounds : Nat}
  {cfg : AdapterConfig} {req : ι → AxiomNode} {past : List (Event ι AdapterSig)} {s : AdapterState ι} {L L' : Library ι}
  {tr : List (Event ι SystemSig)} {b : Config ι (SystemState ι) SystemSig Abort (Option AxiomNode)}

/-- The events of the adapter. -/
abbrev adapterEvents (tr : List (Event ι SystemSig)) : List (Event ι AdapterSig) := rights (rights tr)

theorem system_permitted (h : Run systemSem (systemStart env hasher age rounds cfg s req) tr b) (L : Library ι) :
    Permitted (systemDiscipline (JobsOf env req)) (atFirst L) tr ∧
      ∀ i, Follows (systemDiscipline (JobsOf env req)) (b.prog i)
        (phases (systemDiscipline (JobsOf env req)) (atFirst L) tr i) fun _ ψ => Rested ψ :=
  h.permits fun i => follows_serveSteps i (rested_first L i)

theorem system_exec (h : Run systemSem (systemStart env hasher age rounds cfg s req) tr b) :
    Exec adapterSem s (adapterEvents tr) b.shared.2.2 := exec_rights (exec_rights h.exec)

/-- The keywords of a request with this id and this text are stored. -/
def StoredFor (env : Env) (req : ι → AxiomNode) (L : Library ι) (id : ImageId) (msg : String) : Prop :=
  ∃ j vars, WellFormed env (req j) vars ∧ vars.id = id ∧ env.nodeToString (req j) = msg ∧
    (vars.keywords ≠ [] → ∃ es, List.Forall₂ Holds vars.keywords es ∧ ⟨vars.id, vars.final, es⟩ ∈ L.done)

/-- The steps of an operation are steps of the adapter. -/
theorem infix_adapter {i : ι} {acts : List (Act AdapterSig)} (h : acts.map adapterStep <:+: actsOf i tr) :
    acts <:+: actsOf i (adapterEvents tr) := by
  have hback : ((acts.map adapterStep).filterMap Act.right?).filterMap Act.right? = acts := by
    rw [List.filterMap_filterMap, List.filterMap_map]
    exact List.filterMap_some
  rw [actsOf_rights, actsOf_rights, ← hback]
  exact (h.filterMap Act.right?).filterMap Act.right?

/-- **What was delivered is stored**: the successful call that the service saw is a complete call of the operation. -/
theorem Reveals.stored {J : History ι (CacheCallSig.sum OutSig) SystemSig}
    {m : Config ι (MessageCache × Unit) (CacheCallSig.sum OutSig) Abort (Option AxiomNode)}
    {K : History ι SvcSig (CacheCallSig.sum OutSig)} {b' : ServiceState ι}
    (hreveals : Reveals env hasher age rounds cfg req tr b J m K b') (hnew : Constructed cfg past s)
    (h : Run systemSem (systemStart env hasher age rounds cfg s req) tr b)
    (hlib : Exec librarySem L (adapterEvents tr) L') {id : ImageId} {msg : String}
    (hdelivered : Delivered env req (highs K) id msg) : StoredFor env req L' id msg := by
  obtain ⟨j, vars, hwf, hid, hmsg, hcall⟩ := hdelivered
  refine ⟨j, vars, hwf, hid, hmsg, fun hk => ?_⟩
  obtain ⟨acts, hperforms, hinfix⟩ := hreveals.performed hcall (by simp [adapterOutcome])
  obtain ⟨hpermitted, _⟩ := system_permitted h L
  cases hperforms with
  | setImageKeywords hend =>
    exact call_stored hnew hpermitted.rights.rights (system_exec h) hlib
      (fun es hes => ⟨j, vars, hwf, rfl, rfl, hes⟩) (infix_adapter hinfix) hend hk

/-- **What is acknowledged is stored**, down to the entries of the list that was put. -/
theorem acknowledged_stored (hnew : Constructed cfg past s)
    (h : Run systemSem (systemStart env hasher age rounds cfg s req) tr b)
    (hlib : Exec librarySem L (adapterEvents tr) L') {i : ι} {reply : AxiomNode} (hop : (req i).IsNamed "setKeywords")
    (hdone : b.prog i = .ret (some reply)) (hok : IsSuccess reply) :
    ∃ vars, WellFormed env (req i) vars ∧ StoredFor env req L' vars.id (env.nodeToString (req i)) := by
  obtain ⟨J, m, K, b', hreveals⟩ := system_reveals h
  have hsame : b.prog i = .lift (.ok (some reply)) ↔ b'.prog i = .lift (.ok (some reply)) := hreveals.done
  have hdone' : b'.prog i = .ret (some reply) := hsame.1 hdone
  obtain ⟨vars, hwf, hdelivered⟩ := success_delivered hreveals.run hop hdone' hok
  exact ⟨vars, hwf, hreveals.stored hnew h hlib hdelivered⟩

/-- The library is as the calls of the adapter know it. -/
theorem system_drafts (hnew : Constructed cfg past s)
    (h : Run systemSem (systemStart env hasher age rounds cfg s req) tr b)
    (hlib : Exec librarySem L (adapterEvents tr) L') :
    ∃ φ, Safe (past ++ adapterEvents tr) b.shared.2.2 (fun i => (φ i).1) ∧ Drafts (JobsOf env req) L L' φ :=
  ⟨_, permitted_drafts hnew (system_permitted h L).1.rights.rights (system_exec h) hlib⟩

/-- **Nothing else is issued** than what was read from the requests. -/
theorem nothing_else_issued (hnew : Constructed cfg past s)
    (h : Run systemSem (systemStart env hasher age rounds cfg s req) tr b)
    (hlib : Exec librarySem L (adapterEvents tr) L') : ∀ p ∈ L'.issued, p ∈ L.issued ∨ JobsOf env req p := by
  obtain ⟨_, _, hdrafts⟩ := system_drafts hnew h hlib
  exact hdrafts.issued

/-- **Lists and commands are given back** when nobody has the lock of the adapter. -/
theorem lists_given_back (hnew : Constructed cfg past s)
    (h : Run systemSem (systemStart env hasher age rounds cfg s req) tr b)
    (hlib : Exec librarySem L (adapterEvents tr) L') (hfree : b.shared.2.2.owner = none) :
    L'.lists = L.lists ∧ L'.tags = L.tags := by
  obtain ⟨_, hsafe, hdrafts⟩ := system_drafts hnew h hlib
  exact hdrafts.returned hsafe hfree

/-- **Handles are used as they should be**: a library call that is about a list or a command is about what its own thread
has got and not yet given back, alive if the call has something to do, and no other thread has any. -/
theorem handles_owned (hnew : Constructed cfg past s)
    (h : Run systemSem (systemStart env hasher age rounds cfg s req) tr b) {pre post : List (Event ι AdapterSig)} {i : ι}
    {f : LibCall} {status : DhsStatus} (htr : adapterEvents tr = pre ++ ⟨i, ⟨.enter f status, ()⟩⟩ :: post)
    (hlib : Exec librarySem L pre L') :
    HandlesUsed L' (handles (actsOf i pre)) f status ∧ ∀ j ≠ i, handles (actsOf j pre) = (none, none) := by
  obtain ⟨hsystem, _⟩ := system_permitted h L
  have hpermitted : Permitted _ _ (adapterEvents tr) := hsystem.rights.rights
  have hx := system_exec h
  have hmay := hpermitted pre _ post htr
  rw [htr] at hpermitted hx
  obtain ⟨m, hpre, _⟩ := exec_append.1 hx
  obtain ⟨hsafe, hdrafts⟩ := permitted_drafts hnew hpermitted.append hpre hlib
  obtain ⟨⟨l, hl, _⟩, hfits⟩ := hmay
  have hholds : (phases (connectOnce.both (drafting (JobsOf env req))) (atFirst L) pre i).1.holds = true := by
    rw [hl]
    rfl
  have hmine : ∀ j, (phases (connectOnce.both (drafting (JobsOf env req))) (atFirst L) pre j).2.draft.handles =
      handles (actsOf j pre) := fun j => draft_handles hpermitted.append rfl
  refine ⟨hmine i ▸ (hdrafts.owns i hholds).handles_used hfits, fun j hj => ?_⟩
  rw [← hmine j, hdrafts.outside j (hsafe.alone hholds hj)]
  rfl

end Stored

/-! ## Requests that are served -/

/-- A library without lists. -/
def emptyLibrary : Library Bool := ⟨fun _ => .S_SUCCESS, fun _ => none, fun _ => none, [], []⟩

/-- What is put for the requests. -/
def bothPuts : List Put := [true, false].map fun i => ⟨(bothVars i).id, (bothVars i).final, bothEntries i⟩

/-- The library afterwards. -/
def servedLibrary : Library Bool := { emptyLibrary with issued := bothPuts, done := bothPuts }

theorem adapterEvents_both : adapterEvents bothSteps = inTurn (fun _ => connectedTrace) ++ inTurn putActs := by
  have hcache : ∀ {i : Bool} (acts : List (Act CacheAccessSig.locked)),
      adapterEvents ((acts.map Act.inl).map (Event.mk i)) = [] := fun acts => by
    rw [adapterEvents, rights_inl]
    rfl
  have hask : ∀ i, adapterEvents ((askSteps i).map (Event.mk i)) = [] := fun i => rfl
  have hadapter : ∀ {i : Bool} (acts : List (Act AdapterSig)),
      adapterEvents ((acts.map adapterStep).map (Event.mk i)) = acts.map (Event.mk i) := fun acts => by
    have hsteps : acts.map adapterStep = (acts.map Act.inr).map Act.inr := List.map_map.symm
    rw [adapterEvents, hsteps, rights_inr, rights_inr]
  have happend : ∀ tr tr' : List (Event Bool SystemSig), adapterEvents (tr ++ tr') = adapterEvents tr ++ adapterEvents tr' :=
    fun tr tr' => by simp only [adapterEvents, rights_append]
  simp only [bothSteps, inTurn, happend, hask, hadapter, keepActs, hcache, List.append_nil, List.nil_append]

/-- **The library stores what was put.** -/
theorem library_both : Exec librarySem emptyLibrary (adapterEvents bothSteps) servedLibrary := by
  have hcheck : ∀ i, Exec librarySem emptyLibrary (connectedTrace.map (Event.mk i)) emptyLibrary := fun i =>
    ⟨_, rfl, _, rfl, _, rfl, _, rfl, rfl⟩
  rw [adapterEvents_both]
  exact exec_append.2 ⟨_, exec_inTurn (hcheck true) (hcheck false),
    exec_inTurn (library_stores rfl rfl rfl _ _ _) (library_stores rfl rfl rfl _ _ _)⟩

theorem acknowledged_stored_both : (∃ vars, WellFormed plainEnv objectRequest vars ∧
      StoredFor plainEnv bothRequests servedLibrary vars.id (bothText true)) ∧
    ∃ vars, WellFormed plainEnv nightRequest vars ∧
      StoredFor plainEnv bothRequests servedLibrary vars.id (bothText false) :=
  ⟨acknowledged_stored plain_constructed both_run library_both (wellFormed_both true).op rfl (isSuccess_success none),
    acknowledged_stored plain_constructed both_run library_both (wellFormed_both false).op rfl (isSuccess_success none)⟩

theorem nothing_else_issued_both : servedLibrary.issued = bothPuts ∧
    ∀ p ∈ bothPuts, p ∈ emptyLibrary.issued ∨ JobsOf plainEnv bothRequests p :=
  ⟨rfl, nothing_else_issued plain_constructed both_run library_both⟩

theorem handles_owned_both : ∃ pre post, ∃ L' : Library Bool,
    adapterEvents bothSteps = pre ++ ⟨false, ⟨.enter (.dhsWait ⟨2⟩) .S_SUCCESS, ()⟩⟩ :: post ∧
    HandlesUsed L' (handles (actsOf false pre)) (.dhsWait ⟨2⟩) .S_SUCCESS ∧
    ∀ j ≠ false, handles (actsOf j pre) = (none, none) := by
  have hsplit : ∃ pre post, adapterEvents bothSteps =
      pre ++ ⟨false, ⟨.enter (.dhsWait ⟨2⟩) .S_SUCCESS, ()⟩⟩ :: post := by
    rw [adapterEvents_both]
    exact ⟨(inTurn (fun _ => connectedTrace) ++ inTurn putActs).take 41, _, rfl⟩
  obtain ⟨pre, post, htr⟩ := hsplit
  have hlib := library_both
  rw [htr] at hlib
  obtain ⟨L', hpre, _⟩ := exec_append.1 hlib
  exact ⟨pre, post, L', htr, handles_owned plain_constructed both_run htr hpre⟩

theorem lists_given_back_both : servedLibrary.lists = emptyLibrary.lists ∧ servedLibrary.tags = emptyLibrary.tags :=
  lists_given_back plain_constructed both_run library_both rfl

end DhsTranslator
