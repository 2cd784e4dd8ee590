import DhsTranslator.Adapter.Discipline

/-!
# Safe use of the client library

Any number of calls of the operations, interleaved in any order, on an adapter that has been constructed; lock attempts
may time out and library calls may answer anything.

- `Safe` ties the phases of all calls to the lock and to the shared fields; every step of the discipline keeps it
  (`keeps_safe`), and the constructor leaves it (`constructed_safe`);
- `safe_use`: library calls exclude each other and are made under the lock, with the connection of the one successful
  `dhsConnect`.
-/

namespace DhsTranslator

open Conc DhsAdapter

/-! ## The invariant -/

def Phase.holds : Phase → Bool
  | .free _ => false
  | .held _ | .within _ _ => true

def Phase.inside : Phase → Option LibCall
  | .within f _ => some f
  | .free _ | .held _ => none

def Phase.link : Phase → Link
  | .free up => .ofBool up
  | .held l | .within _ l => l

section Invariant

variable {ι : Type}

/-- What is known of the connection is true. -/
def Link.Holds (tr : List (Event ι AdapterSig)) (s : AdapterState ι) : Link → Prop
  | .unknown => True
  | .up => s.isConnected = true
  | .read c => s.isConnected = true ∧ s.connection = c
  | .down => s.isConnected = false ∧ connects tr = []
  | .answered c ok => s.isConnected = false ∧ connects tr = (if ok then [c] else []) ∧ assignsSince tr = []
  | .stored c ok => s.isConnected = false ∧ s.connection = c ∧ connects tr = (if ok then [c] else []) ∧
      assignsSince tr = if ok then [c] else []

/-- A new connection is not yet visible to other calls. -/
def Link.Pending (l : Link) : Prop := ∃ c, l = .answered c true ∨ l = .stored c true

/-- The lock, the library calls and the connection are as the phases of all calls say. -/
structure Safe (tr : List (Event ι AdapterSig)) (s : AdapterState ι) (φ : ι → Phase) : Prop where
  lock : ∀ i, (φ i).holds = true ↔ s.owner = some i
  inside : ∀ i, s.inside i = (φ i).inside
  link : ∀ i, (φ i).link.Holds tr s
  up : s.isConnected = true → connects tr = [s.connection] ∧ assignsSince tr = [s.connection]
  down : s.isConnected = false → connects tr = [] ∨ ∃ i, (φ i).link.Pending

variable {tr : List (Event ι AdapterSig)} {s s' : AdapterState ι} {φ : ι → Phase} {i j : ι} {a : Act AdapterSig}
  {p : Phase}

/-- An event that is about something else than the connection. -/
structure Quiet (s s' : AdapterState ι) (a : Act AdapterSig) : Prop where
  isConnected : s'.isConnected = s.isConnected
  connection : s'.connection = s.connection
  connected : connected a = none
  assigned : assigned a = none

theorem Quiet.connects (hq : Quiet s s' a) : connects (tr ++ [⟨i, a⟩]) = connects tr := by
  rw [connects_snoc, hq.connected]
  exact List.append_nil _

theorem Quiet.assignsSince (hq : Quiet s s' a) : assignsSince (tr ++ [⟨i, a⟩]) = assignsSince tr := by
  rw [assignsSince_snoc, hq.assigned]
  split
  · rename_i h; exact (assignsSince_of_connects h).symm
  · exact List.append_nil _

theorem Quiet.holds (hq : Quiet s s' a) {l : Link} : l.Holds (tr ++ [⟨i, a⟩]) s' ↔ l.Holds tr s := by
  cases l <;> simp only [Link.Holds, hq.isConnected, hq.connection, hq.connects, hq.assignsSince]

/-- While one call holds the lock and there is no connection, the others know nothing. -/
theorem Safe.others (h : Safe tr s φ) (hi : (φ i).holds = true) (hdown : s.isConnected = false) (hj : j ≠ i) :
    (φ j).link = .unknown := by
  have howner := (h.lock i).1 hi
  have hlink := h.link j
  cases hφ : φ j with
  | free up =>
    cases up with
    | false => rfl
    | true =>
      rw [hφ] at hlink
      exact absurd (hdown.symm.trans hlink) (by decide)
  | held l =>
    have := (h.lock j).1 (by rw [hφ]; rfl)
    exact absurd (Option.some.inj (this.symm.trans howner)) hj
  | within f l =>
    have := (h.lock j).1 (by rw [hφ]; rfl)
    exact absurd (Option.some.inj (this.symm.trans howner)) hj

theorem Link.Pending.not_settled {l : Link} (h : l.Pending) : ¬l.Settled := by
  obtain ⟨c, rfl | rfl⟩ := h <;> exact not_false

/-- A call that knows of a connection is right. -/
theorem Link.Holds.connected {l : Link} (h : l.Holds tr s) (hl : l.isUp) : s.isConnected = true := by
  cases l with
  | up => exact h
  | read c => exact h.1
  | _ => cases hl

/-- What is known of the connection outlasts the lock. -/
theorem Link.Holds.free {l : Link} (h : l.Holds tr s) : (Link.ofBool l.isUp).Holds tr s := by
  cases hl : l.isUp with
  | false => trivial
  | true => exact h.connected hl

/-- A call that reads `isConnected` without the lock learns of a connection. -/
theorem Link.Holds.seen {up : Bool} (h : (Link.ofBool up).Holds tr s) :
    (Link.ofBool (up || s.isConnected)).Holds tr s := by
  cases up with
  | true => exact h
  | false =>
    cases hup : s.isConnected with
    | true => exact hup
    | false => trivial

/-- A call that holds the lock and finds no connection can rely on it. -/
theorem Safe.not_connected (h : Safe tr s φ) (hi : (φ i).holds = true) (hl : (φ i).link.Settled)
    (hdown : s.isConnected = false) : connects tr = [] := by
  rcases h.down hdown with hnone | ⟨j, hj⟩
  · exact hnone
  · by_cases hji : j = i
    · subst hji
      exact absurd hl hj.not_settled
    · rw [h.others hi hdown hji] at hj
      exact absurd settled_unknown hj.not_settled

/-- A call inside of the library holds the lock. -/
theorem Safe.locked (h : Safe tr s φ) (hi : s.inside i ≠ none) : s.owner = some i := by
  refine (h.lock i).1 ?_
  rw [h.inside i] at hi
  cases hp : φ i with
  | free up =>
    rw [hp] at hi
    exact absurd rfl hi
  | held l => rfl
  | within f l => rfl

/-- There is at most one connection, and the field is assigned at most once after it. -/
theorem Safe.connection (h : Safe tr s φ) : connects tr = [] ∨
    ∃ c, connects tr = [c] ∧ (assignsSince tr = [] ∨ (assignsSince tr = [c] ∧ s.connection = c)) := by
  cases hup : s.isConnected with
  | true =>
    obtain ⟨hconnects, hassigns⟩ := h.up hup
    exact Or.inr ⟨_, hconnects, Or.inr ⟨hassigns, rfl⟩⟩
  | false =>
    rcases h.down hup with hnone | ⟨i, c, hi | hi⟩
    · exact Or.inl hnone
    · have hlink := h.link i
      rw [hi] at hlink
      obtain ⟨_, hconnects, hassigns⟩ := hlink
      exact Or.inr ⟨c, hconnects, Or.inl hassigns⟩
    · have hlink := h.link i
      rw [hi] at hlink
      obtain ⟨_, hfield, hconnects, hassigns⟩ := hlink
      exact Or.inr ⟨c, hconnects, Or.inr ⟨hassigns, hfield⟩⟩

/-- A call that is over leaves nothing that a new call has to know. -/
theorem Safe.forget (h : Safe tr s φ) (hfree : ∀ i, ∃ up, φ i = .free up) : Safe tr s fun _ => .free false where
  lock i := by
    obtain ⟨up, hup⟩ := hfree i
    rw [← h.lock i, hup]
    rfl
  inside i := by
    obtain ⟨up, hup⟩ := hfree i
    rw [h.inside i, hup]
    rfl
  link _ := trivial
  up := h.up
  down hdown := by
    rcases h.down hdown with hnone | ⟨i, hi⟩
    · exact Or.inl hnone
    · obtain ⟨up, hup⟩ := hfree i
      rw [hup] at hi
      exact absurd (settled_ofBool up) hi.not_settled

variable [DecidableEq ι]

/-! ### Steps -/

/-- The owner and the phases agree after a step that leaves the lock alone, after one that takes it, and after one that
frees it. -/
theorem Safe.lock_kept (h : Safe tr s φ) (hp : p.holds = (φ i).holds) (j : ι) :
    (Function.update φ i p j).holds = true ↔ s.owner = some j := by
  by_cases hj : j = i
  · subst hj
    simpa [hp] using h.lock j
  · simpa [hj] using h.lock j

theorem Safe.lock_taken (h : Safe tr s φ) (hfree : s.owner = none) (hp : p.holds = true) (j : ι) :
    (Function.update φ i p j).holds = true ↔ some i = some j := by
  by_cases hj : j = i
  · subst hj
    simpa using hp
  · have hother := h.lock j
    rw [hfree] at hother
    simpa [hj, Ne.symm hj] using hother

theorem Safe.lock_freed (h : Safe tr s φ) (hi : (φ i).holds = true) (hp : p.holds = false) (j : ι) :
    (Function.update φ i p j).holds = true ↔ (none : Option ι) = some j := by
  by_cases hj : j = i
  · subst hj
    simpa using hp
  · have hother := h.lock j
    rw [(h.lock i).1 hi] at hother
    simpa [hj, Ne.symm hj] using hother

theorem Safe.inside_kept (h : Safe tr s φ) (hp : p.inside = (φ i).inside) (j : ι) :
    s.inside j = (Function.update φ i p j).inside := by
  by_cases hj : j = i
  · subst hj
    simpa [hp] using h.inside j
  · simpa [hj] using h.inside j

theorem Safe.inside_changed (h : Safe tr s φ) (p : Phase) (j : ι) :
    Function.update s.inside i p.inside j = (Function.update φ i p j).inside := by
  by_cases hj : j = i
  · subst hj
    simp
  · simpa [hj] using h.inside j

/-- The connection after a quiet step. -/
theorem Safe.quiet (h : Safe tr s φ) (hq : Quiet s s' a) (hp : p.link.Holds tr s)
    (hpending : (φ i).link.Pending → p.link.Pending)
    (hlock : ∀ j, (Function.update φ i p j).holds = true ↔ s'.owner = some j)
    (hinside : ∀ j, s'.inside j = (Function.update φ i p j).inside) :
    Safe (tr ++ [⟨i, a⟩]) s' (Function.update φ i p) where
  lock := hlock
  inside := hinside
  link j := by
    rw [hq.holds]
    by_cases hj : j = i
    · subst hj
      simpa using hp
    · simpa [hj] using h.link j
  up hup := by
    rw [hq.isConnected] at hup
    rw [hq.connects, hq.assignsSince, hq.connection]
    exact h.up hup
  down hdown := by
    rw [hq.isConnected] at hdown
    rw [hq.connects]
    rcases h.down hdown with hnone | ⟨j, hj⟩
    · exact Or.inl hnone
    · refine Or.inr ⟨j, ?_⟩
      by_cases hji : j = i
      · subst hji
        simpa using hpending hj
      · simpa [hji] using hj

/-- The connection after a step of the call that is about to connect. -/
theorem Safe.connecting (h : Safe tr s φ) (hi : (φ i).holds = true) (hdown : s.isConnected = false)
    (hholds : p.holds = true) (howner : s'.owner = s.owner)
    (hinside : ∀ j, s'.inside j = (Function.update φ i p j).inside) (hp : p.link.Holds (tr ++ [⟨i, a⟩]) s')
    (hup : s'.isConnected = true →
      connects (tr ++ [⟨i, a⟩]) = [s'.connection] ∧ assignsSince (tr ++ [⟨i, a⟩]) = [s'.connection])
    (hpending : s'.isConnected = false → connects (tr ++ [⟨i, a⟩]) = [] ∨ p.link.Pending) :
    Safe (tr ++ [⟨i, a⟩]) s' (Function.update φ i p) where
  lock := by
    rw [howner]
    exact h.lock_kept (hholds.trans hi.symm)
  inside := hinside
  link j := by
    by_cases hj : j = i
    · subst hj
      simpa using hp
    · simp [hj, h.others hi hdown hj, Link.Holds]
  up := hup
  down hdown' := by
    rcases hpending hdown' with hnone | hpend
    · exact Or.inl hnone
    · exact Or.inr ⟨i, by simpa using hpend⟩

theorem connected_answer {host server : String} {c : DhsConnect} {status : DhsStatus} :
    connected ⟨.leave (.dhsConnect host server), ⟨c, status⟩⟩ = if status = .S_SUCCESS then some c else none := by
  cases status <;> rfl

/-- `dhsConnect` returns. -/
theorem Safe.answered (h : Safe tr s φ) {host server : String} {c : DhsConnect} {status : DhsStatus}
    (hφ : φ i = .within (.dhsConnect host server) .down) :
    Safe (tr ++ [⟨i, ⟨.leave (.dhsConnect host server), ⟨c, status⟩⟩⟩])
      { s with inside := Function.update s.inside i none }
      (Function.update φ i (.held (.answered c (status = .S_SUCCESS)))) := by
  obtain ⟨hdown, hnone⟩ : s.isConnected = false ∧ connects tr = [] := by
    have := h.link i
    rwa [hφ] at this
  have hconnects : ∀ e : Event ι AdapterSig, connects (tr ++ [e]) = (connected e.act).toList := by
    intro e
    rw [connects_snoc, hnone, List.nil_append]
  have hassigns : ∀ e : Event ι AdapterSig, assignsSince (tr ++ [e]) = [] := by
    intro e
    rw [assignsSince_snoc, if_pos hnone]
  refine h.connecting (by rw [hφ]; rfl) hdown rfl rfl (fun j => h.inside_changed (.held _) j) ?_ ?_ ?_
  · refine ⟨hdown, ?_, hassigns _⟩
    rw [hconnects, connected_answer]
    by_cases hs : status = .S_SUCCESS <;> simp [hs]
  · intro hup
    exact absurd (hdown.symm.trans hup) (by decide)
  · intro _
    rw [hconnects, connected_answer]
    by_cases hs : status = .S_SUCCESS
    · exact Or.inr ⟨c, Or.inl (by simp [Phase.link, hs])⟩
    · exact Or.inl (by simp [hs])

/-- The answer is assigned to the field. -/
theorem Safe.stored (h : Safe tr s φ) {c : DhsConnect} {ok : Bool} (hφ : φ i = .held (.answered c ok)) :
    Safe (tr ++ [⟨i, ⟨.setConnection c, ()⟩⟩]) { s with connection := c }
      (Function.update φ i (.held (.stored c ok))) := by
  obtain ⟨hdown, hconn, hassign⟩ : s.isConnected = false ∧ connects tr = (if ok then [c] else []) ∧
      assignsSince tr = [] := by
    have := h.link i
    rwa [hφ] at this
  have hconnects : connects (tr ++ [⟨i, ⟨.setConnection c, ()⟩⟩]) = if ok then [c] else [] := by
    rw [connects_snoc, hconn]
    exact List.append_nil _
  have hassigns : assignsSince (tr ++ [⟨i, ⟨.setConnection c, ()⟩⟩]) = if ok then [c] else [] := by
    rw [assignsSince_snoc, hconn, hassign]
    cases ok <;> rfl
  refine h.connecting (by rw [hφ]; rfl) hdown rfl rfl (fun j => ?_) ⟨hdown, rfl, hconnects, hassigns⟩ ?_ ?_
  · exact h.inside_kept (by rw [hφ]; rfl) j
  · intro hup
    exact absurd (hdown.symm.trans hup) (by decide)
  · intro _
    cases ok with
    | false => exact Or.inl hconnects
    | true => exact Or.inr ⟨c, Or.inr rfl⟩

/-- Whether there is a connection is recorded. -/
theorem Safe.recorded (h : Safe tr s φ) {c : DhsConnect} {ok : Bool} (hφ : φ i = .held (.stored c ok)) :
    Safe (tr ++ [⟨i, ⟨.setIsConnected ok, ()⟩⟩]) { s with isConnected := ok }
      (Function.update φ i (.held (if ok then .read c else .unknown))) := by
  obtain ⟨hdown, rfl, hconn, hassign⟩ : s.isConnected = false ∧ s.connection = c ∧
      connects tr = (if ok then [c] else []) ∧ assignsSince tr = if ok then [c] else [] := by
    have := h.link i
    rwa [hφ] at this
  have hconnects : connects (tr ++ [⟨i, ⟨.setIsConnected ok, ()⟩⟩]) = if ok then [s.connection] else [] := by
    rw [connects_snoc, hconn]
    exact List.append_nil _
  have hassigns : assignsSince (tr ++ [⟨i, ⟨.setIsConnected ok, ()⟩⟩]) = if ok then [s.connection] else [] := by
    rw [assignsSince_snoc, hconn, hassign]
    cases ok <;> rfl
  refine h.connecting (by rw [hφ]; rfl) hdown rfl rfl (fun j => ?_) ?_ ?_ ?_
  · exact h.inside_kept (by rw [hφ]; rfl) j
  · cases ok with
    | false => trivial
    | true => exact ⟨rfl, rfl⟩
  · rintro rfl
    exact ⟨hconnects, hassigns⟩
  · rintro rfl
    exact Or.inl hconnects

/-- A call reads, or does not get the lock. -/
theorem Safe.reads (h : Safe tr s φ) (ha : connected a = none) (ha' : assigned a = none)
    (hholds : p.holds = (φ i).holds) (hinside : p.inside = (φ i).inside) (hp : p.link.Holds tr s)
    (hsettled : (φ i).link.Settled) : Safe (tr ++ [⟨i, a⟩]) s (Function.update φ i p) :=
  h.quiet ⟨rfl, rfl, ha, ha'⟩ hp (fun hpend => absurd hsettled hpend.not_settled) (h.lock_kept hholds)
    (h.inside_kept hinside)

theorem Safe.timedLock (h : Safe tr s φ) {up locked : Bool} (hφ : φ i = .free up)
    (hsem : adapterSem i s ⟨.timedLock, locked⟩ s') :
    Safe (tr ++ [⟨i, ⟨.timedLock, locked⟩⟩]) s'
      (Function.update φ i (if locked then .held (.ofBool up) else .free up)) := by
  have hlink := h.link i
  rw [hφ] at hlink
  cases locked with
  | false =>
    obtain rfl : s' = s := hsem
    exact h.reads rfl rfl (by rw [hφ]; rfl) (by rw [hφ]; rfl) hlink (by rw [hφ]; exact settled_ofBool up)
  | true =>
    obtain ⟨hfree, rfl⟩ : s.owner = none ∧ s' = _ := hsem
    refine h.quiet ⟨rfl, rfl, rfl, rfl⟩ hlink ?_ (h.lock_taken hfree rfl) (h.inside_kept (by rw [hφ]; rfl))
    rw [hφ]
    exact id

theorem Safe.unlock (h : Safe tr s φ) {l : Link} (hφ : φ i = .held l) (hl : l.Settled) :
    Safe (tr ++ [⟨i, ⟨.unlock, ()⟩⟩]) { s with owner := none } (Function.update φ i (.free l.isUp)) := by
  have hlink := h.link i
  rw [hφ] at hlink
  refine h.quiet ⟨rfl, rfl, rfl, rfl⟩ hlink.free ?_ (h.lock_freed (by rw [hφ]; rfl) rfl)
    (h.inside_kept (by rw [hφ]; rfl))
  rw [hφ]
  exact fun hpend => absurd hl hpend.not_settled

/-- A call looks at `isConnected` without the lock. -/
theorem Safe.glances (h : Safe tr s φ) {up : Bool} (hφ : φ i = .free up) :
    Safe (tr ++ [⟨i, ⟨.getIsConnected, s.isConnected⟩⟩]) s (Function.update φ i (.free (up || s.isConnected))) := by
  have hlink := h.link i
  rw [hφ] at hlink
  exact h.reads rfl rfl (by rw [hφ]; rfl) (by rw [hφ]; rfl) hlink.seen (by rw [hφ]; exact settled_ofBool up)

/-- A call looks at `isConnected` with the lock. -/
theorem Safe.looks (h : Safe tr s φ) {l : Link} (hφ : φ i = .held l) (hl : l.Settled) :
    Safe (tr ++ [⟨i, ⟨.getIsConnected, s.isConnected⟩⟩]) s
      (Function.update φ i (.held (if s.isConnected then .up else .down))) := by
  have hsettled : (φ i).link.Settled := by rw [hφ]; exact hl
  refine h.reads rfl rfl (by rw [hφ]; rfl) (by rw [hφ]; rfl) ?_ hsettled
  cases hup : s.isConnected with
  | true => exact hup
  | false => exact ⟨hup, h.not_connected (by rw [hφ]; rfl) hsettled hup⟩

theorem Safe.getConnection (h : Safe tr s φ) {l : Link} (hφ : φ i = .held l) (hl : l.isUp) :
    Safe (tr ++ [⟨i, ⟨.getConnection, s.connection⟩⟩]) s (Function.update φ i (.held (.read s.connection))) := by
  have hlink := h.link i
  rw [hφ] at hlink
  exact h.reads rfl rfl (by rw [hφ]; rfl) (by rw [hφ]; rfl) ⟨hlink.connected hl, rfl⟩
    (by rw [hφ]; exact settled_of_isUp hl)

theorem Safe.enter (h : Safe tr s φ) {f : LibCall} {status : DhsStatus} {l : Link} (hφ : φ i = .held l) :
    Safe (tr ++ [⟨i, ⟨.enter f status, ()⟩⟩]) { s with inside := Function.update s.inside i (some f) }
      (Function.update φ i (.within f l)) := by
  have hlink := h.link i
  rw [hφ] at hlink
  refine h.quiet ⟨rfl, rfl, rfl, rfl⟩ hlink ?_ (h.lock_kept (by rw [hφ]; rfl)) (h.inside_changed (.within f l))
  rw [hφ]
  exact id

/-- A library call returns that is not `dhsConnect`. -/
theorem Safe.returned (h : Safe tr s φ) {f : LibCall} {r : f.Answer} {l : Link} (hφ : φ i = .within f l)
    (hf : ∀ host server, f ≠ .dhsConnect host server) :
    Safe (tr ++ [⟨i, ⟨.leave f, r⟩⟩]) { s with inside := Function.update s.inside i none }
      (Function.update φ i (.held l)) := by
  have hquiet : connected ⟨.leave f, r⟩ = none := by
    cases f <;> first | rfl | exact absurd rfl (hf _ _)
  have hlink := h.link i
  rw [hφ] at hlink
  refine h.quiet ⟨rfl, rfl, hquiet, rfl⟩ hlink ?_ (h.lock_kept (by rw [hφ]; rfl)) (h.inside_changed (.held l))
  rw [hφ]
  exact id

theorem Safe.leave (h : Safe tr s φ) {f : LibCall} {r : f.Answer} {l : Link} (hφ : φ i = .within f l)
    (hl : l.Allows f) :
    Safe (tr ++ [⟨i, ⟨.leave f, r⟩⟩]) { s with inside := Function.update s.inside i none }
      (Function.update φ i (.held (l.after f r))) := by
  by_cases hf : ∃ host server, f = .dhsConnect host server
  · obtain ⟨host, server, rfl⟩ := hf
    obtain rfl : l = .down := hl
    exact h.answered hφ
  · have hf' : ∀ host server, f ≠ .dhsConnect host server := fun host server heq => hf ⟨host, server, heq⟩
    rw [after_other hf']
    exact h.returned hφ hf'

/-- **Every permitted step is safe.** -/
theorem keeps_safe : Keeps connectOnce (adapterSem (ι := ι)) Safe := by
  intro tr s φ i a s' h hmay hsem
  obtain ⟨cmd, r⟩ := a
  simp only [connectOnce] at hmay ⊢
  cases cmd with
  | timedLock =>
    obtain ⟨up, hφ⟩ := hmay
    simp only [hφ, Phase.next]
    exact h.timedLock hφ hsem
  | unlock =>
    obtain ⟨l, hφ, hl⟩ := hmay
    obtain rfl : s' = _ := hsem
    simp only [hφ, Phase.next]
    exact h.unlock hφ hl
  | getIsConnected =>
    obtain ⟨rfl, rfl⟩ : r = s.isConnected ∧ s' = s := hsem
    rcases hmay with ⟨up, hφ⟩ | ⟨l, hφ, hl⟩
    · simp only [hφ, Phase.next]
      exact h.glances hφ
    · simp only [hφ, Phase.next]
      exact h.looks hφ hl
  | setIsConnected b =>
    obtain ⟨c, hφ⟩ := hmay
    obtain rfl : s' = _ := hsem
    simp only [hφ, Phase.next]
    exact h.recorded hφ
  | getConnection =>
    obtain ⟨l, hφ, hl⟩ := hmay
    obtain ⟨rfl, rfl⟩ : r = s.connection ∧ s' = s := hsem
    simp only [hφ, Phase.next]
    exact h.getConnection hφ hl
  | setConnection c =>
    obtain ⟨ok, hφ⟩ := hmay
    obtain rfl : s' = _ := hsem
    simp only [hφ, Phase.next]
    exact h.stored hφ
  | enter f status =>
    obtain ⟨l, hφ, _⟩ := hmay
    obtain rfl : s' = _ := hsem
    simp only [hφ, Phase.next]
    exact h.enter hφ
  | leave f =>
    obtain ⟨l, hφ, hl⟩ := hmay
    obtain rfl : s' = _ := hsem
    simp only [hφ, Phase.next]
    exact h.leave hφ hl

/-- A program that follows the discipline may run alone. -/
theorem Safe.solo {α : Type} {q : Adapter α} {acts : List (Act AdapterSig)} {res : Except AdapterAbort α}
    (h : Safe tr s fun _ => .free false) (hq : Follows connectOnce q (.free false) AtRest)
    (hx : Exec adapterSem s (acts.map (Event.mk i)) s') (hend : Ends q acts res) :
    Safe (tr ++ acts.map (Event.mk i)) s' fun _ => .free false := by
  let P : ι → Adapter α := Function.update (fun _ => .lift res) i q
  have hfollows : ∀ j, Follows connectOnce (P j) (.free false) AtRest := by
    intro j
    by_cases hj : j = i
    · subst hj
      simpa only [P, Function.update_self] using hq
    · simp only [P, Function.update_of_ne hj, follows_lift]
      exact atRest_free
  have hpath : Path (P i) acts (.lift res) := by
    simp only [P, Function.update_self]
    exact hend
  obtain ⟨ψ, hψ, hrest⟩ := (run_solo hx hpath).disciplined keeps_safe h hfollows
  refine hψ.forget fun j => ?_
  have hj := hrest j
  simp only [P, Function.update_idem, Function.update_eq_self, follows_lift] at hj
  exact hj

end Invariant

/-! ## The constructor -/

section Construction

variable {ι : Type} [DecidableEq ι] {cfg : AdapterConfig}

/-- One thread has run the constructor; before, the fields held anything. -/
def Constructed (cfg : AdapterConfig) (tr : List (Event ι AdapterSig)) (s : AdapterState ι) : Prop :=
  ∃ i b c acts, tr = acts.map (Event.mk i) ∧ Ends (construct cfg) acts (.ok ()) ∧
    Exec adapterSem ⟨none, b, c, fun _ => none⟩ tr s

/-- What the constructor does before it checks the connection. -/
def startActs (cfg : AdapterConfig) (r : (LibCall.dhsInit cfg.myName (1024 * 1024)).Answer)
    (r' : LibCall.dhsEventLoop.Answer) : List (Act AdapterSig) :=
  [⟨.setIsConnected false, ()⟩, ⟨.setConnection .CONNECT_NULL, ()⟩,
   ⟨.enter (.dhsInit cfg.myName (1024 * 1024)) .S_SUCCESS, ()⟩, ⟨.leave (.dhsInit cfg.myName (1024 * 1024)), r⟩,
   ⟨.enter .dhsEventLoop r.status, ()⟩, ⟨.leave .dhsEventLoop, r'⟩]

theorem ends_construct {acts : List (Act AdapterSig)} {res : Except AdapterAbort Unit}
    (h : Ends (construct cfg) acts res) :
    ∃ r r' rest, acts = startActs cfg r r' ++ rest ∧ Ends (do let _ ← checkConnection cfg) rest res := by
  obtain ⟨_, t₁, h₁, e₁⟩ := ends_call.1 h
  obtain ⟨_, t₂, h₂, e₂⟩ := ends_call.1 e₁
  obtain ⟨_, t₃, h₃, e₃⟩ := ends_call.1 e₂
  obtain ⟨r, t₄, h₄, e₄⟩ := ends_call.1 e₃
  obtain ⟨_, t₅, h₅, e₅⟩ := ends_call.1 e₄
  obtain ⟨r', t₆, h₆, e₆⟩ := ends_call.1 e₅
  refine ⟨r, r', t₆, ?_, e₆⟩
  rw [h₁, h₂, h₃, h₄, h₅, h₆]
  rfl

/-- The fields are set and the library is started, before there is a lock to hold. -/
theorem started {b : Bool} {c : DhsConnect} {r : (LibCall.dhsInit cfg.myName (1024 * 1024)).Answer}
    {r' : LibCall.dhsEventLoop.Answer} {i : ι} {m : AdapterState ι}
    (h : Exec adapterSem ⟨none, b, c, fun _ => none⟩ ((startActs cfg r r').map (Event.mk i)) m) :
    Safe ((startActs cfg r r').map (Event.mk i)) m fun _ => .free false := by
  have hm : m = ⟨none, false, .CONNECT_NULL, fun _ => none⟩ := by
    obtain ⟨_, rfl, _, rfl, _, rfl, _, rfl, _, rfl, _, rfl, rfl⟩ := h
    simp
  subst hm
  exact ⟨by simp [Phase.holds], fun _ => rfl, fun _ => trivial, nofun, fun _ => Or.inl rfl⟩

/-- **The constructor is safe.** -/
theorem constructed_safe {tr : List (Event ι AdapterSig)} {s : AdapterState ι} (h : Constructed cfg tr s) :
    Safe tr s fun _ => .free false := by
  obtain ⟨i, b, c, acts, rfl, hend, hx⟩ := h
  obtain ⟨r, r', rest, rfl, hrest⟩ := ends_construct hend
  rw [List.map_append] at hx ⊢
  obtain ⟨m, hstart, hcheck⟩ := exec_append.1 hx
  refine (started hstart).solo ?_ hcheck hrest
  rw [follows_bind]
  exact follows_checkConnection fun _ up _ => ⟨up, rfl⟩

end Construction

/-! ## Concurrent operations -/

section Runs

variable {ι : Type} [DecidableEq ι] {cfg : AdapterConfig} {past tr : List (Event ι AdapterSig)} {s : AdapterState ι}
  {op : ι → Operation} {b : Config ι (AdapterState ι) AdapterSig AdapterAbort (DhsStatus × ImageId)}

/-- One thread for each call of an operation. -/
def calls (cfg : AdapterConfig) (s : AdapterState ι) (op : ι → Operation) :
    Config ι (AdapterState ι) AdapterSig AdapterAbort (DhsStatus × ImageId) :=
  ⟨s, fun i => (op i).call cfg⟩

/-- The library is used safely in the run of some calls, after the events of the past. -/
structure SafelyUsed (past tr : List (Event ι AdapterSig))
    (b : Config ι (AdapterState ι) AdapterSig AdapterAbort (DhsStatus × ImageId)) : Prop where
  /-- a call inside of the library holds the lock -/
  locked : ∀ i, b.shared.inside i ≠ none → b.shared.owner = some i
  exclusive : ∀ i j, b.shared.inside i ≠ none → b.shared.inside j ≠ none → i = j
  /-- a connection that is passed to the library comes from a successful `dhsConnect` -/
  connection : ∀ pre i f status post c, tr = pre ++ ⟨i, ⟨.enter f status, ()⟩⟩ :: post →
    f.connection? = some c → c ∈ connects (past ++ pre)
  once : (connects (past ++ tr)).length ≤ 1
  /-- after it, the field is assigned this connection and nothing else -/
  constant : ∀ c ∈ connects (past ++ tr), assignsSince (past ++ tr) = [] ∨
    (assignsSince (past ++ tr) = [c] ∧ b.shared.connection = c)
  /-- a call that is over does not hold the lock -/
  released : ∀ i res, b.prog i = Prog.lift res → b.shared.owner ≠ some i

omit [DecidableEq ι] in
theorem call_follows (op : ι → Operation) (i : ι) :
    Follows connectOnce ((calls cfg s op).prog i) (.free false) AtRest := follows_operation (op i)

/-- **Safe use of the library**, whatever the operations, their order, the lock and the library do. -/
theorem safe_use (hnew : Constructed cfg past s) (h : Run adapterSem (calls cfg s op) tr b) :
    SafelyUsed past tr b := by
  have hsafe := constructed_safe hnew
  obtain ⟨φ, hφ, hend⟩ := h.disciplined keeps_safe hsafe (call_follows op)
  refine ⟨fun i => hφ.locked, ?_, ?_, ?_, ?_, ?_⟩
  · intro i j hi hj
    exact Option.some.inj ((hφ.locked hi).symm.trans (hφ.locked hj))
  · rintro pre i f status post c rfl hc
    obtain ⟨m, ψ, hψ, l, hl, hallows⟩ := h.permitted keeps_safe hsafe (call_follows op)
    obtain rfl : l = .read c := hallows.read hc
    have hlink := hψ.link i
    rw [hl] at hlink
    rw [(hψ.up hlink.1).1, hlink.2]
    exact List.mem_singleton.2 rfl
  · rcases hφ.connection with hnone | ⟨c, hone, _⟩
    · rw [hnone]
      exact Nat.zero_le 1
    · rw [hone]
      exact Nat.le_refl 1
  · intro c hc
    rcases hφ.connection with hnone | ⟨c', hone, hfield⟩
    · rw [hnone] at hc
      exact absurd hc List.not_mem_nil
    · rw [hone] at hc
      obtain rfl := List.mem_singleton.1 hc
      exact hfield
  · intro i res hres howner
    have hi := hend i
    rw [hres, follows_lift] at hi
    obtain ⟨up, hup⟩ := hi
    have hholds := (hφ.lock i).2 howner
    rw [hup] at hholds
    cases hholds

/-- A library in which everything succeeds. -/
def plainAnswers : (f : LibCall) → f.Answer
  | .dhsConnect _ _ => ⟨.handle 1, .S_SUCCESS⟩
  | .dhsBdName _ => ⟨some "GS1", .S_SUCCESS⟩
  | .dhsAvListNew => ⟨⟨1⟩, .S_SUCCESS⟩
  | .dhsAvListSize _ => ⟨1, .S_SUCCESS⟩
  | .dhsBdPut _ _ _ _ => ⟨⟨1⟩, .S_SUCCESS⟩
  | .dhsStatus _ => ⟨.DONE, .S_SUCCESS⟩
  | .dhsInit _ _ | .dhsEventLoop | .dhsBdCtlLifetime _ _ _ | .dhsBdCtlContrib _ _ _ _ | .dhsAvAdd _ _ _ _
  | .dhsWait _ | .dhsTagFree _ | .dhsAvListFree _ => ⟨(), .S_SUCCESS⟩

def plainConfig : AdapterConfig := ⟨"dhs-http", "localhost", "dataServerNS"⟩

/-- One call creates an image, and another stores a keyword in it. -/
def plainOperation : Bool → Operation
  | false => .createImage ""
  | true => .setImageKeywords "GS1" [Keyword.of "OBJECT" "M31"] true

/-- A thread alone, with this library. -/
def runPlain {α : Type} (i : Bool) (p : Adapter α) (s : AdapterState Bool) :
    Outcome AdapterSig AdapterAbort α (AdapterState Bool) :=
  p.run (adapterHandler plainAnswers i) s

def plainNew : Outcome AdapterSig AdapterAbort Unit (AdapterState Bool) :=
  runPlain false (construct plainConfig) ⟨none, true, .CONNECT_NULL, fun _ => none⟩

def plainCreate : Outcome AdapterSig AdapterAbort (DhsStatus × ImageId) (AdapterState Bool) :=
  runPlain false ((plainOperation false).call plainConfig) plainNew.state

def plainPut : Outcome AdapterSig AdapterAbort (DhsStatus × ImageId) (AdapterState Bool) :=
  runPlain true ((plainOperation true).call plainConfig) plainCreate.state

theorem runPlain_exec {α : Type} (i : Bool) (p : Adapter α) (s : AdapterState Bool) :
    Exec adapterSem s ((runPlain i p s).acts.map (Event.mk i)) (runPlain i p s).state :=
  run_exec id (fun c s => adapterHandler_sem c s) p s

theorem safe_use_plain : plainPut.result = .ok (.S_SUCCESS, "GS1") ∧ ∃ b,
    Run adapterSem (calls plainConfig plainNew.state plainOperation)
      (plainCreate.acts.map (Event.mk false) ++ plainPut.acts.map (Event.mk true)) b ∧
    SafelyUsed (plainNew.acts.map (Event.mk false))
      (plainCreate.acts.map (Event.mk false) ++ plainPut.acts.map (Event.mk true)) b := by
  have hnew : Constructed plainConfig (plainNew.acts.map (Event.mk false)) plainNew.state :=
    ⟨false, true, .CONNECT_NULL, plainNew.acts, rfl, run_ends _ _ _, runPlain_exec _ _ _⟩
  have hcreate := run_solo (P := (calls plainConfig plainNew.state plainOperation).prog)
    (runPlain_exec false ((plainOperation false).call plainConfig) plainNew.state) (run_ends _ _ _)
  have hput := run_solo (P := Function.update (calls plainConfig plainNew.state plainOperation).prog false
    (.lift plainCreate.result)) (runPlain_exec true ((plainOperation true).call plainConfig) plainCreate.state)
    (run_ends _ _ _)
  exact ⟨rfl, _, hcreate.trans hput, safe_use hnew (hcreate.trans hput)⟩

end Runs

end DhsTranslator
