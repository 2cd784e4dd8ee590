import DhsTranslator.Conc.Monitor

/-!
# Programs that run alone

What a program does from a state on that nobody else changes.

- `Meets sem i may Q p s`: every command is issued when it may be, and the program ends as in `Q`, whatever the answers;
- `meets_bind`, `meets_andThen`, `meets_plug`: a program is checked part by part;
- `Inside.meets`: what is right under a lock is checked already;
- `Meets.path`, `Meets.next`, `Meets.ends`: what this says of a program that is under way.
-/

namespace Conc

variable {S T : Sig} {ε α β ι σ τ : Type}

/-- Every command may be issued where it is, and the result is as expected for the last state. -/
def Meets (sem : Sem ι σ S) (i : ι) (may : S.Cmd → σ → Prop) (Q : Except ε α → σ → Prop) : Prog S ε α → σ → Prop
  | .ret a, s => Q (.ok a) s
  | .raise e, s => Q (.error e) s
  | .call c k, s => may c s ∧ ∀ r s', sem i s ⟨c, r⟩ s' → Meets sem i may Q (k r) s'

section Programs

variable {sem : Sem ι σ S} {i : ι} {may : S.Cmd → σ → Prop} {Q : Except ε α → σ → Prop} {s s' : σ}

@[simp] theorem meets_ret {a : α} : Meets sem i may Q (.ret a) s ↔ Q (.ok a) s := Iff.rfl

@[simp] theorem meets_raise {e : ε} : Meets sem i may Q (.raise e) s ↔ Q (.error e) s := Iff.rfl

@[simp] theorem meets_call {c : S.Cmd} {k : S.Resp c → Prog S ε α} : Meets sem i may Q (.call c k) s ↔
    may c s ∧ ∀ r s', sem i s ⟨c, r⟩ s' → Meets sem i may Q (k r) s' := Iff.rfl

@[simp] theorem meets_lift {x : Except ε α} : Meets sem i may Q (.lift x) s ↔ Q x s := by
  cases x <;> rfl

theorem Meets.mono {p : Prog S ε α} {Q' : Except ε α → σ → Prop} (h : Meets sem i may Q p s)
    (hQ : ∀ x s, Q x s → Q' x s) : Meets sem i may Q' p s := by
  induction p generalizing s with
  | ret a => exact hQ _ _ h
  | raise e => exact hQ _ _ h
  | call c k ih => exact ⟨h.1, fun r s' hs => ih r (h.2 r s' hs)⟩

/-- What is expected of the first part so that the whole ends as expected. -/
def MeetsThen (sem : Sem ι σ S) (i : ι) (may : S.Cmd → σ → Prop) (f : α → Prog S ε β) (Q : Except ε β → σ → Prop) :
    Except ε α → σ → Prop
  | .ok a, s => Meets sem i may Q (f a) s
  | .error e, s => Q (.error e) s

/-- **Sequencing.** -/
theorem meets_bind {p : Prog S ε α} {f : α → Prog S ε β} {Q : Except ε β → σ → Prop} :
    Meets sem i may Q (p >>= f) s ↔ Meets sem i may (MeetsThen sem i may f Q) p s := by
  induction p generalizing s with
  | ret a => rfl
  | raise e => rfl
  | call c k ih =>
    rw [Prog.call_bind, meets_call, meets_call]
    exact and_congr_right fun _ => forall_congr' fun r => forall_congr' fun s' => forall_congr' fun _ => ih r

/-- What a program that cannot raise leaves is gone on with. -/
theorem meets_andThen {p : Prog S Empty β} {f : β → Prog S ε α}
    (h : Meets sem i may (fun x s => ∀ b, x = .ok b → Meets sem i may Q (f b) s) p s) :
    Meets sem i may Q (p.andThen f) s := by
  induction p generalizing s with
  | ret b => exact h b rfl
  | raise e => exact e.elim
  | call c k ih => exact ⟨h.1, fun r s' hs => ih r (h.2 r s' hs)⟩

/-- **A program that is put together** keeps what the programs of its commands keep. -/
theorem meets_plug {impl : Impl T S} {I : σ → Prop} (himpl : ∀ c s, I s → Meets sem i may (fun _ s => I s) (impl c) s)
    (p : Prog T ε α) (hs : I s) : Meets sem i may (fun _ s => I s) (p.plug impl) s := by
  induction p generalizing s with
  | ret a => exact hs
  | raise e => exact hs
  | call c k ih => exact meets_andThen ((himpl c s hs).mono fun x s hs b _ => ih b hs)

/-- Next to a component that is left as it is. -/
theorem meets_inl {sem' : Sem ι τ T} {may' : T.Cmd → τ → Prop} {p : Prog S ε α} {t : τ} (h : Meets sem i may Q p s) :
    Meets (sem.sum sem') i (Sum.elim (fun c s => may c s.1) fun c s => may' c s.2)
      (fun x s => Q x s.1 ∧ s.2 = t) p.inl (s, t) := by
  induction p generalizing s with
  | ret a => exact ⟨h, rfl⟩
  | raise e => exact ⟨h, rfl⟩
  | call c k ih =>
    refine ⟨h.1, ?_⟩
    rintro r ⟨s', _⟩ ⟨hs, rfl⟩
    exact ih r (h.2 r s' hs)

theorem meets_inr {sem' : Sem ι τ T} {may' : T.Cmd → τ → Prop} {p : Prog S ε α} {t : τ} (h : Meets sem i may Q p s) :
    Meets (sem'.sum sem) i (Sum.elim (fun c s => may' c s.1) fun c s => may c s.2)
      (fun x s => Q x s.2 ∧ s.1 = t) p.inr (t, s) := by
  induction p generalizing s with
  | ret a => exact ⟨h, rfl⟩
  | raise e => exact ⟨h, rfl⟩
  | call c k ih =>
    refine ⟨h.1, ?_⟩
    rintro r ⟨_, s'⟩ ⟨rfl, hs⟩
    exact ih r (h.2 r s' hs)

/-! ## Programs under way -/

/-- **A program that is under way** still meets it. -/
theorem Meets.path {p q : Prog S ε α} {acts : List (Act S)} (h : Meets sem i may Q p s) (hpath : Path p acts q)
    (hx : Exec sem s (acts.map (Event.mk i)) s') : Meets sem i may Q q s' := by
  induction hpath generalizing s with
  | nil p =>
    obtain rfl := exec_nil.1 hx
    exact h
  | cons r _ ih =>
    obtain ⟨m, hm, hx'⟩ := exec_cons.1 hx
    exact ih (h.2 r m hm) hx'

/-- So the next command may be issued. -/
theorem Meets.next {p : Prog S ε α} {c : S.Cmd} {k : S.Resp c → Prog S ε α} {acts : List (Act S)}
    (h : Meets sem i may Q p s) (hpath : Path p acts (.call c k)) (hx : Exec sem s (acts.map (Event.mk i)) s') :
    may c s' := (h.path hpath hx).1

theorem Meets.ends {p : Prog S ε α} {x : Except ε α} {acts : List (Act S)} (h : Meets sem i may Q p s)
    (hend : Ends p acts x) (hx : Exec sem s (acts.map (Event.mk i)) s') : Q x s' := meets_lift.1 (h.path hend hx)

end Programs

/-! ## Under a lock -/

section Locked

open Memory

variable {G A V R υ : Type} {eff : Effect T G A V} {fp : Footprint eff υ} {Guarded : υ → G → Cells A V → Prop}
  {post : R → υ → Prop} {u : υ} {s : Monitor ι G A V} {i : ι}

/-- What a thread may do that has the lock. -/
def LockedMay (fp : Footprint eff υ) (u : υ) (i : ι) : LockCmd T.Cmd → Monitor ι G A V → Prop
  | .lock, s => s.owner = none
  | .unlock, s => s.owner = some i
  | .access c, s => fp.safe u s.guarded s.heap c

/-- **A section** that is right does what it may, and leaves the lock free. -/
theorem Inside.meets {p : Prog T.locked Empty R} (hp : Inside fp Guarded u post p s.guarded s.heap)
    (howner : s.owner = some i) : Meets (monitorSem eff) i (LockedMay fp u i)
      (fun x s => s.owner = none ∧ ∃ a u', x = .ok a ∧ Guarded u' s.guarded s.heap ∧ post a u') p s := by
  induction p generalizing s with
  | ret a => exact hp.elim
  | raise e => exact e.elim
  | call c k ih =>
    cases c with
    | lock => exact hp.elim
    | unlock =>
      obtain ⟨a, u', hk, hguarded, hpost⟩ := hp
      refine ⟨howner, ?_⟩
      rintro _ _ rfl
      rw [hk]
      exact ⟨rfl, a, u', rfl, hguarded, hpost⟩
    | access c =>
      refine ⟨hp.1, fun r s' hs => ?_⟩
      exact ih r (hp.2 r _ _ hs.2) (hs.1.trans howner)

end Locked

end Conc
