import DhsTranslator.Conc.Interleaving

/-!
# Disciplines

A discipline says, for the phase a thread is in, which commands the thread may issue and which phase the response takes
it to. That a program follows a discipline is a fact about the program alone; what holds of the shared state and of the
phases of all threads follows from single permitted steps.

- `follows_bind`, `Follows.mono`: a program is checked part by part;
- `Follows.ends`, `Follows.forall_acts`: what a discipline says about the program on its own;
- `Run.disciplined`: in a run of threads that follow the discipline, what every permitted step keeps holds at the end;
- `Run.permitted`: and every event of the run is a permitted one.
-/

namespace Conc

/-- What a thread may do in a phase and where this takes it. -/
structure Discipline (S : Sig) (Φ : Type) where
  may : Φ → S.Cmd → Prop
  next : Φ → Act S → Φ

variable {S : Sig} {ε α β Φ ι σ : Type}

/-! ## Programs -/

/-- Every command of the program is permitted, whatever the responses; the result is as expected for the last phase. -/
def Follows (D : Discipline S Φ) : Prog S ε α → Φ → (Except ε α → Φ → Prop) → Prop
  | .ret a, φ, Q => Q (.ok a) φ
  | .raise e, φ, Q => Q (.error e) φ
  | .call c k, φ, Q => D.may φ c ∧ ∀ r, Follows D (k r) (D.next φ ⟨c, r⟩) Q

section Programs

variable {D : Discipline S Φ} {Q : Except ε α → Φ → Prop} {φ : Φ}

@[simp] theorem follows_ret {a : α} : Follows D (.ret a) φ Q ↔ Q (.ok a) φ := Iff.rfl

@[simp] theorem follows_raise {e : ε} : Follows D (.raise e) φ Q ↔ Q (.error e) φ := Iff.rfl

@[simp] theorem follows_call {c : S.Cmd} {k : S.Resp c → Prog S ε α} :
    Follows D (.call c k) φ Q ↔ D.may φ c ∧ ∀ r, Follows D (k r) (D.next φ ⟨c, r⟩) Q := Iff.rfl

@[simp] theorem follows_lift {x : Except ε α} : Follows D (.lift x) φ Q ↔ Q x φ := by
  cases x <;> rfl

/-- What is expected of the first part so that the whole ends as expected. -/
def Then (D : Discipline S Φ) (f : α → Prog S ε β) (Q : Except ε β → Φ → Prop) : Except ε α → Φ → Prop
  | .ok a, φ => Follows D (f a) φ Q
  | .error e, φ => Q (.error e) φ

@[simp] theorem then_ok {f : α → Prog S ε β} {Q : Except ε β → Φ → Prop} {a : α} :
    Then D f Q (.ok a) φ ↔ Follows D (f a) φ Q := Iff.rfl

@[simp] theorem then_error {f : α → Prog S ε β} {Q : Except ε β → Φ → Prop} {e : ε} :
    Then D f Q (.error e) φ ↔ Q (.error e) φ := Iff.rfl

/-- **Sequencing.** -/
theorem follows_bind {p : Prog S ε α} {f : α → Prog S ε β} {Q : Except ε β → Φ → Prop} :
    Follows D (p >>= f) φ Q ↔ Follows D p φ (Then D f Q) := by
  induction p generalizing φ with
  | ret a => rfl
  | raise e => rfl
  | call c k ih =>
    rw [Prog.call_bind, follows_call, follows_call]
    exact and_congr_right fun _ => forall_congr' fun r => ih r

theorem Follows.mono {p : Prog S ε α} {Q' : Except ε α → Φ → Prop} (h : Follows D p φ Q)
    (hQ : ∀ res ψ, Q res ψ → Q' res ψ) : Follows D p φ Q' := by
  induction p generalizing φ with
  | ret a => exact hQ _ _ h
  | raise e => exact hQ _ _ h
  | call c k ih => exact ⟨h.1, fun r => ih r (h.2 r)⟩

/-- **Single programs**: the result is as expected for the phase that the actions lead to. -/
theorem Follows.ends {p : Prog S ε α} {tr : List (Act S)} {res : Except ε α} (h : Follows D p φ Q) (he : Ends p tr res) :
    Q res (tr.foldl D.next φ) := by
  induction p generalizing φ tr with
  | ret a =>
    obtain ⟨rfl, rfl⟩ := ends_ret.1 he
    exact h
  | raise e =>
    obtain ⟨rfl, rfl⟩ := ends_raise.1 he
    exact h
  | call c k ih =>
    obtain ⟨r, tr', rfl, he'⟩ := ends_call.1 he
    rw [List.foldl_cons]
    exact ih r (h.2 r) he'

/-- The discipline of issuing certain commands only. -/
def Discipline.only (P : S.Cmd → Prop) : Discipline S Unit := ⟨fun _ c => P c, fun _ _ => ()⟩

/-- A program that issues certain commands only does nothing else. -/
theorem Follows.forall_acts {P : S.Cmd → Prop} {p : Prog S ε α} {Q : Except ε α → Unit → Prop} {tr : List (Act S)}
    {res : Except ε α} (h : Follows (.only P) p () Q) (he : Ends p tr res) : ∀ a ∈ tr, P a.cmd := by
  induction p generalizing tr with
  | ret a =>
    obtain ⟨rfl, _⟩ := ends_ret.1 he
    exact fun a ha => absurd ha List.not_mem_nil
  | raise e =>
    obtain ⟨rfl, _⟩ := ends_raise.1 he
    exact fun a ha => absurd ha List.not_mem_nil
  | call c k ih =>
    obtain ⟨r, tr', rfl, he'⟩ := ends_call.1 he
    intro a ha
    rcases List.mem_cons.1 ha with rfl | ha
    · exact h.1
    · exact ih r (h.2 r) he' a ha

end Programs

/-! ## Runs -/

section Runs

variable [DecidableEq ι] {D : Discipline S Φ} {Q : Except ε α → Φ → Prop} {sem : Sem ι σ S}
  {I : List (Event ι S) → σ → (ι → Φ) → Prop}

/-- Every permitted step keeps the invariant of the trace, the shared state and the phases. -/
def Keeps (D : Discipline S Φ) (sem : Sem ι σ S) (I : List (Event ι S) → σ → (ι → Φ) → Prop) : Prop :=
  ∀ tr s φ i a s', I tr s φ → D.may (φ i) a.cmd → sem i s a s' →
    I (tr ++ [⟨i, a⟩]) s' (Function.update φ i (D.next (φ i) a))

variable {a b : Config ι σ S ε α} {past tr : List (Event ι S)} {φ : ι → Φ}

/-- **Runs of disciplined threads** keep what permitted steps keep. -/
theorem Run.disciplined (h : Run sem a tr b) (hI : Keeps D sem I) (h₀ : I past a.shared φ)
    (hf : ∀ i, Follows D (a.prog i) (φ i) Q) :
    ∃ ψ, I (past ++ tr) b.shared ψ ∧ ∀ i, Follows D (b.prog i) (ψ i) Q := by
  induction h with
  | nil => exact ⟨φ, by simpa using h₀, hf⟩
  | snoc _ hs ih =>
    obtain ⟨ψ, hψ, hfψ⟩ := ih
    cases hs with
    | @mk s s' P i c k r hp hsem =>
      have hi := hfψ i
      simp only [hp, follows_call] at hi
      refine ⟨Function.update ψ i (D.next (ψ i) ⟨c, r⟩), ?_, fun j => ?_⟩
      · rw [← List.append_assoc]
        exact hI _ _ _ _ _ _ hψ hi.1 hsem
      · by_cases hj : j = i
        · subst hj
          simpa using hi.2 r
        · simpa [hj] using hfψ j

/-- Every event of the run is permitted where it occurs. -/
theorem Run.permitted {pre post : List (Event ι S)} {e : Event ι S} (h : Run sem a (pre ++ e :: post) b)
    (hI : Keeps D sem I) (h₀ : I past a.shared φ) (hf : ∀ i, Follows D (a.prog i) (φ i) Q) :
    ∃ s ψ, I (past ++ pre) s ψ ∧ D.may (ψ e.tid) e.act.cmd := by
  obtain ⟨c, d, hrun, hs, _⟩ := h.step
  obtain ⟨ψ, hψ, hfψ⟩ := hrun.disciplined hI h₀ hf
  cases hs with
  | @mk s s' P i cmd k r hp _ =>
    have hi := hfψ i
    simp only [hp, follows_call] at hi
    exact ⟨s, ψ, hψ, hi.1⟩

end Runs

end Conc
