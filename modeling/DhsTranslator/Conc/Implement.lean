import DhsTranslator.Conc.Discipline

/-!
# Programs that do the commands of other programs

What is one command to a program may be a program of its own.

- `Prog.attempt`: a program that cannot raise, from one that can; `Prog.andThen`: sequencing after such a program;
- `Impl` gives a program for every command, `Prog.plug` puts them in the places of the commands;
- `Sig.sum`, `Sem.sum`: two components side by side, each with its own commands and its own state; `Prog.inl` and
  `Prog.inr` are programs that use one of them;
- `follows_plug` and the rules before it: a program that is put together follows a discipline if its parts do.
-/

namespace Conc

variable {S T : Sig} {ε α β Φ ι σ τ : Type}

/-! ## Programs that cannot raise -/

/-- What is done with the result, or with the exception. -/
def Prog.attempt (h : Except ε α → Prog S Empty β) : Prog S ε α → Prog S Empty β
  | .ret a => h (.ok a)
  | .raise e => h (.error e)
  | .call c k => .call c fun r => (k r).attempt h

/-- Sequencing after a program that cannot raise. -/
def Prog.andThen : Prog S Empty β → (β → Prog S ε α) → Prog S ε α
  | .ret b, f => f b
  | .call c k, f => .call c fun r => (k r).andThen f

@[simp] theorem ret_andThen (b : β) (f : β → Prog S ε α) : (Prog.ret b : Prog S Empty β).andThen f = f b := rfl

@[simp] theorem call_andThen (c : S.Cmd) (k : S.Resp c → Prog S Empty β) (f : β → Prog S ε α) :
    (Prog.call c k).andThen f = .call c fun r => (k r).andThen f := rfl

theorem ends_attempt {h : Except ε α → Prog S Empty β} {p : Prog S ε α} {tr : List (Act S)} {res : Except Empty β} :
    Ends (p.attempt h) tr res ↔ ∃ x tr₁ tr₂, tr = tr₁ ++ tr₂ ∧ Ends p tr₁ x ∧ Ends (h x) tr₂ res := by
  induction p generalizing tr with
  | ret a =>
    constructor
    · intro hend
      exact ⟨.ok a, [], tr, rfl, ends_ret.2 ⟨rfl, rfl⟩, hend⟩
    · rintro ⟨x, tr₁, tr₂, rfl, h₁, h₂⟩
      obtain ⟨rfl, rfl⟩ := ends_ret.1 h₁
      exact h₂
  | raise e =>
    constructor
    · intro hend
      exact ⟨.error e, [], tr, rfl, ends_raise.2 ⟨rfl, rfl⟩, hend⟩
    · rintro ⟨x, tr₁, tr₂, rfl, h₁, h₂⟩
      obtain ⟨rfl, rfl⟩ := ends_raise.1 h₁
      exact h₂
  | call c k ih =>
    rw [Prog.attempt, ends_call]
    constructor
    · rintro ⟨r, tr', rfl, hend⟩
      obtain ⟨x, tr₁, tr₂, rfl, h₁, h₂⟩ := (ih r).1 hend
      exact ⟨x, ⟨c, r⟩ :: tr₁, tr₂, rfl, ends_call.2 ⟨r, tr₁, rfl, h₁⟩, h₂⟩
    · rintro ⟨x, tr₁, tr₂, rfl, h₁, h₂⟩
      obtain ⟨r, tr', rfl, h₁'⟩ := ends_call.1 h₁
      exact ⟨r, tr' ++ tr₂, rfl, (ih r).2 ⟨x, tr', tr₂, rfl, h₁', h₂⟩⟩

/-- What a program that cannot raise has done, before what comes after it. -/
theorem Ends.andThen {p : Prog S Empty β} {f : β → Prog S ε α} {tr : List (Act S)} {b : β} (h : Ends p tr (.ok b)) :
    Path (p.andThen f) tr (f b) := by
  induction p generalizing tr with
  | ret b' =>
    obtain ⟨rfl, hb⟩ := ends_ret.1 h
    cases hb
    exact .nil _
  | raise e => exact e.elim
  | call c k ih =>
    obtain ⟨r, tr', rfl, h'⟩ := ends_call.1 h
    exact .cons r (ih r h')

/-! ## Implementations -/

/-- A program for every command. -/
abbrev Impl (S T : Sig) := (c : S.Cmd) → Prog T Empty (S.Resp c)

/-- The programs in the places of the commands. -/
def Prog.plug (impl : Impl S T) : Prog S ε α → Prog T ε α
  | .ret a => .ret a
  | .raise e => .raise e
  | .call c k => (impl c).andThen fun r => (k r).plug impl

@[simp] theorem plug_ret (impl : Impl S T) (a : α) : (Prog.ret a : Prog S ε α).plug impl = .ret a := rfl

@[simp] theorem plug_raise (impl : Impl S T) (e : ε) : (Prog.raise e : Prog S ε α).plug impl = .raise e := rfl

@[simp] theorem plug_call (impl : Impl S T) (c : S.Cmd) (k : S.Resp c → Prog S ε α) :
    (Prog.call c k).plug impl = (impl c).andThen fun r => (k r).plug impl := rfl

/-! ## Components -/

/-- The commands of both. -/
abbrev Sig.sum (S T : Sig) : Sig := ⟨S.Cmd ⊕ T.Cmd, fun | .inl c => S.Resp c | .inr c => T.Resp c⟩

/-- A program that uses the first component. -/
def Prog.inl : Prog S ε α → Prog (S.sum T) ε α
  | .ret a => .ret a
  | .raise e => .raise e
  | .call c k => .call (S := S.sum T) (.inl c) fun r => (k r).inl

/-- A program that uses the second component. -/
def Prog.inr : Prog T ε α → Prog (S.sum T) ε α
  | .ret a => .ret a
  | .raise e => .raise e
  | .call c k => .call (S := S.sum T) (.inr c) fun r => (k r).inr

def Act.inl (a : Act S) : Act (S.sum T) := ⟨.inl a.cmd, a.resp⟩

def Act.inr (a : Act T) : Act (S.sum T) := ⟨.inr a.cmd, a.resp⟩

/-- The action, if it is one of the first component. -/
def Act.left? : Act (S.sum T) → Option (Act S)
  | ⟨.inl c, r⟩ => some ⟨c, r⟩
  | ⟨.inr _, _⟩ => none

/-- The action, if it is one of the second component. -/
def Act.right? : Act (S.sum T) → Option (Act T)
  | ⟨.inl _, _⟩ => none
  | ⟨.inr c, r⟩ => some ⟨c, r⟩

@[simp] theorem right?_inr (a : Act T) : (Act.inr a : Act (S.sum T)).right? = some a := rfl

@[simp] theorem left?_inl (a : Act S) : (Act.inl a : Act (S.sum T)).left? = some a := rfl

/-- Each component is changed by its own commands. -/
def Sem.sum (sem : Sem ι σ S) (sem' : Sem ι τ T) : Sem ι (σ × τ) (S.sum T)
  | i, s, ⟨.inl c, r⟩, s' => sem i s.1 ⟨c, r⟩ s'.1 ∧ s'.2 = s.2
  | i, s, ⟨.inr c, r⟩, s' => s'.1 = s.1 ∧ sem' i s.2 ⟨c, r⟩ s'.2

theorem ends_inl {p : Prog S ε α} {tr : List (Act (S.sum T))} {res : Except ε α} :
    Ends p.inl tr res ↔ ∃ acts, Ends p acts res ∧ tr = acts.map Act.inl := by
  induction p generalizing tr with
  | ret a =>
    rw [Prog.inl, ends_ret]
    constructor
    · rintro ⟨rfl, rfl⟩
      exact ⟨[], ends_ret.2 ⟨rfl, rfl⟩, rfl⟩
    · rintro ⟨acts, h, rfl⟩
      obtain ⟨rfl, rfl⟩ := ends_ret.1 h
      exact ⟨rfl, rfl⟩
  | raise e =>
    rw [Prog.inl, ends_raise]
    constructor
    · rintro ⟨rfl, rfl⟩
      exact ⟨[], ends_raise.2 ⟨rfl, rfl⟩, rfl⟩
    · rintro ⟨acts, h, rfl⟩
      obtain ⟨rfl, rfl⟩ := ends_raise.1 h
      exact ⟨rfl, rfl⟩
  | call c k ih =>
    rw [Prog.inl, ends_call]
    constructor
    · rintro ⟨r, tr', rfl, h⟩
      obtain ⟨acts, hacts, rfl⟩ := (ih r).1 h
      exact ⟨⟨c, r⟩ :: acts, ends_call.2 ⟨r, acts, rfl, hacts⟩, rfl⟩
    · rintro ⟨acts, h, rfl⟩
      obtain ⟨r, acts', rfl, hacts⟩ := ends_call.1 h
      exact ⟨r, acts'.map Act.inl, rfl, (ih r).2 ⟨acts', hacts, rfl⟩⟩

theorem ends_inr {p : Prog T ε α} {tr : List (Act (S.sum T))} {res : Except ε α} :
    Ends p.inr tr res ↔ ∃ acts, Ends p acts res ∧ tr = acts.map Act.inr := by
  induction p generalizing tr with
  | ret a =>
    rw [Prog.inr, ends_ret]
    constructor
    · rintro ⟨rfl, rfl⟩
      exact ⟨[], ends_ret.2 ⟨rfl, rfl⟩, rfl⟩
    · rintro ⟨acts, h, rfl⟩
      obtain ⟨rfl, rfl⟩ := ends_ret.1 h
      exact ⟨rfl, rfl⟩
  | raise e =>
    rw [Prog.inr, ends_raise]
    constructor
    · rintro ⟨rfl, rfl⟩
      exact ⟨[], ends_raise.2 ⟨rfl, rfl⟩, rfl⟩
    · rintro ⟨acts, h, rfl⟩
      obtain ⟨rfl, rfl⟩ := ends_raise.1 h
      exact ⟨rfl, rfl⟩
  | call c k ih =>
    rw [Prog.inr, ends_call]
    constructor
    · rintro ⟨r, tr', rfl, h⟩
      obtain ⟨acts, hacts, rfl⟩ := (ih r).1 h
      exact ⟨⟨c, r⟩ :: acts, ends_call.2 ⟨r, acts, rfl, hacts⟩, rfl⟩
    · rintro ⟨acts, h, rfl⟩
      obtain ⟨r, acts', rfl, hacts⟩ := ends_call.1 h
      exact ⟨r, acts'.map Act.inr, rfl, (ih r).2 ⟨acts', hacts, rfl⟩⟩

/-! ## Disciplines -/

section Disciplines

variable {D : Discipline T Φ} {idle : Φ → Prop} {φ : Φ}

theorem follows_attempt {h : Except ε α → Prog T Empty β} {p : Prog T ε α} {Q : Except Empty β → Φ → Prop} :
    Follows D (p.attempt h) φ Q ↔ Follows D p φ fun x ψ => Follows D (h x) ψ Q := by
  induction p generalizing φ with
  | ret a => rfl
  | raise e => rfl
  | call c k ih =>
    rw [Prog.attempt, follows_call, follows_call]
    exact and_congr_right fun _ => forall_congr' fun r => ih r

theorem follows_andThen {p : Prog T Empty β} {f : β → Prog T ε α} {Q : Except ε α → Φ → Prop}
    (h : Follows D p φ fun x ψ => ∀ b, x = .ok b → Follows D (f b) ψ Q) : Follows D (p.andThen f) φ Q := by
  induction p generalizing φ with
  | ret b => exact h b rfl
  | raise e => exact e.elim
  | call c k ih => exact ⟨h.1, fun r => ih r (h.2 r)⟩

theorem follows_tryCatch {p : Prog T ε α} {h : ε → Prog T ε α} {Q : Except ε α → Φ → Prop}
    (hp : Follows D p φ fun x ψ => (∀ a, x = .ok a → Q x ψ) ∧ ∀ e, x = .error e → Follows D (h e) ψ Q) :
    Follows D (p.tryCatch h) φ Q := by
  induction p generalizing φ with
  | ret a => exact hp.1 a rfl
  | raise e => exact hp.2 e rfl
  | call c k ih => exact ⟨hp.1, fun r => ih r (hp.2 r)⟩

/-- **A program that is put together** follows a discipline if the programs of its commands do, from idle phases to idle
phases. -/
theorem follows_plug {impl : Impl S T} {P : S.Cmd → Prop} {p : Prog S ε α} (hp : Follows (.only P) p () fun _ _ => True)
    (himpl : ∀ c φ, P c → idle φ → Follows D (impl c) φ fun _ ψ => idle ψ) (hφ : idle φ) :
    Follows D (p.plug impl) φ fun _ ψ => idle ψ := by
  induction p generalizing φ with
  | ret a => exact hφ
  | raise e => exact hφ
  | call c k ih => exact follows_andThen ((himpl c φ hp.1 hφ).mono fun x ψ hψ b _ => ih b (hp.2 b) hψ)

/-- The discipline of a component, next to another component that is used in idle phases only. -/
def Discipline.beside (D : Discipline T Φ) (idle : Φ → Prop) (S : Sig) : Discipline (S.sum T) Φ where
  may
    | φ, .inl _ => idle φ
    | φ, .inr c => D.may φ c
  next
    | φ, ⟨.inl _, _⟩ => φ
    | φ, ⟨.inr c, r⟩ => D.next φ ⟨c, r⟩

theorem follows_inr {p : Prog T ε α} {Q : Except ε α → Φ → Prop} (h : Follows D p φ Q) :
    Follows (D.beside idle S) p.inr φ Q := by
  induction p generalizing φ with
  | ret a => exact h
  | raise e => exact h
  | call c k ih => exact ⟨h.1, fun r => ih r (h.2 r)⟩

theorem follows_inl {p : Prog S ε α} (hφ : idle φ) : Follows (D.beside idle S) p.inl φ fun _ ψ => idle ψ := by
  induction p generalizing φ with
  | ret a => exact hφ
  | raise e => exact hφ
  | call c k ih => exact ⟨hφ, fun r => ih r hφ⟩

end Disciplines

end Conc
