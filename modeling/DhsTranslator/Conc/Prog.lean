import Mathlib.Logic.Basic

/-!
# Programs over a signature of commands

A program is a tree: it returns, raises, or issues a command and continues with the response. Nothing is said here
about what a command does; the same program is run by a handler (`Prog.run`), or by any number of threads next to
each other (`Interleaving.lean`).

- `Prog` is a monad with `tryCatch`; sequencing and catching go under a command (`call_bind`, `tryCatch_call`);
- `Path p tr q`: answering the commands of `p` as in `tr` leads to `q`; paths compose (`Path.trans`) and split
  (`path_append`);
- `Ends p tr res`: a path to a result; how sequencing and catching end is `ends_bind` and `ends_tryCatch`;
- a run with a handler ends (`run_ends`).
-/

namespace Conc

/-- The commands of a component and the type of the response to each. -/
structure Sig where
  Cmd : Type
  Resp : Cmd → Type

/-- A command with its response. -/
structure Act (S : Sig) where
  cmd : S.Cmd
  resp : S.Resp cmd

/-- A program: a result, an exception, or a command and what is done with its response. -/
inductive Prog (S : Sig) (ε α : Type) : Type where
  | ret (a : α)
  | raise (e : ε)
  | call (c : S.Cmd) (k : S.Resp c → Prog S ε α)

variable {S : Sig} {ε α β γ σ : Type}

/-! ## The monad -/

namespace Prog

/-- Sequencing. -/
def bind : Prog S ε α → (α → Prog S ε β) → Prog S ε β
  | .ret a, f => f a
  | .raise e, _ => .raise e
  | .call c k, f => .call c (fun r => bind (k r) f)

instance : Monad (Prog S ε) where
  pure := .ret
  bind := bind

/-- A computation without commands. -/
def lift : Except ε α → Prog S ε α
  | .ok a => .ret a
  | .error e => .raise e

/-- Continue a raised exception with `h`. -/
def tryCatch : Prog S ε α → (ε → Prog S ε α) → Prog S ε α
  | .ret a, _ => .ret a
  | .raise e, h => h e
  | .call c k, h => .call c (fun r => tryCatch (k r) h)

@[simp] theorem pure_eq (a : α) : (pure a : Prog S ε α) = .ret a := rfl

@[simp] theorem ret_bind (a : α) (f : α → Prog S ε β) : (Prog.ret a : Prog S ε α) >>= f = f a := rfl

@[simp] theorem raise_bind (e : ε) (f : α → Prog S ε β) : (Prog.raise e : Prog S ε α) >>= f = .raise e := rfl

@[simp] theorem call_bind (c : S.Cmd) (k : S.Resp c → Prog S ε α) (f : α → Prog S ε β) :
    Prog.call c k >>= f = .call c (fun r => k r >>= f) := rfl

@[simp] theorem lift_ok (a : α) : (lift (.ok a) : Prog S ε α) = .ret a := rfl

@[simp] theorem lift_error (e : ε) : (lift (.error e) : Prog S ε α) = .raise e := rfl

@[simp] theorem tryCatch_ret (a : α) (h : ε → Prog S ε α) : tryCatch (.ret a) h = .ret a := rfl

@[simp] theorem tryCatch_raise (e : ε) (h : ε → Prog S ε α) : tryCatch (.raise e) h = h e := rfl

@[simp] theorem tryCatch_call (c : S.Cmd) (k : S.Resp c → Prog S ε α) (h : ε → Prog S ε α) :
    tryCatch (.call c k) h = .call c (fun r => tryCatch (k r) h) := rfl

end Prog

open Prog

/-! ## Paths -/

/-- Answering the commands of the first program as listed leads to the second. -/
inductive Path : Prog S ε α → List (Act S) → Prog S ε α → Prop
  | nil (p : Prog S ε α) : Path p [] p
  | cons {c : S.Cmd} {k : S.Resp c → Prog S ε α} {tr : List (Act S)} {q : Prog S ε α} (r : S.Resp c) :
      Path (k r) tr q → Path (.call c k) (⟨c, r⟩ :: tr) q

@[simp] theorem path_nil {p q : Prog S ε α} : Path p [] q ↔ q = p := by
  constructor
  · intro h; cases h; rfl
  · rintro rfl; exact .nil _

@[simp] theorem path_ret {a : α} {tr : List (Act S)} {q : Prog S ε α} :
    Path (.ret a) tr q ↔ tr = [] ∧ q = .ret a := by
  constructor
  · intro h; cases h; exact ⟨rfl, rfl⟩
  · rintro ⟨rfl, rfl⟩; exact .nil _

@[simp] theorem path_raise {e : ε} {tr : List (Act S)} {q : Prog S ε α} :
    Path (.raise e) tr q ↔ tr = [] ∧ q = .raise e := by
  constructor
  · intro h; cases h; exact ⟨rfl, rfl⟩
  · rintro ⟨rfl, rfl⟩; exact .nil _

/-- What a program that issues a command has done: nothing yet, or the command first. -/
theorem path_call {c : S.Cmd} {k : S.Resp c → Prog S ε α} {tr : List (Act S)} {q : Prog S ε α} :
    Path (.call c k) tr q ↔ (tr = [] ∧ q = .call c k) ∨ ∃ r tr', tr = ⟨c, r⟩ :: tr' ∧ Path (k r) tr' q := by
  constructor
  · intro h
    cases h with
    | nil => exact Or.inl ⟨rfl, rfl⟩
    | cons r h => exact Or.inr ⟨r, _, rfl, h⟩
  · rintro (⟨rfl, rfl⟩ | ⟨r, tr', rfl, h⟩)
    · exact .nil _
    · exact .cons r h

theorem Path.trans {p q r : Prog S ε α} {tr tr' : List (Act S)} (h : Path p tr q) (h' : Path q tr' r) :
    Path p (tr ++ tr') r := by
  induction h with
  | nil => exact h'
  | cons r _ ih => exact .cons r (ih h')

theorem path_append {p r : Prog S ε α} {tr tr' : List (Act S)} :
    Path p (tr ++ tr') r ↔ ∃ q, Path p tr q ∧ Path q tr' r := by
  constructor
  · intro h
    induction tr generalizing p with
    | nil => exact ⟨p, .nil p, h⟩
    | cons a tr ih =>
      cases h with
      | cons x h =>
        obtain ⟨q, h₁, h₂⟩ := ih h
        exact ⟨q, .cons x h₁, h₂⟩
  · rintro ⟨q, h₁, h₂⟩; exact h₁.trans h₂

/-! ## Ends -/

/-- The program ends with the result after the actions. -/
def Ends (p : Prog S ε α) (tr : List (Act S)) (res : Except ε α) : Prop := Path p tr (.lift res)

theorem lift_injective {x y : Except ε α} (h : (Prog.lift x : Prog S ε α) = .lift y) : x = y := by
  cases x <;> cases y <;> cases h <;> rfl

@[simp] theorem ends_ret {a : α} {tr : List (Act S)} {res : Except ε α} :
    Ends (.ret a) tr res ↔ tr = [] ∧ res = .ok a := by
  unfold Ends
  rw [path_ret]
  exact and_congr_right fun _ => ⟨fun h => lift_injective (S := S) h, fun h => by rw [h]; rfl⟩

@[simp] theorem ends_raise {e : ε} {tr : List (Act S)} {res : Except ε α} :
    Ends (.raise e) tr res ↔ tr = [] ∧ res = .error e := by
  unfold Ends
  rw [path_raise]
  exact and_congr_right fun _ => ⟨fun h => lift_injective (S := S) h, fun h => by rw [h]; rfl⟩

@[simp] theorem ends_call {c : S.Cmd} {k : S.Resp c → Prog S ε α} {tr : List (Act S)} {res : Except ε α} :
    Ends (.call c k) tr res ↔ ∃ r tr', tr = ⟨c, r⟩ :: tr' ∧ Ends (k r) tr' res := by
  unfold Ends
  rw [path_call]
  constructor
  · rintro (⟨_, h⟩ | h)
    · cases res <;> cases h
    · exact h
  · exact Or.inr

/-- The actions of a program determine its result. -/
theorem Ends.unique {p : Prog S ε α} {tr : List (Act S)} {res res' : Except ε α} (h : Ends p tr res)
    (h' : Ends p tr res') : res = res' := by
  induction p generalizing tr with
  | ret a => rw [(ends_ret.1 h).2, (ends_ret.1 h').2]
  | raise e => rw [(ends_raise.1 h).2, (ends_raise.1 h').2]
  | call c k ih =>
    obtain ⟨r, tr₁, rfl, h₁⟩ := ends_call.1 h
    obtain ⟨r', tr₂, heq, h₂⟩ := ends_call.1 h'
    cases heq
    exact ih r h₁ h₂

/-- **Sequencing**: the first part returns and the second goes on, or the first part raises. -/
theorem ends_bind {p : Prog S ε α} {f : α → Prog S ε β} {tr : List (Act S)} {res : Except ε β} :
    Ends (p >>= f) tr res ↔
      (∃ a tr₁ tr₂, tr = tr₁ ++ tr₂ ∧ Ends p tr₁ (.ok a) ∧ Ends (f a) tr₂ res) ∨
      ∃ e, res = .error e ∧ Ends p tr (.error e) := by
  induction p generalizing tr with
  | ret a =>
    rw [ret_bind]
    constructor
    · intro h; exact Or.inl ⟨a, [], tr, rfl, ends_ret.2 ⟨rfl, rfl⟩, h⟩
    · rintro (⟨b, tr₁, tr₂, rfl, h₁, h₂⟩ | ⟨e, _, h⟩)
      · obtain ⟨rfl, hb⟩ := ends_ret.1 h₁
        cases hb; exact h₂
      · cases (ends_ret.1 h).2
  | raise e =>
    rw [raise_bind, ends_raise]
    constructor
    · rintro ⟨rfl, rfl⟩; exact Or.inr ⟨e, rfl, ends_raise.2 ⟨rfl, rfl⟩⟩
    · rintro (⟨b, tr₁, tr₂, rfl, h₁, h₂⟩ | ⟨e', rfl, h⟩)
      · cases (ends_raise.1 h₁).2
      · obtain ⟨rfl, he⟩ := ends_raise.1 h
        cases he; exact ⟨rfl, rfl⟩
  | call c k ih =>
    rw [call_bind, ends_call]
    constructor
    · rintro ⟨r, tr', rfl, h⟩
      rcases (ih r).1 h with ⟨a, tr₁, tr₂, rfl, h₁, h₂⟩ | ⟨e, rfl, h₁⟩
      · exact Or.inl ⟨a, ⟨c, r⟩ :: tr₁, tr₂, rfl, ends_call.2 ⟨r, tr₁, rfl, h₁⟩, h₂⟩
      · exact Or.inr ⟨e, rfl, ends_call.2 ⟨r, tr', rfl, h₁⟩⟩
    · rintro (⟨a, tr₁, tr₂, rfl, h₁, h₂⟩ | ⟨e, rfl, h₁⟩)
      · obtain ⟨r, tr', rfl, h₃⟩ := ends_call.1 h₁
        exact ⟨r, tr' ++ tr₂, rfl, (ih r).2 (Or.inl ⟨a, tr', tr₂, rfl, h₃, h₂⟩)⟩
      · obtain ⟨r, tr', rfl, h₃⟩ := ends_call.1 h₁
        exact ⟨r, tr', rfl, (ih r).2 (Or.inr ⟨e, rfl, h₃⟩)⟩

/-- **Catching**: the program returns, or it raises and the handler goes on. -/
theorem ends_tryCatch {p : Prog S ε α} {h : ε → Prog S ε α} {tr : List (Act S)} {res : Except ε α} :
    Ends (p.tryCatch h) tr res ↔
      (∃ a, res = .ok a ∧ Ends p tr (.ok a)) ∨
      ∃ e tr₁ tr₂, tr = tr₁ ++ tr₂ ∧ Ends p tr₁ (.error e) ∧ Ends (h e) tr₂ res := by
  induction p generalizing tr with
  | ret a =>
    rw [tryCatch_ret, ends_ret]
    constructor
    · rintro ⟨rfl, rfl⟩; exact Or.inl ⟨a, rfl, ends_ret.2 ⟨rfl, rfl⟩⟩
    · rintro (⟨b, rfl, h₁⟩ | ⟨e, tr₁, tr₂, rfl, h₁, h₂⟩)
      · exact ends_ret.1 h₁
      · cases (ends_ret.1 h₁).2
  | raise e =>
    rw [tryCatch_raise]
    constructor
    · intro h₁; exact Or.inr ⟨e, [], tr, rfl, ends_raise.2 ⟨rfl, rfl⟩, h₁⟩
    · rintro (⟨b, rfl, h₁⟩ | ⟨e', tr₁, tr₂, rfl, h₁, h₂⟩)
      · cases (ends_raise.1 h₁).2
      · obtain ⟨rfl, he⟩ := ends_raise.1 h₁
        cases he; exact h₂
  | call c k ih =>
    rw [tryCatch_call, ends_call]
    constructor
    · rintro ⟨r, tr', rfl, h₁⟩
      rcases (ih r).1 h₁ with ⟨a, rfl, h₂⟩ | ⟨e, tr₁, tr₂, rfl, h₂, h₃⟩
      · exact Or.inl ⟨a, rfl, ends_call.2 ⟨r, tr', rfl, h₂⟩⟩
      · exact Or.inr ⟨e, ⟨c, r⟩ :: tr₁, tr₂, rfl, ends_call.2 ⟨r, tr₁, rfl, h₂⟩, h₃⟩
    · rintro (⟨a, rfl, h₁⟩ | ⟨e, tr₁, tr₂, rfl, h₁, h₂⟩)
      · obtain ⟨r, tr', rfl, h₃⟩ := ends_call.1 h₁
        exact ⟨r, tr', rfl, (ih r).2 (Or.inl ⟨a, rfl, h₃⟩)⟩
      · obtain ⟨r, tr', rfl, h₃⟩ := ends_call.1 h₁
        exact ⟨r, tr' ++ tr₂, rfl, (ih r).2 (Or.inr ⟨e, tr', tr₂, rfl, h₃, h₂⟩)⟩

/-! ## Runs with a handler -/

/-- What a run with a handler leaves: the result, the commands with their responses, and the state. -/
structure Outcome (S : Sig) (ε α σ : Type) where
  result : Except ε α
  acts : List (Act S)
  state : σ

/-- Run a program, answering every command by the handler `h`. -/
def Prog.run (h : (c : S.Cmd) → σ → S.Resp c × σ) : Prog S ε α → σ → Outcome S ε α σ
  | .ret a, s => ⟨.ok a, [], s⟩
  | .raise e, s => ⟨.error e, [], s⟩
  | .call c k, s =>
    let o := run h (k (h c s).1) (h c s).2
    ⟨o.result, ⟨c, (h c s).1⟩ :: o.acts, o.state⟩

section Run

variable (h : (c : S.Cmd) → σ → S.Resp c × σ)

@[simp] theorem run_ret (a : α) (s : σ) : (Prog.ret a : Prog S ε α).run h s = ⟨.ok a, [], s⟩ := rfl

@[simp] theorem run_raise (e : ε) (s : σ) : (Prog.raise e : Prog S ε α).run h s = ⟨.error e, [], s⟩ := rfl

@[simp] theorem run_call (c : S.Cmd) (k : S.Resp c → Prog S ε α) (s : σ) :
    (Prog.call c k).run h s = ⟨((k (h c s).1).run h (h c s).2).result,
      ⟨c, (h c s).1⟩ :: ((k (h c s).1).run h (h c s).2).acts, ((k (h c s).1).run h (h c s).2).state⟩ := rfl

/-- A run ends with its result after its actions. -/
theorem run_ends (p : Prog S ε α) (s : σ) : Ends p (p.run h s).acts (p.run h s).result := by
  induction p generalizing s with
  | ret a => exact .nil _
  | raise e => exact .nil _
  | call c k ih => exact .cons _ (ih _ _)

variable {h} in
/-- What every answer of the handler satisfies, from states with the invariant, all actions of a run satisfy. -/
theorem run_forall {I : σ → Prop} {P : Act S → Prop}
    (hI : ∀ c s, I s → P ⟨c, (h c s).1⟩ ∧ I (h c s).2) (p : Prog S ε α) {s : σ} (hs : I s) :
    ∀ a ∈ (p.run h s).acts, P a := by
  induction p generalizing s with
  | ret a => simp
  | raise e => simp
  | call c k ih =>
    intro a ha
    obtain ⟨hP, hI'⟩ := hI c s hs
    rcases List.mem_cons.1 ha with rfl | ha
    · exact hP
    · exact ih _ hI' a ha

end Run

end Conc
