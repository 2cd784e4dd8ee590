import DhsTranslator.Conc.Prog
import Mathlib.Data.List.Induction
import Mathlib.Logic.Function.Basic

/-!
# Threads running programs over one shared state

Every thread runs a program; one step answers the command of one thread and changes the shared state as the semantics
of the commands allows.

- `Step`, `Run`: one step, and a run with its trace of events;
- `run_iff`: a run is an execution of the trace on the shared state in which every thread follows a path of its
  program; so a property of runs is one of the shared object plus one of single programs;
- `Run.split`, `Run.step`: a run can be cut before any of its events; `Occurs` is one step of a run;
- `Run.invariant`, `Occurs.invariant`: what every step of a run preserves holds at its end and before each step;
- `run_exec`: a run with a handler is an execution on the shared state; `run_solo`: a thread may run alone.
-/

namespace Conc

/-- An action of a thread. -/
structure Event (ι : Type) (S : Sig) where
  tid : ι
  act : Act S

/-- What answering a command for a thread does to the shared state. -/
abbrev Sem (ι σ : Type) (S : Sig) := ι → σ → Act S → σ → Prop

/-- The shared state and what every thread has left to do. -/
structure Config (ι σ : Type) (S : Sig) (ε α : Type) where
  shared : σ
  prog : ι → Prog S ε α

variable {ι σ : Type} {S : Sig} {ε α : Type}

/-! ## Executions on the shared state -/

/-- The events, one after another, take the shared state from the first to the second. -/
def Exec (sem : Sem ι σ S) : σ → List (Event ι S) → σ → Prop
  | s, [], s' => s' = s
  | s, e :: tr, s' => ∃ m, sem e.tid s e.act m ∧ Exec sem m tr s'

section Executions

variable {sem : Sem ι σ S}

@[simp] theorem exec_nil {s s' : σ} : Exec sem s [] s' ↔ s' = s := Iff.rfl

theorem exec_cons {s s' : σ} {tr : List (Event ι S)} {e : Event ι S} :
    Exec sem s (e :: tr) s' ↔ ∃ m, sem e.tid s e.act m ∧ Exec sem m tr s' := Iff.rfl

theorem exec_append {s s' : σ} {tr tr' : List (Event ι S)} :
    Exec sem s (tr ++ tr') s' ↔ ∃ m, Exec sem s tr m ∧ Exec sem m tr' s' := by
  induction tr generalizing s with
  | nil => simp
  | cons e tr ih =>
    rw [List.cons_append, exec_cons]
    constructor
    · rintro ⟨m, he, h⟩
      obtain ⟨m', h₁, h₂⟩ := ih.1 h
      exact ⟨m', ⟨m, he, h₁⟩, h₂⟩
    · rintro ⟨m', ⟨m, he, h₁⟩, h₂⟩
      exact ⟨m, he, ih.2 ⟨m', h₁, h₂⟩⟩

theorem exec_snoc {s s' : σ} {tr : List (Event ι S)} {e : Event ι S} :
    Exec sem s (tr ++ [e]) s' ↔ ∃ m, Exec sem s tr m ∧ sem e.tid m e.act s' := by
  rw [exec_append]
  constructor
  · rintro ⟨m, h, _, he, rfl⟩; exact ⟨m, h, he⟩
  · rintro ⟨m, h, he⟩; exact ⟨m, h, s', he, rfl⟩

/-- A handler that answers as the semantics allows executes its actions, as those of any thread. -/
theorem run_exec {τ : Type} {h : (c : S.Cmd) → τ → S.Resp c × τ} (view : τ → σ) {i : ι}
    (hsem : ∀ c t, sem i (view t) ⟨c, (h c t).1⟩ (view (h c t).2)) (p : Prog S ε α) (t : τ) :
    Exec sem (view t) ((p.run h t).acts.map (Event.mk i)) (view (p.run h t).state) := by
  induction p generalizing t with
  | ret a => rfl
  | raise e => rfl
  | call c k ih => exact ⟨_, hsem c t, ih _ _⟩

end Executions

/-! ## Interleaved runs -/

variable [DecidableEq ι]

/-- One thread has its command answered. -/
inductive Step (sem : Sem ι σ S) : Config ι σ S ε α → Event ι S → Config ι σ S ε α → Prop
  | mk {s s' : σ} {P : ι → Prog S ε α} {i : ι} {c : S.Cmd} {k : S.Resp c → Prog S ε α} {r : S.Resp c} :
      P i = .call c k → sem i s ⟨c, r⟩ s' → Step sem ⟨s, P⟩ ⟨i, ⟨c, r⟩⟩ ⟨s', Function.update P i (k r)⟩

/-- A run with its trace. -/
inductive Run (sem : Sem ι σ S) (a : Config ι σ S ε α) : List (Event ι S) → Config ι σ S ε α → Prop
  | nil : Run sem a [] a
  | snoc {tr : List (Event ι S)} {b c : Config ι σ S ε α} {e : Event ι S} :
      Run sem a tr b → Step sem b e c → Run sem a (tr ++ [e]) c

/-- The actions of thread `i` in a trace. -/
def actsOf (i : ι) : List (Event ι S) → List (Act S)
  | [] => []
  | e :: tr => if e.tid = i then e.act :: actsOf i tr else actsOf i tr

@[simp] theorem actsOf_nil (i : ι) : actsOf i ([] : List (Event ι S)) = [] := rfl

@[simp] theorem actsOf_append (i : ι) (tr tr' : List (Event ι S)) :
    actsOf i (tr ++ tr') = actsOf i tr ++ actsOf i tr' := by
  induction tr with
  | nil => rfl
  | cons e tr ih =>
    simp only [List.cons_append, actsOf]
    split <;> simp [ih]

theorem mem_actsOf {i : ι} {a : Act S} {tr : List (Event ι S)} : a ∈ actsOf i tr ↔ ⟨i, a⟩ ∈ tr := by
  induction tr with
  | nil => simp
  | cons e tr ih =>
    obtain ⟨j, b⟩ := e
    simp only [actsOf]
    split
    · rename_i h; subst h; simp [ih]
    · rename_i h; simp [ih, Ne.symm h]

@[simp] theorem actsOf_map (i j : ι) (acts : List (Act S)) :
    actsOf i (acts.map (Event.mk j)) = if j = i then acts else [] := by
  induction acts with
  | nil => simp
  | cons a acts ih =>
    simp only [List.map_cons, actsOf, ih]
    split <;> rfl

section Runs

variable {sem : Sem ι σ S} {a b c : Config ι σ S ε α} {tr tr' : List (Event ι S)}

/-- Every thread follows a path of its program. -/
theorem Run.path (h : Run sem a tr b) (i : ι) : Path (a.prog i) (actsOf i tr) (b.prog i) := by
  induction h with
  | nil => exact .nil _
  | snoc _ hs ih =>
    cases hs with
    | @mk s s' P j cmd k r hp _ =>
      rw [actsOf_append]
      refine ih.trans ?_
      by_cases hij : j = i
      · subst hij
        simp only [actsOf, if_true, Function.update_self, hp]
        exact .cons r (.nil _)
      · simp [actsOf, hij, Function.update_of_ne (Ne.symm hij)]

/-- The trace is an execution on the shared state. -/
theorem Run.exec (h : Run sem a tr b) : Exec sem a.shared tr b.shared := by
  induction h with
  | nil => rfl
  | snoc _ hs ih =>
    cases hs with
    | mk _ hsem => exact exec_snoc.2 ⟨_, ih, hsem⟩

/-- **Runs are executions along paths.** -/
theorem run_iff : Run sem a tr b ↔
    Exec sem a.shared tr b.shared ∧ ∀ i, Path (a.prog i) (actsOf i tr) (b.prog i) := by
  refine ⟨fun h => ⟨h.exec, h.path⟩, ?_⟩
  rintro ⟨hx, hp⟩
  induction tr using List.reverseRecOn generalizing b with
  | nil =>
    obtain ⟨s, P⟩ := a
    obtain ⟨s', Q⟩ := b
    simp only [exec_nil, actsOf_nil, path_nil] at hx hp
    obtain rfl := hx
    obtain rfl : Q = P := funext hp
    exact .nil
  | append_singleton tr e ih =>
    obtain ⟨i, act⟩ := e
    obtain ⟨m, hx₁, hx₂⟩ := exec_snoc.1 hx
    have hmid : ∀ j, ∃ q, Path (a.prog j) (actsOf j tr) q ∧ Path q (actsOf j [⟨i, act⟩]) (b.prog j) :=
      fun j => path_append.1 (by rw [← actsOf_append]; exact hp j)
    choose Q hQ₁ hQ₂ using hmid
    have hrun := ih (b := ⟨m, Q⟩) hx₁ hQ₁
    have hi := hQ₂ i
    simp only [actsOf, if_true] at hi
    obtain ⟨s', Q'⟩ := b
    generalize hc : Q i = q at hi
    cases hi with
    | @cons cmd k _ _ r hi =>
      have hi' : Q' i = k r := path_nil.1 hi
      have hQ' : Q' = Function.update Q i (k r) := by
        funext j
        by_cases hj : j = i
        · subst hj; rw [Function.update_self]; exact hi'
        · have := hQ₂ j
          simp only [actsOf, if_neg (Ne.symm hj), path_nil] at this
          rw [Function.update_of_ne hj]; exact this
      subst hQ'
      exact .snoc hrun (.mk hc hx₂)

/-- One thread follows a path while the others wait. -/
theorem run_solo {s s' : σ} {P : ι → Prog S ε α} {i : ι} {acts : List (Act S)} {q : Prog S ε α}
    (hx : Exec sem s (acts.map (Event.mk i)) s') (hp : Path (P i) acts q) :
    Run sem ⟨s, P⟩ (acts.map (Event.mk i)) ⟨s', Function.update P i q⟩ := by
  refine run_iff.2 ⟨hx, fun j => ?_⟩
  by_cases hj : j = i
  · subst hj
    simpa using hp
  · simp [Ne.symm hj, Function.update_of_ne hj]

theorem Run.trans (h : Run sem a tr b) (h' : Run sem b tr' c) : Run sem a (tr ++ tr') c := by
  induction h' with
  | nil => simpa using h
  | snoc _ hs ih => rw [← List.append_assoc]; exact .snoc ih hs

theorem Run.split (h : Run sem a (tr ++ tr') c) : ∃ b, Run sem a tr b ∧ Run sem b tr' c := by
  induction tr' using List.reverseRecOn generalizing c with
  | nil => exact ⟨c, by simpa using h, .nil⟩
  | append_singleton tr' e ih =>
    generalize htr : tr ++ (tr' ++ [e]) = t at h
    cases h with
    | nil => simp at htr
    | snoc h₁ h₂ =>
      rw [← List.append_assoc] at htr
      obtain ⟨rfl, he⟩ := List.append_inj' htr rfl
      obtain rfl := (List.cons.inj he).1
      obtain ⟨b, hb, hb'⟩ := ih h₁
      exact ⟨b, hb, .snoc hb' h₂⟩

/-- The step of an event of the trace. -/
theorem Run.step {e : Event ι S} {d : Config ι σ S ε α} (h : Run sem a (tr ++ e :: tr') d) :
    ∃ b c, Run sem a tr b ∧ Step sem b e c ∧ Run sem c tr' d := by
  have h' : Run sem a ((tr ++ [e]) ++ tr') d := by rw [List.append_assoc]; exact h
  obtain ⟨c, hc, htail⟩ := h'.split
  generalize ht : tr ++ [e] = t at hc
  cases hc with
  | nil => simp at ht
  | snoc hb hs =>
    obtain ⟨rfl, he⟩ := List.append_inj' ht rfl
    obtain rfl := (List.cons.inj he).1
    exact ⟨_, c, hb, hs, htail⟩

/-- The step from `b` to `c` is one of the steps of the run from `a` to `d`. -/
def Occurs (sem : Sem ι σ S) (a : Config ι σ S ε α) (tr : List (Event ι S)) (d b : Config ι σ S ε α) (e : Event ι S)
    (c : Config ι σ S ε α) : Prop :=
  ∃ pre post, tr = pre ++ e :: post ∧ Run sem a pre b ∧ Step sem b e c ∧ Run sem c post d

/-- The steps of a run are steps of every longer run. -/
theorem Occurs.append {d d' : Config ι σ S ε α} {e : Event ι S} (h : Occurs sem a tr d b e c)
    (hr : Run sem d tr' d') : Occurs sem a (tr ++ tr') d' b e c := by
  obtain ⟨pre, post, rfl, h₁, h₂, h₃⟩ := h
  exact ⟨pre, post ++ tr', by simp, h₁, h₂, h₃.trans hr⟩

/-- What every step of a run preserves holds at its end. -/
theorem Run.invariant {I : Config ι σ S ε α → Prop} {d : Config ι σ S ε α} (h : Run sem a tr d) (ha : I a)
    (hstep : ∀ b e c, Occurs sem a tr d b e c → I b → I c) : I d := by
  induction h with
  | nil => exact ha
  | snoc hr hs ih =>
    have hb := ih fun b e c hocc => hstep b e c (hocc.append (.snoc .nil hs))
    exact hstep _ _ _ ⟨_, [], rfl, hr, hs, .nil⟩ hb

/-- What the steps of a run preserve holds before each of them. -/
theorem Occurs.invariant {I : Config ι σ S ε α → Prop} {d : Config ι σ S ε α} {e : Event ι S}
    (h : Occurs sem a tr d b e c) (ha : I a) (hstep : ∀ b e c, Occurs sem a tr d b e c → I b → I c) : I b := by
  obtain ⟨pre, post, rfl, h₁, h₂, h₃⟩ := h
  have hone : Run sem b [e] c := Run.snoc .nil h₂
  have hrest : Run sem b (e :: post) d := hone.trans h₃
  exact h₁.invariant ha fun b' e' c' hocc => hstep b' e' c' (hocc.append hrest)

end Runs

end Conc
