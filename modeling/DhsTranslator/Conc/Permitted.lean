import DhsTranslator.Conc.Implement

/-!
# Disciplines of traces

What threads that follow a discipline have done is a trace of permitted actions, whatever the shared state is. So the
trace of a system can be taken apart into those of its components, and each be checked on its own.

- `phases`, `Permitted`: where a trace takes the threads, and that each of its actions is permitted there;
- `Run.permits`: the trace of a run is permitted; `Permitted.keeps`: a permitted execution keeps what permitted steps
  keep; `Permitted.view`: what can be seen of the phases;
- `rights`: the events of the second of two components; `Permitted.rights`, `exec_rights`;
- `Discipline.both`, `Sem.both`: two disciplines for the same programs, the second over a state of its own that observes
  the same events (`Keeps.both`).
-/

namespace Conc

variable {S T : Sig} {ε α Φ Ψ ι σ τ : Type}

/-! ## Single programs -/

section Programs

variable {D : Discipline S Φ} {Q : Except ε α → Φ → Prop} {φ : Φ} {p q : Prog S ε α}

/-- What is left of a program follows the discipline from where its actions led. -/
theorem Follows.path {acts : List (Act S)} (h : Follows D p φ Q) (hp : Path p acts q) :
    Follows D q (acts.foldl D.next φ) Q := by
  induction hp generalizing φ with
  | nil => exact h
  | cons r _ ih => exact ih (h.2 r)

theorem Follows.may {pre post : List (Act S)} {a : Act S} (h : Follows D p φ Q) (hp : Path p (pre ++ a :: post) q) :
    D.may (pre.foldl D.next φ) a.cmd := by
  obtain ⟨m, hpre, hpost⟩ := path_append.1 hp
  have hm := h.path hpre
  cases hpost with
  | cons r _ => exact hm.1

end Programs

/-! ## Traces -/

variable [DecidableEq ι]

/-- Where the actions of a trace take each thread. -/
def phases (D : Discipline S Φ) (φ : ι → Φ) (tr : List (Event ι S)) (i : ι) : Φ := (actsOf i tr).foldl D.next (φ i)

/-- Every action of the trace is permitted in the phase of its thread. -/
def Permitted (D : Discipline S Φ) (φ : ι → Φ) (tr : List (Event ι S)) : Prop :=
  ∀ pre e post, tr = pre ++ e :: post → D.may (phases D φ pre e.tid) e.act.cmd

section Traces

variable {D : Discipline S Φ} {Q : Except ε α → Φ → Prop} {φ : ι → Φ} {tr past : List (Event ι S)} {sem : Sem ι σ S}

theorem phases_snoc (e : Event ι S) : phases D φ (tr ++ [e]) =
    Function.update (phases D φ tr) e.tid (D.next (phases D φ tr e.tid) e.act) := by
  funext j
  unfold phases
  rw [actsOf_append, List.foldl_append]
  by_cases hj : e.tid = j
  · subst hj
    simp [actsOf]
  · simp [actsOf, hj, Function.update_of_ne (Ne.symm hj)]

/-- **The trace of a run** of threads that follow the discipline is permitted, and they follow it on from there. -/
theorem Run.permits {a b : Config ι σ S ε α} (h : Run sem a tr b) (hf : ∀ i, Follows D (a.prog i) (φ i) Q) :
    Permitted D φ tr ∧ ∀ i, Follows D (b.prog i) (phases D φ tr i) Q := by
  refine ⟨?_, fun i => (hf i).path (h.path i)⟩
  rintro pre e post rfl
  have hpath := h.path e.tid
  rw [actsOf_append, actsOf, if_pos rfl] at hpath
  exact (hf e.tid).may hpath

theorem Permitted.append {tr' : List (Event ι S)} (h : Permitted D φ (tr ++ tr')) : Permitted D φ tr := by
  rintro pre e post rfl
  exact h pre e (post ++ tr') (by simp)

/-- A trace can be cut where the actions of a thread are. -/
theorem actsOf_split {i : ι} {acts acts' : List (Act S)} (h : actsOf i tr = acts ++ acts') :
    ∃ t t', tr = t ++ t' ∧ actsOf i t = acts ∧ actsOf i t' = acts' := by
  induction tr generalizing acts with
  | nil =>
    obtain ⟨rfl, rfl⟩ := List.append_eq_nil_iff.1 h.symm
    exact ⟨[], [], rfl, rfl, rfl⟩
  | cons e tr ih =>
    by_cases he : e.tid = i
    · rw [actsOf, if_pos he] at h
      cases acts with
      | nil => exact ⟨[], e :: tr, rfl, rfl, by rw [actsOf, if_pos he]; exact h⟩
      | cons a acts =>
        obtain ⟨rfl, hrest⟩ := List.cons.inj h
        obtain ⟨t, t', rfl, ht, ht'⟩ := ih hrest
        exact ⟨e :: t, t', rfl, by rw [actsOf, if_pos he, ht], ht'⟩
    · rw [actsOf, if_neg he] at h
      obtain ⟨t, t', rfl, ht, ht'⟩ := ih h
      exact ⟨e :: t, t', rfl, by rw [actsOf, if_neg he, ht], ht'⟩

/-- Every action of a thread is permitted after those before it. -/
theorem Permitted.may {i : ι} {pre post : List (Act S)} {a : Act S} (h : Permitted D φ tr)
    (hacts : actsOf i tr = pre ++ a :: post) : D.may (pre.foldl D.next (φ i)) a.cmd := by
  obtain ⟨t, t', rfl, ht, ht'⟩ := actsOf_split hacts
  -- the action is the first one of the thread in the second part
  suffices hfirst : ∃ u v, t' = u ++ ⟨i, a⟩ :: v ∧ actsOf i u = [] by
    obtain ⟨u, v, rfl, hu⟩ := hfirst
    have hmay := h (t ++ u) ⟨i, a⟩ v (by simp)
    unfold phases at hmay
    rwa [actsOf_append, ht, hu, List.append_nil] at hmay
  clear h hacts
  induction t' with
  | nil => cases ht'
  | cons e t' ih =>
    by_cases he : e.tid = i
    · rw [actsOf, if_pos he] at ht'
      obtain ⟨rfl, _⟩ := List.cons.inj ht'
      exact ⟨[], t', by rw [← he]; rfl, rfl⟩
    · rw [actsOf, if_neg he] at ht'
      obtain ⟨u, v, rfl, hu⟩ := ih ht'
      exact ⟨e :: u, v, rfl, by rw [actsOf, if_neg he, hu]⟩

/-- **Permitted executions** keep what permitted steps keep. -/
theorem Permitted.keeps {I : List (Event ι S) → σ → (ι → Φ) → Prop} {s s' : σ} (h : Permitted D φ tr)
    (hI : Keeps D sem I) (h₀ : I past s φ) (hx : Exec sem s tr s') : I (past ++ tr) s' (phases D φ tr) := by
  induction tr using List.reverseRecOn generalizing s' with
  | nil =>
    rw [exec_nil.1 hx, List.append_nil]
    exact h₀
  | append_singleton tr e ih =>
    obtain ⟨m, hm, he⟩ := exec_snoc.1 hx
    rw [← List.append_assoc, phases_snoc]
    exact hI _ _ _ _ _ _ (ih h.append hm) (h tr e [] rfl) he

/-- What can be seen of the phases can be computed from the actions alone, if each step of it can. -/
theorem Permitted.view {β : Type} {v : Φ → β} {g : β → Act S → β} (h : Permitted D φ tr)
    (hstep : ∀ {φ a}, D.may φ a.cmd → v (D.next φ a) = g (v φ) a) (i : ι) :
    v (phases D φ tr i) = (actsOf i tr).foldl g (v (φ i)) := by
  induction tr using List.reverseRecOn with
  | nil => rfl
  | append_singleton tr e ih =>
    rw [phases_snoc, actsOf_append, List.foldl_append, ← ih h.append]
    by_cases hi : e.tid = i
    · subst hi
      rw [Function.update_self, hstep (h tr e [] rfl), actsOf, if_pos rfl]
      rfl
    · rw [Function.update_of_ne (Ne.symm hi), actsOf, if_neg hi]
      rfl

end Traces

/-! ## Components -/

section Components

variable {D : Discipline T Φ} {idle : Φ → Prop} {φ : ι → Φ} {tr : List (Event ι (S.sum T))}

/-- The events of the second component. -/
def rights (tr : List (Event ι (S.sum T))) : List (Event ι T) :=
  tr.filterMap fun e => e.act.right?.map (Event.mk e.tid)

omit [DecidableEq ι] in
@[simp] theorem rights_append (tr tr' : List (Event ι (S.sum T))) : rights (tr ++ tr') = rights tr ++ rights tr' :=
  List.filterMap_append

theorem actsOf_rights (i : ι) : actsOf i (rights tr) = (actsOf i tr).filterMap Act.right? := by
  induction tr with
  | nil => rfl
  | cons e tr ih =>
    obtain ⟨j, ⟨c, r⟩⟩ := e
    cases c with
    | inl c =>
      have hrights : rights ((⟨j, ⟨.inl c, r⟩⟩ : Event ι (S.sum T)) :: tr) = rights tr := rfl
      rw [hrights, ih, actsOf]
      split
      · rw [List.filterMap_cons_none rfl]
      · rfl
    | inr c =>
      have hrights : rights ((⟨j, ⟨.inr c, r⟩⟩ : Event ι (S.sum T)) :: tr) = ⟨j, ⟨c, r⟩⟩ :: rights tr := rfl
      rw [hrights, actsOf, actsOf, ih]
      split <;> rfl

omit [DecidableEq ι] in
theorem foldl_beside (acts : List (Act (S.sum T))) (φ : Φ) :
    acts.foldl (D.beside idle S).next φ = (acts.filterMap Act.right?).foldl D.next φ := by
  induction acts generalizing φ with
  | nil => rfl
  | cons a acts ih =>
    obtain ⟨c, r⟩ := a
    cases c with
    | inl c => exact ih φ
    | inr c => exact ih _

theorem phases_beside : phases (D.beside idle S) φ tr = phases D φ (rights tr) := by
  funext i
  unfold phases
  rw [foldl_beside, actsOf_rights]

/-- What the second component does is permitted. -/
theorem Permitted.rights (h : Permitted (D.beside idle S) φ tr) : Permitted D φ (rights tr) := by
  intro pre e post heq
  obtain ⟨pre', rest, rfl, rfl, hrest⟩ := List.filterMap_eq_append_iff.1 heq
  obtain ⟨skip, e', post', rfl, hskip, he, _⟩ := List.filterMap_eq_cons_iff.1 hrest
  have hmay := h (pre' ++ skip) e' post' (by simp)
  have hsilent : Conc.rights skip = [] := List.filterMap_eq_nil_iff.2 hskip
  rw [phases_beside, rights_append, hsilent, List.append_nil] at hmay
  obtain ⟨j, ⟨c, r⟩⟩ := e'
  cases c with
  | inl c => cases he
  | inr c =>
    cases he
    exact hmay

omit [DecidableEq ι] in
theorem exec_rights {sem : Sem ι σ S} {sem' : Sem ι τ T} {s s' : σ × τ} (h : Exec (sem.sum sem') s tr s') :
    Exec sem' s.2 (rights tr) s'.2 := by
  induction tr generalizing s with
  | nil => rw [exec_nil.1 h]; rfl
  | cons e tr ih =>
    obtain ⟨j, ⟨c, r⟩⟩ := e
    obtain ⟨m, hm, hx⟩ := exec_cons.1 h
    cases c with
    | inl c =>
      have hrest := ih hx
      rw [hm.2] at hrest
      exact hrest
    | inr c => exact exec_cons.2 ⟨m.2, hm.2, ih hx⟩

/-! ### One thread -/

omit [DecidableEq ι] in
theorem rights_inl (i : ι) (acts : List (Act S)) :
    rights ((acts.map (Act.inl : Act S → Act (S.sum T))).map (Event.mk i)) = [] := by
  induction acts with
  | nil => rfl
  | cons a acts ih => exact ih

omit [DecidableEq ι] in
theorem rights_inr (i : ι) (acts : List (Act T)) :
    rights ((acts.map (Act.inr : Act T → Act (S.sum T))).map (Event.mk i)) = acts.map (Event.mk i) := by
  induction acts with
  | nil => rfl
  | cons a acts ih => exact congrArg (Event.mk i a :: ·) ih

variable {sem : Sem ι σ S} {sem' : Sem ι τ T}

omit [DecidableEq ι] in
theorem exec_inl {i : ι} {acts : List (Act S)} {s s' : σ} (t : τ) (h : Exec sem s (acts.map (Event.mk i)) s') :
    Exec (sem.sum sem') (s, t) ((acts.map Act.inl).map (Event.mk i)) (s', t) := by
  induction acts generalizing s with
  | nil => rw [exec_nil.1 h]; rfl
  | cons a acts ih =>
    obtain ⟨m, hm, hx⟩ := exec_cons.1 h
    exact exec_cons.2 ⟨(m, t), ⟨hm, rfl⟩, ih hx⟩

omit [DecidableEq ι] in
theorem exec_inr {i : ι} {acts : List (Act T)} {t t' : τ} (s : σ) (h : Exec sem' t (acts.map (Event.mk i)) t') :
    Exec (sem.sum sem') (s, t) ((acts.map Act.inr).map (Event.mk i)) (s, t') := by
  induction acts generalizing t with
  | nil => rw [exec_nil.1 h]; rfl
  | cons a acts ih =>
    obtain ⟨m, hm, hx⟩ := exec_cons.1 h
    exact exec_cons.2 ⟨(s, m), ⟨rfl, hm⟩, ih hx⟩

end Components

/-! ## Two disciplines -/

section Both

variable {D : Discipline S Φ} {D' : Discipline S Ψ}

/-- Both disciplines, each with its own phase. -/
def Discipline.both (D : Discipline S Φ) (D' : Discipline S Ψ) : Discipline S (Φ × Ψ) :=
  ⟨fun φ c => D.may φ.1 c ∧ D'.may φ.2 c, fun φ a => (D.next φ.1 a, D'.next φ.2 a)⟩

omit [DecidableEq ι] in
theorem follows_both {p : Prog S ε α} {φ : Φ × Ψ} {Q : Except ε α → Φ → Prop} {Q' : Except ε α → Ψ → Prop}
    (h : Follows D p φ.1 Q) (h' : Follows D' p φ.2 Q') : Follows (D.both D') p φ fun x ψ => Q x ψ.1 ∧ Q' x ψ.2 := by
  induction p generalizing φ with
  | ret a => exact ⟨h, h'⟩
  | raise e => exact ⟨h, h'⟩
  | call c k ih => exact ⟨⟨h.1, h'.1⟩, fun r => ih r (h.2 r) (h'.2 r)⟩

theorem phases_both (φ : ι → Φ × Ψ) (tr : List (Event ι S)) (i : ι) : phases (D.both D') φ tr i =
    (phases D (fun j => (φ j).1) tr i, phases D' (fun j => (φ j).2) tr i) := by
  unfold phases
  induction actsOf i tr using List.reverseRecOn with
  | nil => rfl
  | append_singleton acts a ih => simp only [List.foldl_append, List.foldl_cons, List.foldl_nil, ih]; rfl

theorem Permitted.first {φ : ι → Φ × Ψ} {tr : List (Event ι S)} (h : Permitted (D.both D') φ tr) :
    Permitted D (fun i => (φ i).1) tr := by
  rintro pre e post rfl
  have hmay := (h pre e post rfl).1
  rwa [phases_both] at hmay

/-- Two states that change with the same events. -/
def Sem.both (sem : Sem ι σ S) (sem' : Sem ι τ S) : Sem ι (σ × τ) S := fun i s a s' =>
  sem i s.1 a s'.1 ∧ sem' i s.2 a s'.2

omit [DecidableEq ι] in
theorem exec_both {sem : Sem ι σ S} {sem' : Sem ι τ S} {s s' : σ} {t t' : τ} {tr : List (Event ι S)}
    (h : Exec sem s tr s') (h' : Exec sem' t tr t') : Exec (sem.both sem') (s, t) tr (s', t') := by
  induction tr generalizing s t with
  | nil => rw [exec_nil.1 h, exec_nil.1 h']; rfl
  | cons e tr ih =>
    obtain ⟨m, hm, hx⟩ := exec_cons.1 h
    obtain ⟨m', hm', hx'⟩ := exec_cons.1 h'
    exact exec_cons.2 ⟨(m, m'), ⟨hm, hm'⟩, ih hx hx'⟩

/-- What the steps of the second discipline keep, given what those of the first do. -/
theorem Keeps.both {sem : Sem ι σ S} {sem' : Sem ι τ S} {I : List (Event ι S) → σ → (ι → Φ) → Prop}
    {I' : τ → (ι → Φ × Ψ) → Prop} (h : Keeps D sem I)
    (h' : ∀ {tr s s' t t' φ i a}, I tr s (fun j => (φ j).1) → I' t φ → (D.both D').may (φ i) a.cmd → sem i s a s' →
      sem' i t a t' → I' t' (Function.update φ i ((D.both D').next (φ i) a))) :
    Keeps (D.both D') (sem.both sem') fun tr s φ => I tr s.1 (fun j => (φ j).1) ∧ I' s.2 φ := by
  rintro tr s φ i a s' ⟨hI, hI'⟩ hmay ⟨hsem, hsem'⟩
  refine ⟨?_, h' hI hI' hmay hsem hsem'⟩
  have hfst : (fun j => (Function.update φ i ((D.both D').next (φ i) a) j).1) =
      Function.update (fun j => (φ j).1) i (D.next (φ i).1 a) := by
    funext j
    by_cases hj : j = i
    · subst hj
      simp [Discipline.both]
    · simp [hj]
  rw [hfst]
  exact h _ _ _ _ _ _ hI hmay.1 hsem

end Both

end Conc
