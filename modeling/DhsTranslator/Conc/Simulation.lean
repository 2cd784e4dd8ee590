import DhsTranslator.Conc.Implement

/-!
# Commands that are programs, among other threads

Threads run programs over the commands of `S`, and every command is a program over `T`. A simulation relates the state
that the programs work on to the state that the commands are about, so that the last step of a program is the step of
its command.

- `History`: the steps of both levels in one order; `Served`: a thread has done one command after another, each by a
  complete run of its program, and the step of the command comes right after it;
- `Simulation.run`: **every run of the programs is a run of the commands**, each at a moment between the first and the
  last step of its program;
- `Simulation.sum`: two components side by side; `Simulation.single`: every program issues one command;
  `Simulation.free`: what the programs do is left open.
-/

namespace Conc

variable {S T : Sig} {ε α ι σ τ : Type}

/-! ## Simulations -/

/-- What is left of the command of each thread, if it is in one. -/
abbrev Underway (ι : Type) (S T : Sig) := ι → Option (Σ c : S.Cmd, Prog T Empty (S.Resp c))

section Definition

variable [DecidableEq ι]

/-- The last step of the program of a command is the step of the command. -/
structure Simulation (impl : Impl S T) (low : Sem ι σ T) (high : Sem ι τ S) (I : σ → τ → Underway ι S T → Prop) :
    Prop where
  calls : ∀ c, ∃ d k, impl c = .call d k
  begins : ∀ {s u w i} c, I s u w → w i = none → I s u (Function.update w i (some ⟨c, impl c⟩))
  goes : ∀ {s s' u w i c d k r d' k'}, I s u w → w i = some ⟨c, .call d k⟩ → low i s ⟨d, r⟩ s' →
    k r = .call d' k' → I s' u (Function.update w i (some ⟨c, .call d' k'⟩))
  ends : ∀ {s s' u w i c d k r x}, I s u w → w i = some ⟨c, .call d k⟩ → low i s ⟨d, r⟩ s' → k r = .ret x →
    ∃ u', high i u ⟨c, x⟩ u' ∧ I s' u' (Function.update w i none)

end Definition

/-! ## Histories -/

/-- Steps of both levels in one order. -/
abbrev History (ι : Type) (S T : Sig) := List (Event ι T ⊕ Event ι S)

/-- The steps of the programs. -/
def lows (J : History ι S T) : List (Event ι T) := J.filterMap Sum.getLeft?

/-- The steps of the commands. -/
def highs (J : History ι S T) : List (Event ι S) := J.filterMap Sum.getRight?

@[simp] theorem lows_nil : lows ([] : History ι S T) = [] := rfl

@[simp] theorem highs_nil : highs ([] : History ι S T) = [] := rfl

@[simp] theorem lows_append (J K : History ι S T) : lows (J ++ K) = lows J ++ lows K := List.filterMap_append

@[simp] theorem highs_append (J K : History ι S T) : highs (J ++ K) = highs J ++ highs K := List.filterMap_append

@[simp] theorem lows_inl (e : Event ι T) (J : History ι S T) : lows (.inl e :: J) = e :: lows J := rfl

@[simp] theorem highs_inl (e : Event ι T) (J : History ι S T) : highs (.inl e :: J) = highs J := rfl

@[simp] theorem lows_inr (e : Event ι S) (J : History ι S T) : lows (.inr e :: J) = lows J := rfl

@[simp] theorem highs_inr (e : Event ι S) (J : History ι S T) : highs (.inr e :: J) = e :: highs J := rfl

theorem mem_highs {J : History ι S T} {e : Event ι S} : e ∈ highs J ↔ .inr e ∈ J := by
  unfold highs
  rw [List.mem_filterMap]
  constructor
  · rintro ⟨x, hx, he⟩
    cases x with
    | inl x => cases he
    | inr x => cases he; exact hx
  · intro h
    exact ⟨.inr e, h, rfl⟩

variable [DecidableEq ι]

/-- The step as an action of the thread, if it is one of it. -/
def ofThread? (i : ι) : Event ι T ⊕ Event ι S → Option (Act T ⊕ Act S)
  | .inl e => if e.tid = i then some (.inl e.act) else none
  | .inr e => if e.tid = i then some (.inr e.act) else none

/-- What a thread does in a history. -/
def ofThread (i : ι) (J : History ι S T) : List (Act T ⊕ Act S) := J.filterMap (ofThread? i)

section Threads

variable {J K : History ι S T} {i j : ι}

@[simp] theorem ofThread_nil : ofThread i ([] : History ι S T) = [] := rfl

@[simp] theorem ofThread_append : ofThread i (J ++ K) = ofThread i J ++ ofThread i K := List.filterMap_append

@[simp] theorem ofThread_inl (a : Act T) :
    ofThread i (.inl ⟨j, a⟩ :: J) = if j = i then .inl a :: ofThread i J else ofThread i J := by
  by_cases h : j = i <;> simp [ofThread, ofThread?, h]

@[simp] theorem ofThread_inr (a : Act S) :
    ofThread i (.inr ⟨j, a⟩ :: J) = if j = i then .inr a :: ofThread i J else ofThread i J := by
  by_cases h : j = i <;> simp [ofThread, ofThread?, h]

/-- The steps of a thread. -/
theorem ofThread_lows : (ofThread i J).filterMap Sum.getLeft? = actsOf i (lows J) := by
  induction J with
  | nil => rfl
  | cons x J ih =>
    cases x with
    | inl e =>
      obtain ⟨j, a⟩ := e
      rw [ofThread_inl, lows_inl, actsOf]
      by_cases hj : j = i
      · simp [hj, ih]
      · simp [hj, ih]
    | inr e =>
      obtain ⟨j, a⟩ := e
      rw [ofThread_inr, lows_inr, ← ih]
      by_cases hj : j = i
      · rw [if_pos hj, List.filterMap_cons_none rfl]
      · rw [if_neg hj]

theorem mem_ofThread {x : Act S} : .inr x ∈ ofThread i J ↔ .inr ⟨i, x⟩ ∈ J := by
  unfold ofThread
  rw [List.mem_filterMap]
  constructor
  · rintro ⟨y, hy, he⟩
    cases y with
    | inl e => simp [ofThread?] at he
    | inr e =>
      obtain ⟨rfl, rfl⟩ : e.tid = i ∧ e.act = x := by simpa [ofThread?] using he
      exact hy
  · intro h
    exact ⟨_, h, by simp [ofThread?]⟩

end Threads

/-- One command after another, each with a complete run of its program before it. -/
inductive Served (impl : Impl S T) : List (Act T ⊕ Act S) → Prop
  | nil : Served impl []
  | snoc {done : List (Act T ⊕ Act S)} {c : S.Cmd} {acts : List (Act T)} {r : S.Resp c} :
      Served impl done → Ends (impl c) acts (.ok r) → Served impl (done ++ acts.map .inl ++ [.inr ⟨c, r⟩])

/-- Every command that was served was run completely. -/
theorem Served.run {impl : Impl S T} {done : List (Act T ⊕ Act S)} (h : Served impl done) {c : S.Cmd} {r : S.Resp c}
    (hc : .inr ⟨c, r⟩ ∈ done) : ∃ pre acts post, done = pre ++ acts.map .inl ++ .inr ⟨c, r⟩ :: post ∧
      Ends (impl c) acts (.ok r) := by
  induction h with
  | nil => exact absurd hc List.not_mem_nil
  | @snoc done c' acts r' _ hend ih =>
    rcases List.mem_append.1 hc with hc | hc
    · rcases List.mem_append.1 hc with hc | hc
      · obtain ⟨pre, acts', post, rfl, hend'⟩ := ih hc
        exact ⟨pre, acts', post ++ acts.map .inl ++ [.inr ⟨c', r'⟩], by simp, hend'⟩
      · obtain ⟨_, _, heq⟩ := List.mem_map.1 hc
        cases heq
    · cases List.mem_singleton.1 hc
      exact ⟨done, acts, [], rfl, hend⟩

/-- Where a thread is: between two commands, or in the middle of one. -/
inductive Working (impl : Impl S T) (hp : Prog S ε α) (lp : Prog T ε α) :
    Option (Σ c : S.Cmd, Prog T Empty (S.Resp c)) → List (Act T ⊕ Act S) → Prop
  | rest {done : List (Act T ⊕ Act S)} : Served impl done → lp = hp.plug impl → Working impl hp lp none done
  | busy {done : List (Act T ⊕ Act S)} {acts : List (Act T)} {c : S.Cmd} {k : S.Resp c → Prog S ε α} {d : T.Cmd}
      {q : T.Resp d → Prog T Empty (S.Resp c)} : Served impl done → Path (impl c) acts (.call d q) →
      hp = .call c k → lp = .call d (fun r => (q r).andThen fun x => (k x).plug impl) →
      Working impl hp lp (some ⟨c, .call d q⟩) (done ++ acts.map .inl)

/-- A thread in the middle of a command is going to do a step of it. -/
theorem Working.next {impl : Impl S T} {hp : Prog S ε α} {lp : Prog T ε α} {c : S.Cmd} {q : Prog T Empty (S.Resp c)}
    {did : List (Act T ⊕ Act S)} (h : Working impl hp lp (some ⟨c, q⟩) did) :
    ∃ d k k', q = .call d k ∧ lp = .call d k' := by
  cases h with
  | busy _ _ _ hlp => exact ⟨_, _, _, rfl, hlp⟩

/-- A command that was served was run completely. -/
theorem Working.ran {impl : Impl S T} {hp : Prog S ε α} {lp : Prog T ε α} {st} {did : List (Act T ⊕ Act S)}
    (h : Working impl hp lp st did) {c : S.Cmd} {r : S.Resp c} (hc : .inr ⟨c, r⟩ ∈ did) :
    ∃ pre acts post, did = pre ++ acts.map .inl ++ .inr ⟨c, r⟩ :: post ∧ Ends (impl c) acts (.ok r) := by
  cases h with
  | rest hserved _ => exact hserved.run hc
  | @busy done begun c' k d q hserved _ _ _ =>
    rcases List.mem_append.1 hc with hc | hc
    · obtain ⟨pre, acts, post, rfl, hend⟩ := hserved.run hc
      exact ⟨pre, acts, post ++ begun.map .inl, by simp, hend⟩
    · obtain ⟨_, _, heq⟩ := List.mem_map.1 hc
      cases heq

/-- A thread is done on both levels or on none. -/
theorem Working.done {impl : Impl S T} (hcalls : ∀ c, ∃ d k, impl c = .call d k) {hp : Prog S ε α} {lp : Prog T ε α} {st}
    {did : List (Act T ⊕ Act S)} (h : Working impl hp lp st did) {res : Except ε α} : lp = .lift res ↔ hp = .lift res := by
  cases h with
  | rest _ hlp =>
    subst hlp
    cases hp with
    | ret a => cases res <;> simp [Prog.lift]
    | raise e => cases res <;> simp [Prog.lift]
    | call c k =>
      obtain ⟨d, q, hc⟩ := hcalls c
      rw [plug_call, hc, call_andThen]
      cases res <;> simp [Prog.lift]
  | busy _ _ hhp hlp =>
    subst hhp hlp
    cases res <;> simp [Prog.lift]

/-- A thread that is done is in no command. -/
theorem Working.over {impl : Impl S T} {hp : Prog S ε α} {lp : Prog T ε α} {st} {did : List (Act T ⊕ Act S)}
    (h : Working impl hp lp st did) {res : Except ε α} (hres : lp = .lift res) : st = none := by
  cases h with
  | rest => rfl
  | busy _ _ _ hlp =>
    subst hlp
    cases res <;> cases hres

/-! ## Runs -/

section Runs

variable {impl : Impl S T} {low : Sem ι σ T} {high : Sem ι τ S} {I : σ → τ → Underway ι S T → Prop}

/-- A program that issues a command next is in the middle of one of its own commands, which may just begin. -/
theorem Simulation.underway (sim : Simulation impl low high I) {s : σ} {u : τ} {w : Underway ι S T} {i : ι}
    {hp : Prog S ε α} {d : T.Cmd} {k : T.Resp d → Prog T ε α} {did : List (Act T ⊕ Act S)} (hI : I s u w)
    (hw : Working impl hp (.call d k) (w i) did) :
    ∃ done acts c k' q, I s u (Function.update w i (some ⟨c, .call d q⟩)) ∧ did = done ++ acts.map .inl ∧
      Served impl done ∧ Path (impl c) acts (.call d q) ∧ hp = .call c k' ∧
      ∀ r, k r = (q r).andThen fun x => (k' x).plug impl := by
  generalize hst : w i = st at hw
  cases hw with
  | rest hserved hlp =>
    cases hp with
    | ret a => cases hlp
    | raise e => cases hlp
    | call c k' =>
      obtain ⟨d', q, hc⟩ := sim.calls c
      rw [plug_call, hc, call_andThen] at hlp
      cases hlp
      refine ⟨did, [], c, k', q, ?_, by simp, hserved, by simp [hc], rfl, fun _ => rfl⟩
      have hI' := sim.begins c hI hst
      rwa [hc] at hI'
  | @busy done acts c k' _ q hserved hpath hhp hlp =>
    cases hlp
    refine ⟨done, acts, c, k', q, ?_, rfl, hserved, hpath, hhp, fun _ => rfl⟩
    rw [← hst, Function.update_eq_self]
    exact hI

/-- **One step of a program** is one of the middle of a command, or the step of the command. -/
theorem Simulation.step (sim : Simulation impl low high I) {s s' : σ} {u : τ} {w : Underway ι S T} {i : ι}
    {hp : Prog S ε α} {d : T.Cmd} {k : T.Resp d → Prog T ε α} {r : T.Resp d} {did : List (Act T ⊕ Act S)}
    (hI : I s u w) (hw : Working impl hp (.call d k) (w i) did) (hlow : low i s ⟨d, r⟩ s') :
    (∃ st, I s' u (Function.update w i st) ∧ Working impl hp (k r) st (did ++ [.inl ⟨d, r⟩])) ∨
      ∃ c k' x u', hp = .call c k' ∧ high i u ⟨c, x⟩ u' ∧ I s' u' (Function.update w i none) ∧
        Working impl (k' x) (k r) none (did ++ [.inl ⟨d, r⟩, .inr ⟨c, x⟩]) := by
  obtain ⟨done, acts, c, k', q, hI', rfl, hserved, hpath, rfl, hk⟩ := sim.underway hI hw
  have hself : (Function.update w i (some ⟨c, .call d q⟩)) i = some ⟨c, .call d q⟩ := Function.update_self _ _ _
  cases hq : q r with
  | ret x =>
    obtain ⟨u', hhigh, hdone⟩ := sim.ends hI' hself hlow hq
    refine Or.inr ⟨c, k', x, u', rfl, hhigh, by simpa using hdone, ?_⟩
    have hend : Ends (impl c) (acts ++ [⟨d, r⟩]) (.ok x) := by
      refine hpath.trans (.cons r ?_)
      rw [hq]
      exact .nil _
    have hall := Served.snoc hserved hend
    rw [List.map_append, ← List.append_assoc, List.append_assoc] at hall
    exact .rest hall (by rw [hk, hq, ret_andThen])
  | raise e => exact e.elim
  | call d' q' =>
    have hgo := sim.goes hI' hself hlow hq
    refine Or.inl ⟨some ⟨c, .call d' q'⟩, by simpa using hgo, ?_⟩
    have hpath' : Path (impl c) (acts ++ [⟨d, r⟩]) (.call d' q') := by
      refine hpath.trans (.cons r ?_)
      rw [hq]
      exact .nil _
    have hbusy := Working.busy (k := k') hserved hpath' rfl (show k r = _ by rw [hk, hq, call_andThen])
    rwa [List.map_append, ← List.append_assoc] at hbusy

variable {p : ι → Prog S ε α} {s : σ} {u : τ} {tr : List (Event ι T)} {b : Config ι σ T ε α}

/-- The history is one of both levels: of the run of the programs, and of a run of the commands to `b'`. -/
structure Explains (impl : Impl S T) (high : Sem ι τ S) (u : τ) (p : ι → Prog S ε α) (tr : List (Event ι T))
    (b : Config ι σ T ε α) (J : History ι S T) (b' : Config ι τ S ε α) : Prop where
  lows : lows J = tr
  run : Run high ⟨u, p⟩ (highs J) b'
  threads : ∀ i, ∃ st, Working impl (b'.prog i) (b.prog i) st (ofThread i J)
  length : (highs J).length ≤ tr.length

/-- **A command is a complete run of its program** among the steps of its thread. -/
theorem Explains.ran {J : History ι S T} {b' : Config ι τ S ε α} (h : Explains impl high u p tr b J b') {i : ι} {c : S.Cmd}
    {r : S.Resp c} (hc : ⟨i, ⟨c, r⟩⟩ ∈ highs J) : ∃ acts, acts <:+: actsOf i tr ∧ Ends (impl c) acts (.ok r) := by
  obtain ⟨st, hw⟩ := h.threads i
  obtain ⟨pre, acts, post, hdid, hend⟩ := hw.ran (mem_ofThread.2 (mem_highs.1 hc))
  refine ⟨acts, ⟨pre.filterMap Sum.getLeft?, post.filterMap Sum.getLeft?, ?_⟩, hend⟩
  have hacts : (acts.map (.inl : Act T → Act T ⊕ Act S)).filterMap Sum.getLeft? = acts := by
    rw [List.filterMap_map]
    exact List.filterMap_some
  rw [← h.lows, ← ofThread_lows, hdid, List.filterMap_append, List.filterMap_append, hacts, List.filterMap_cons_none rfl]

/-- **Every run of the programs is a run of the commands.** -/
theorem Simulation.run (sim : Simulation impl low high I) (h : Run low ⟨s, fun i => (p i).plug impl⟩ tr b)
    (h₀ : I s u fun _ => none) :
    ∃ J b' w, Explains impl high u p tr b J b' ∧ I b.shared b'.shared w ∧
      ∀ i, Working impl (b'.prog i) (b.prog i) (w i) (ofThread i J) := by
  suffices hrun : ∃ J b' w, lows J = tr ∧ Run high ⟨u, p⟩ (highs J) b' ∧ I b.shared b'.shared w ∧
      (∀ i, Working impl (b'.prog i) (b.prog i) (w i) (ofThread i J)) ∧ (highs J).length ≤ tr.length by
    obtain ⟨J, b', w, hJ, hrun, hI, hw, hlen⟩ := hrun
    exact ⟨J, b', w, ⟨hJ, hrun, fun i => ⟨w i, hw i⟩, hlen⟩, hI, hw⟩
  generalize ha : (⟨s, fun i => (p i).plug impl⟩ : Config ι σ T ε α) = a at h
  induction h with
  | nil =>
    subst ha
    exact ⟨[], ⟨u, p⟩, fun _ => none, rfl, .nil, h₀, fun i => .rest .nil rfl, Nat.le_refl _⟩
  | @snoc tr b c e _ hs ih =>
    obtain ⟨J, b', w, hJ, hrun, hI, hw, hlen⟩ := ih
    cases hs with
    | @mk s₁ s₂ P i d k r hp hlow =>
      have hi := hw i
      simp only [hp] at hi
      rcases sim.step hI hi hlow with ⟨st, hI', hi'⟩ | ⟨c, k', x, u', hcall, hhigh, hI', hi'⟩
      · refine ⟨J ++ [.inl ⟨i, ⟨d, r⟩⟩], b', Function.update w i st, by simp [hJ], by simpa using hrun, hI', ?_, ?_⟩
        · intro j
          by_cases hj : j = i
          · subst hj
            simpa using hi'
          · simpa [hj, Ne.symm hj] using hw j
        · simpa using Nat.le_succ_of_le hlen
      · have hstep : Step high b' ⟨i, ⟨c, x⟩⟩ ⟨u', Function.update b'.prog i (k' x)⟩ := .mk hcall hhigh
        refine ⟨J ++ [.inl ⟨i, ⟨d, r⟩⟩, .inr ⟨i, ⟨c, x⟩⟩], ⟨u', Function.update b'.prog i (k' x)⟩,
          Function.update w i none, by simp [hJ], ?_, hI', ?_, ?_⟩
        · simpa using hrun.snoc hstep
        · intro j
          by_cases hj : j = i
          · subst hj
            simpa using hi'
          · simpa [hj, Ne.symm hj] using hw j
        · simpa using hlen

/-- A thread that is going to do a step is in the middle of a command. -/
theorem Simulation.at (sim : Simulation impl low high I) (h : Run low ⟨s, fun i => (p i).plug impl⟩ tr b)
    (h₀ : I s u fun _ => none) {i : ι} {d : T.Cmd} {k : T.Resp d → Prog T ε α} (hi : b.prog i = .call d k) :
    ∃ J b' w c q, Explains impl high u p tr b J b' ∧ I b.shared b'.shared w ∧ w i = some ⟨c, .call d q⟩ := by
  obtain ⟨J, b', w, hex, hI, hw⟩ := sim.run h h₀
  have hwi := hw i
  rw [hi] at hwi
  obtain ⟨done, acts, c, k', q, hI', _⟩ := sim.underway hI hwi
  exact ⟨J, b', _, c, q, hex, hI', Function.update_self _ _ _⟩

/-- The same of two threads. -/
theorem Simulation.both (sim : Simulation impl low high I) (h : Run low ⟨s, fun i => (p i).plug impl⟩ tr b)
    (h₀ : I s u fun _ => none) {i j : ι} {d d' : T.Cmd} {k : T.Resp d → Prog T ε α} {k' : T.Resp d' → Prog T ε α}
    (hne : i ≠ j) (hi : b.prog i = .call d k) (hj : b.prog j = .call d' k') :
    ∃ u' w c q c' q', I b.shared u' w ∧ w i = some ⟨c, .call d q⟩ ∧ w j = some ⟨c', .call d' q'⟩ := by
  obtain ⟨J, b', w, hex, hI, hw⟩ := sim.run h h₀
  have hwi := hw i
  rw [hi] at hwi
  obtain ⟨_, _, c, _, q, hI', _⟩ := sim.underway hI hwi
  have hwj := hw j
  rw [hj, ← Function.update_of_ne (Ne.symm hne) (some ⟨c, .call d q⟩) w] at hwj
  obtain ⟨_, _, c', _, q', hI'', _⟩ := sim.underway hI' hwj
  refine ⟨_, _, c, q, c', q', hI'', ?_, Function.update_self _ _ _⟩
  rw [Function.update_of_ne hne, Function.update_self]

end Runs

/-! ## Plain simulations -/

/-- Every program issues one command, and what it does to the shared state is seen through `view`. -/
theorem Simulation.single {low : Sem ι σ T} {high : Sem ι τ S} {cmd : S.Cmd → T.Cmd}
    {back : (c : S.Cmd) → T.Resp (cmd c) → S.Resp c} {view : σ → τ}
    (hsem : ∀ {i s c r s'}, low i s ⟨cmd c, r⟩ s' → high i (view s) ⟨c, back c r⟩ (view s')) :
    Simulation (fun c => .call (cmd c) fun r => .ret (back c r)) low high fun s u w =>
      u = view s ∧ ∀ i st, w i = some st → ∃ c, st = ⟨c, .call (cmd c) fun r => .ret (back c r)⟩ where
  calls c := ⟨_, _, rfl⟩
  begins := by
    rintro s u w i c ⟨rfl, hw⟩ _
    refine ⟨rfl, fun j st hst => ?_⟩
    by_cases hj : j = i
    · subst hj
      rw [Function.update_self] at hst
      exact ⟨c, (Option.some.inj hst).symm⟩
    · rw [Function.update_of_ne hj] at hst
      exact hw j st hst
  goes := by
    rintro s s' u w i c d k r d' k' ⟨rfl, hw⟩ hi _ hk
    obtain ⟨c', hst⟩ := hw i _ hi
    cases hst
    cases hk
  ends := by
    rintro s s' u w i c d k r x ⟨rfl, hw⟩ hi hlow hk
    obtain ⟨c', hst⟩ := hw i _ hi
    cases hst
    cases hk
    refine ⟨view s', hsem hlow, rfl, fun j st hst => ?_⟩
    by_cases hj : j = i
    · subst hj
      rw [Function.update_self] at hst
      cases hst
    · rw [Function.update_of_ne hj] at hst
      exact hw j st hst

/-- Every command is its own program. -/
def Impl.own (S : Sig) : Impl S S := fun c => .call c .ret

/-- Commands that are their own programs. -/
theorem Simulation.own (sem : Sem ι σ S) : Simulation (Impl.own S) sem sem fun s u w =>
    u = s ∧ ∀ i st, w i = some st → ∃ c, st = ⟨c, .call c .ret⟩ :=
  Simulation.single fun h => h

/-- Nothing is said of what the commands do. -/
theorem Simulation.free {impl : Impl S T} {low : Sem ι σ T} (hcalls : ∀ c, ∃ d k, impl c = .call d k) :
    Simulation impl low (fun _ (_ : Unit) _ _ => True) fun _ _ _ => True where
  calls := hcalls
  begins _ _ _ := trivial
  goes _ _ _ _ := trivial
  ends _ _ _ _ := ⟨(), trivial, trivial⟩

/-! ## Two components -/

section Sum

variable {S' T' : Sig} {σ' τ' : Type}

/-- The programs of both. -/
def Impl.sum (impl : Impl S T) (impl' : Impl S' T') : Impl (S.sum S') (T.sum T')
  | .inl c => (impl c).inl
  | .inr c => (impl' c).inr

/-- A thread is in a command of one of the components at most. -/
inductive Side : Option (Σ c : S.Cmd, Prog T Empty (S.Resp c)) → Option (Σ c : S'.Cmd, Prog T' Empty (S'.Resp c)) →
    Option (Σ c : (S.sum S').Cmd, Prog (T.sum T') Empty ((S.sum S').Resp c)) → Prop
  | neither : Side none none none
  | first (c : S.Cmd) (q : Prog T Empty (S.Resp c)) : Side (some ⟨c, q⟩) none (some ⟨.inl c, q.inl⟩)
  | second (c : S'.Cmd) (q : Prog T' Empty (S'.Resp c)) : Side none (some ⟨c, q⟩) (some ⟨.inr c, q.inr⟩)

/-- Both invariants hold, each of the commands of its component. -/
def Both (I : σ → τ → Underway ι S T → Prop) (I' : σ' → τ' → Underway ι S' T' → Prop) (s : σ × σ') (u : τ × τ')
    (w : Underway ι (S.sum S') (T.sum T')) : Prop :=
  ∃ v v', I s.1 u.1 v ∧ I' s.2 u.2 v' ∧ ∀ i, Side (v i) (v' i) (w i)

/-- A thread that is going to do a step of the first component is in a command of it. -/
theorem Side.inl_call {a : Option (Σ c : S.Cmd, Prog T Empty (S.Resp c))}
    {a' : Option (Σ c : S'.Cmd, Prog T' Empty (S'.Resp c))}
    {st : Option (Σ c : (S.sum S').Cmd, Prog (T.sum T') Empty ((S.sum S').Resp c))}
    {c : (S.sum S').Cmd} {d : T.Cmd} {k : T.Resp d → Prog (T.sum T') Empty ((S.sum S').Resp c)} (h : Side a a' st)
    (hst : st = some ⟨c, .call (S := T.sum T') (.inl d) k⟩) : ∃ c₁ k₁, a = some ⟨c₁, .call d k₁⟩ := by
  cases h with
  | neither => cases hst
  | first c₁ q =>
    cases q with
    | ret a => cases hst
    | raise e => exact e.elim
    | call d₁ k₁ => cases hst; exact ⟨c₁, k₁, rfl⟩
  | second c₁ q =>
    cases q with
    | ret a => cases hst
    | raise e => exact e.elim
    | call d₁ k₁ => cases hst

theorem Side.of_first {c : S.Cmd} {q : Prog T Empty (S.Resp c)} {a' : Option (Σ c : S'.Cmd, Prog T' Empty (S'.Resp c))}
    {st : Option (Σ c : (S.sum S').Cmd, Prog (T.sum T') Empty ((S.sum S').Resp c))} (h : Side (some ⟨c, q⟩) a' st) :
    st = some ⟨.inl c, q.inl⟩ := by
  cases h
  rfl

theorem Side.rest {a : Option (Σ c : S.Cmd, Prog T Empty (S.Resp c))}
    {a' : Option (Σ c : S'.Cmd, Prog T' Empty (S'.Resp c))} (h : Side a a' none) : a = none ∧ a' = none := by
  cases h
  exact ⟨rfl, rfl⟩

variable {impl : Impl S T} {impl' : Impl S' T'} {low : Sem ι σ T} {low' : Sem ι σ' T'} {high : Sem ι τ S}
  {high' : Sem ι τ' S'} {I : σ → τ → Underway ι S T → Prop} {I' : σ' → τ' → Underway ι S' T' → Prop}

theorem side_update {v : Underway ι S T} {v' : Underway ι S' T'} {w : Underway ι (S.sum S') (T.sum T')} {i : ι}
    {a : Option (Σ c : S.Cmd, Prog T Empty (S.Resp c))} {a' : Option (Σ c : S'.Cmd, Prog T' Empty (S'.Resp c))}
    {b : Option (Σ c : (S.sum S').Cmd, Prog (T.sum T') Empty ((S.sum S').Resp c))} (h : ∀ i, Side (v i) (v' i) (w i))
    (hi : Side a a' b) (j : ι) : Side (Function.update v i a j) (Function.update v' i a' j) (Function.update w i b j) := by
  by_cases hj : j = i
  · subst hj
    simpa using hi
  · simpa [hj] using h j

theorem Both.begins (sim : Simulation impl low high I) (sim' : Simulation impl' low' high' I') {s : σ × σ'} {u : τ × τ'}
    {w : Underway ι (S.sum S') (T.sum T')} {i : ι} (c : (S.sum S').Cmd) (h : Both I I' s u w) (hw : w i = none) :
    Both I I' s u (Function.update w i (some ⟨c, impl.sum impl' c⟩)) := by
  obtain ⟨v, v', hI, hI', hside⟩ := h
  have hi := hside i
  generalize ha : v i = a at hi
  generalize ha' : v' i = a' at hi
  rw [hw] at hi
  cases hi with
  | neither =>
    cases c with
    | inl c =>
      refine ⟨Function.update v i (some ⟨c, impl c⟩), v', sim.begins c hI ha, hI', fun j => ?_⟩
      have hj := side_update (i := i) hside (.first c (impl c)) j
      rwa [← ha', Function.update_eq_self] at hj
    | inr c =>
      refine ⟨v, Function.update v' i (some ⟨c, impl' c⟩), hI, sim'.begins c hI' ha', fun j => ?_⟩
      have hj := side_update (i := i) hside (.second c (impl' c)) j
      rwa [← ha, Function.update_eq_self] at hj

theorem Both.goes (sim : Simulation impl low high I) (sim' : Simulation impl' low' high' I') {s s' : σ × σ'} {u : τ × τ'}
    {w : Underway ι (S.sum S') (T.sum T')} {i : ι} {c : (S.sum S').Cmd} {d d' : (T.sum T').Cmd}
    {k : (T.sum T').Resp d → Prog (T.sum T') Empty ((S.sum S').Resp c)} {r : (T.sum T').Resp d}
    {k' : (T.sum T').Resp d' → Prog (T.sum T') Empty ((S.sum S').Resp c)} (h : Both I I' s u w)
    (hw : w i = some ⟨c, .call d k⟩) (hlow : low.sum low' i s ⟨d, r⟩ s') (hk : k r = .call d' k') :
    Both I I' s' u (Function.update w i (some ⟨c, .call d' k'⟩)) := by
  obtain ⟨v, v', hI, hI', hside⟩ := h
  have hi := hside i
  generalize ha : v i = a at hi
  generalize ha' : v' i = a' at hi
  generalize w i = st at hi hw
  cases hi with
  | neither => cases hw
  | first c₁ q =>
    cases q with
    | ret a => cases hw
    | raise e => exact e.elim
    | call d₁ k₁ =>
      cases hw
      obtain ⟨hlow, hrest⟩ := hlow
      cases hq : k₁ r with
      | ret a => simp only [hq] at hk; cases hk
      | raise e => exact e.elim
      | call d₂ k₂ =>
        simp only [hq] at hk
        have hgo := sim.goes hI ha hlow hq
        have hj := side_update (i := i) hside (.first c₁ (.call d₂ k₂))
        rw [← ha', Function.update_eq_self, show (Prog.call d₂ k₂).inl = _ from hk] at hj
        exact ⟨_, v', hgo, by rw [hrest]; exact hI', hj⟩
  | second c₁ q =>
    cases q with
    | ret a => cases hw
    | raise e => exact e.elim
    | call d₁ k₁ =>
      cases hw
      obtain ⟨hrest, hlow⟩ := hlow
      cases hq : k₁ r with
      | ret a => simp only [hq] at hk; cases hk
      | raise e => exact e.elim
      | call d₂ k₂ =>
        simp only [hq] at hk
        have hgo := sim'.goes hI' ha' hlow hq
        have hj := side_update (i := i) hside (.second c₁ (.call d₂ k₂))
        rw [← ha, Function.update_eq_self, show (Prog.call d₂ k₂).inr = _ from hk] at hj
        exact ⟨v, _, by rw [hrest]; exact hI, hgo, hj⟩

theorem Both.ends (sim : Simulation impl low high I) (sim' : Simulation impl' low' high' I') {s s' : σ × σ'} {u : τ × τ'}
    {w : Underway ι (S.sum S') (T.sum T')} {i : ι} {c : (S.sum S').Cmd} {d : (T.sum T').Cmd}
    {k : (T.sum T').Resp d → Prog (T.sum T') Empty ((S.sum S').Resp c)} {r : (T.sum T').Resp d}
    {x : (S.sum S').Resp c} (h : Both I I' s u w) (hw : w i = some ⟨c, .call d k⟩)
    (hlow : low.sum low' i s ⟨d, r⟩ s') (hk : k r = .ret x) :
    ∃ u', high.sum high' i u ⟨c, x⟩ u' ∧ Both I I' s' u' (Function.update w i none) := by
  obtain ⟨v, v', hI, hI', hside⟩ := h
  have hi := hside i
  have hj := side_update (i := i) hside .neither
  generalize ha : v i = a at hi
  generalize ha' : v' i = a' at hi
  generalize w i = st at hi hw
  cases hi with
  | neither => cases hw
  | first c₁ q =>
    cases q with
    | ret a => cases hw
    | raise e => exact e.elim
    | call d₁ k₁ =>
      cases hw
      obtain ⟨hlow, hrest⟩ := hlow
      cases hq : k₁ r with
      | call d₂ k₂ => simp only [hq] at hk; cases hk
      | raise e => exact e.elim
      | ret a =>
        simp only [hq] at hk
        cases hk
        obtain ⟨u', hhigh, hend⟩ := sim.ends hI ha hlow hq
        rw [← ha', Function.update_eq_self] at hj
        exact ⟨(u', u.2), ⟨hhigh, rfl⟩, _, v', hend, by rw [hrest]; exact hI', hj⟩
  | second c₁ q =>
    cases q with
    | ret a => cases hw
    | raise e => exact e.elim
    | call d₁ k₁ =>
      cases hw
      obtain ⟨hrest, hlow⟩ := hlow
      cases hq : k₁ r with
      | call d₂ k₂ => simp only [hq] at hk; cases hk
      | raise e => exact e.elim
      | ret a =>
        simp only [hq] at hk
        cases hk
        obtain ⟨u', hhigh, hend⟩ := sim'.ends hI' ha' hlow hq
        rw [← ha, Function.update_eq_self] at hj
        exact ⟨(u.1, u'), ⟨rfl, hhigh⟩, v, _, by rw [hrest]; exact hI, hend, hj⟩

/-- **Two components side by side.** -/
theorem Simulation.sum (sim : Simulation impl low high I) (sim' : Simulation impl' low' high' I') :
    Simulation (impl.sum impl') (low.sum low') (high.sum high') (Both I I') where
  calls c := by
    cases c with
    | inl c =>
      obtain ⟨d, k, h⟩ := sim.calls c
      exact ⟨.inl d, fun r => (k r).inl, by rw [Impl.sum, h]; rfl⟩
    | inr c =>
      obtain ⟨d, k, h⟩ := sim'.calls c
      exact ⟨.inr d, fun r => (k r).inr, by rw [Impl.sum, h]; rfl⟩
  begins c h hw := Both.begins sim sim' c h hw
  goes h hw hlow hk := Both.goes sim sim' h hw hlow hk
  ends h hw hlow hk := Both.ends sim sim' h hw hlow hk

end Sum

end Conc
