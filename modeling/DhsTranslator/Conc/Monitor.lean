import DhsTranslator.Conc.Simulation
import DhsTranslator.Memory.Parts

/-!
# Data that is guarded by a lock

Threads share a heap, a lock, and data that is guarded by the lock. A command of theirs is a program: it works on cells
of its own, takes the lock, works on the guarded data and its own cells, frees the lock, and is over. Nothing in the
semantics enforces this; any thread may access anything at any time.

- `Footprint`: which cells and data an access needs, with the lock (`safe`) and without it (`own`); an access that has
  what it needs leaves everything else alone;
- `Outside`, `Inside`: what a program does before it has the lock, from the cells it has, and under the lock, from the
  guarded data as well. Both are facts about one program: the other threads do not occur in them;
- `Monitor.simulation`: **programs that are right on their own are right together**: a run of them is a run of the
  commands, each done at once;
- `Guards.access`: and whatever they access is theirs at that moment.
-/

namespace Conc

open Memory

/-! ## Commands and semantics -/

/-- A lock, and the accesses. -/
inductive LockCmd (C : Type) where
  | lock
  | unlock
  | access (c : C)

/-- The commands of a lock next to other commands. -/
abbrev Sig.locked (S : Sig) : Sig := ⟨LockCmd S.Cmd, fun | .lock => Unit | .unlock => Unit | .access c => S.Resp c⟩

/-- The lock with its owner, the data it guards, and the heap. -/
structure Monitor (ι G A V : Type) where
  owner : Option ι
  guarded : G
  heap : Cells A V

/-- What an access does to the guarded data and the heap. -/
abbrev Effect (S : Sig) (G A V : Type) := G → Cells A V → Act S → G → Cells A V → Prop

variable {S T : Sig} {ε α ι υ G A V : Type}

/-- Whoever accesses, accesses the same data; `unlock` frees the lock whoever holds it. -/
def monitorSem (eff : Effect T G A V) : Sem ι (Monitor ι G A V) T.locked
  | i, s, ⟨.lock, _⟩, s' => s.owner = none ∧ s' = { s with owner := some i }
  | _, s, ⟨.unlock, _⟩, s' => s' = { s with owner := none }
  | _, s, ⟨.access c, r⟩, s' => s'.owner = s.owner ∧ eff s.guarded s.heap ⟨c, r⟩ s'.guarded s'.heap

/-! ## Programs on their own -/

/-- What an access needs so that nothing else matters to it and it changes nothing else: with the lock, which was taken
when the guarded data stood for `u`, and without it. -/
structure Footprint (eff : Effect T G A V) (υ : Type) where
  safe : υ → G → Cells A V → T.Cmd → Prop
  own : Cells A V → T.Cmd → Prop
  frame : ∀ {u g h h₁ h₂ c r g' h'}, safe u g h₁ c → Joins h h₁ h₂ → eff g h ⟨c, r⟩ g' h' →
    ∃ h₁', eff g h₁ ⟨c, r⟩ g' h₁' ∧ Joins h' h₁' h₂
  alone : ∀ {g h h₁ h₂ c r g' h'}, own h₁ c → Joins h h₁ h₂ → eff g h ⟨c, r⟩ g' h' →
    g' = g ∧ ∃ h₁', (∀ g₀, eff g₀ h₁ ⟨c, r⟩ g₀ h₁') ∧ Joins h' h₁' h₂

variable {eff : Effect T G A V}

section Programs

variable {R : Type} (fp : Footprint eff υ) (Guarded : υ → G → Cells A V → Prop)

/-- Under the lock: every access is safe, and the program is over when it frees the lock, with the guarded data and all
its cells as they are to be. -/
def Inside (u : υ) (post : R → υ → Prop) : Prog T.locked Empty R → G → Cells A V → Prop
  | .ret _, _, _ => False
  | .raise _, _, _ => False
  | .call .lock _, _, _ => False
  | .call .unlock k, g, h => ∃ x u', k () = .ret x ∧ Guarded u' g h ∧ post x u'
  | .call (.access c) k, g, h => fp.safe u g h c ∧ ∀ r g' h', eff g h ⟨c, r⟩ g' h' → Inside u post (k r) g' h'

/-- Before the lock: the program accesses cells of its own, and is right under the lock whatever it is going to find. -/
def Outside (post : υ → R → υ → Prop) : Prog T.locked Empty R → Cells A V → Prop
  | .ret _, _ => False
  | .raise _, _ => False
  | .call .unlock _, _ => False
  | .call .lock k, h => ∀ u g shared, Guarded u g shared → (∀ a, h a ≠ none → shared a = none) →
      Inside fp Guarded u (post u) (k ()) g (shared.join h)
  | .call (.access c) k, h => fp.own h c ∧ ∀ r h', (∀ g, eff g h ⟨c, r⟩ g h') → Outside post (k r) h'

/-- The accesses of a part of a program. -/
def Part {B : Type} (u : υ) (post : B → G → Cells A V → Prop) : Prog T.locked Empty B → G → Cells A V → Prop
  | .ret b, g, h => post b g h
  | .raise _, _, _ => False
  | .call .lock _, _, _ => False
  | .call .unlock _, _, _ => False
  | .call (.access c) k, g, h => fp.safe u g h c ∧ ∀ r g' h', eff g h ⟨c, r⟩ g' h' → Part u post (k r) g' h'

variable {fp Guarded} {B C : Type} {u : υ} {post : R → υ → Prop} {g : G} {h : Cells A V}

@[simp] theorem part_ret {b : B} {Q : B → G → Cells A V → Prop} : Part fp u Q (.ret b) g h ↔ Q b g h := Iff.rfl

@[simp] theorem part_access {c : T.Cmd} {k : T.Resp c → Prog T.locked Empty B} {Q : B → G → Cells A V → Prop} :
    Part fp u Q (.call (S := T.locked) (.access c) k) g h ↔
      fp.safe u g h c ∧ ∀ r g' h', eff g h ⟨c, r⟩ g' h' → Part fp u Q (k r) g' h' := Iff.rfl

@[simp] theorem inside_access {c : T.Cmd} {k : T.Resp c → Prog T.locked Empty R} :
    Inside fp Guarded u post (.call (S := T.locked) (.access c) k) g h ↔
      fp.safe u g h c ∧ ∀ r g' h', eff g h ⟨c, r⟩ g' h' → Inside fp Guarded u post (k r) g' h' := Iff.rfl

@[simp] theorem inside_unlock {k : Unit → Prog T.locked Empty R} :
    Inside fp Guarded u post (.call (S := T.locked) .unlock k) g h ↔
      ∃ x u', k () = .ret x ∧ Guarded u' g h ∧ post x u' := Iff.rfl

@[simp] theorem outside_access {c : T.Cmd} {k : T.Resp c → Prog T.locked Empty R} {post : υ → R → υ → Prop} :
    Outside fp Guarded post (.call (S := T.locked) (.access c) k) h ↔
      fp.own h c ∧ ∀ r h', (∀ g, eff g h ⟨c, r⟩ g h') → Outside fp Guarded post (k r) h' := Iff.rfl

@[simp] theorem outside_lock {k : Unit → Prog T.locked Empty R} {post : υ → R → υ → Prop} :
    Outside fp Guarded post (.call (S := T.locked) .lock k) h ↔
      ∀ u g shared, Guarded u g shared → (∀ a, h a ≠ none → shared a = none) →
        Inside fp Guarded u (post u) (k ()) g (shared.join h) := Iff.rfl

/-- **Sequencing of parts.** -/
theorem part_bind {p : Prog T.locked Empty B} {f : B → Prog T.locked Empty C} {Q : C → G → Cells A V → Prop} :
    Part fp u Q (p >>= f) g h ↔ Part fp u (fun b => Part fp u Q (f b)) p g h := by
  induction p generalizing g h with
  | ret b => rfl
  | raise e => rfl
  | call c k ih =>
    cases c with
    | lock => rfl
    | unlock => rfl
    | access c =>
      rw [Prog.call_bind, part_access, part_access]
      exact and_congr_right fun _ => forall_congr' fun r => forall_congr' fun g' => forall_congr' fun h' =>
        imp_congr_right fun _ => ih r

/-- **A part under the lock**, and what comes after it. -/
theorem inside_bind {p : Prog T.locked Empty B} {f : B → Prog T.locked Empty R}
    (hp : Part fp u (fun b g h => Inside fp Guarded u post (f b) g h) p g h) :
    Inside fp Guarded u post (p >>= f) g h := by
  induction p generalizing g h with
  | ret b => exact hp
  | raise e => exact hp.elim
  | call c k ih =>
    cases c with
    | lock => exact hp.elim
    | unlock => exact hp.elim
    | access c => exact ⟨hp.1, fun r g' h' heff => ih r (hp.2 r g' h' heff)⟩

theorem Part.mono {p : Prog T.locked Empty B} {Q Q' : B → G → Cells A V → Prop} (hp : Part fp u Q p g h)
    (hQ : ∀ b g h, Q b g h → Q' b g h) : Part fp u Q' p g h := by
  induction p generalizing g h with
  | ret b => exact hQ b g h hp
  | raise e => exact hp.elim
  | call c k ih =>
    cases c with
    | lock => exact hp.elim
    | unlock => exact hp.elim
    | access c => exact ⟨hp.1, fun r g' h' heff => ih r (hp.2 r g' h' heff)⟩

end Programs

/-! ## Threads together -/

section Threads

variable [DecidableEq ι] {fp : Footprint eff υ} {Guarded : υ → G → Cells A V → Prop} {impl : Impl S T.locked}
  {high : Sem ι υ S}

/-- What a thread has done is right so far: it has nothing, or it is before the lock, or it is under the lock. -/
def Right (fp : Footprint eff υ) (Guarded : υ → G → Cells A V → Prop) (high : Sem ι υ S) (i : ι) (u : υ)
    (owner : Option ι) (g : G) (part : Cells A V) : Option (Σ c : S.Cmd, Prog T.locked Empty (S.Resp c)) → Prop
  | none => owner ≠ some i ∧ part = .none
  | some ⟨c, q⟩ =>
    (owner ≠ some i ∧ Outside fp Guarded (fun u x u' => high i u ⟨c, x⟩ u') q part) ∨
    (owner = some i ∧ Inside fp Guarded u (fun x u' => high i u ⟨c, x⟩ u') q g part)

/-- The heap is shared out to the threads and, when it is free, to the lock. -/
structure Guards (fp : Footprint eff υ) (Guarded : υ → G → Cells A V → Prop) (high : Sem ι υ S)
    (F : Option ι → Cells A V) (s : Monitor ι G A V) (u : υ) (w : Underway ι S T.locked) : Prop where
  shares : Shares F s.heap
  free : s.owner = none → Guarded u s.guarded (F none)
  taken : s.owner ≠ none → F none = .none
  right : ∀ i, Right fp Guarded high i u s.owner s.guarded (F (some i)) (w i)

variable {F : Option ι → Cells A V} {s s' : Monitor ι G A V} {u : υ} {w : Underway ι S T.locked} {i j : ι}

omit [DecidableEq ι] in
/-- A thread that is not under the lock does not depend on what it guards. -/
theorem Right.elsewhere {owner owner' : Option ι} {g g' : G} {u u' : υ} {part : Cells A V}
    {st : Option (Σ c : S.Cmd, Prog T.locked Empty (S.Resp c))} (h : Right fp Guarded high i u owner g part st)
    (hi : owner ≠ some i) (hi' : owner' ≠ some i) : Right fp Guarded high i u' owner' g' part st := by
  cases st with
  | none => exact ⟨hi', h.2⟩
  | some st =>
    rcases h with ⟨_, h⟩ | ⟨howner, _⟩
    · exact Or.inl ⟨hi', h⟩
    · exact absurd howner hi

/-- **An access** is the thread's own business. -/
theorem Guards.accessed (hG : Guards fp Guarded high F s u w) {c : S.Cmd} {d : T.Cmd}
    {k : T.Resp d → Prog T.locked Empty (S.Resp c)} {r : T.Resp d}
    (hw : w i = some ⟨c, .call (S := T.locked) (.access d) k⟩) (howner : s'.owner = s.owner)
    (heff : eff s.guarded s.heap ⟨d, r⟩ s'.guarded s'.heap) :
    ∃ part, Guards fp Guarded high (Function.update F (some i) part) s' u (Function.update w i (some ⟨c, k r⟩)) := by
  have hi := hG.right i
  rw [hw] at hi
  have hnone : ∀ part : Cells A V, (Function.update F (some i) part) none = F none := fun part =>
    Function.update_of_ne (by nofun) _ _
  rcases hi with ⟨hout, hown, hk⟩ | ⟨hin, hsafe, hk⟩
  · -- without the lock, what is guarded stays as it is
    obtain ⟨hg, part, halone, hjoins⟩ := fp.alone hown (hG.shares.joins (some i)) heff
    refine ⟨part, hG.shares.update hjoins, ?_, ?_, fun j => ?_⟩
    · rw [howner, hg, hnone]
      exact hG.free
    · rw [howner, hnone]
      exact hG.taken
    · rw [howner, hg]
      by_cases hj : j = i
      · subst hj
        rw [Function.update_self, Function.update_self]
        exact Or.inl ⟨hout, hk r part halone⟩
      · rw [Function.update_of_ne hj, Function.update_of_ne (by simpa using hj)]
        exact hG.right j
  · -- with the lock, the other threads are not under it
    obtain ⟨part, hpart, hjoins⟩ := fp.frame hsafe (hG.shares.joins (some i)) heff
    refine ⟨part, hG.shares.update hjoins, ?_, ?_, fun j => ?_⟩
    · rw [howner, hin]
      nofun
    · rw [howner, hnone]
      exact hG.taken
    · by_cases hj : j = i
      · subst hj
        rw [Function.update_self, Function.update_self, howner]
        exact Or.inr ⟨hin, hk r _ _ hpart⟩
      · rw [Function.update_of_ne hj, Function.update_of_ne (by simpa using hj)]
        have hne : s.owner ≠ some j := by
          rw [hin]
          simpa using Ne.symm hj
        exact (hG.right j).elsewhere hne (by rwa [howner])

/-- **The lock is taken**, with what it guards. -/
theorem Guards.locked (hG : Guards fp Guarded high F s u w) {c : S.Cmd} {k : Unit → Prog T.locked Empty (S.Resp c)}
    (hw : w i = some ⟨c, .call (S := T.locked) .lock k⟩) (hfree : s.owner = none) :
    Guards fp Guarded high (Function.update (Function.update F (some i) ((F none).join (F (some i)))) none .none)
      { s with owner := some i } u (Function.update w i (some ⟨c, k ()⟩)) := by
  have hi := hG.right i
  rw [hw] at hi
  refine ⟨hG.shares.give (by nofun), nofun, fun _ => Function.update_self _ _ _, fun j => ?_⟩
  rw [Function.update_of_ne (by nofun)]
  by_cases hj : j = i
  · subst hj
    rcases hi with ⟨_, hout⟩ | ⟨_, hin⟩
    · rw [Function.update_self, Function.update_self]
      exact Or.inr ⟨rfl, hout _ _ _ (hG.free hfree) fun a ha => hG.shares.disjoint (by nofun) ha⟩
    · exact hin.elim
  · rw [Function.update_of_ne hj, Function.update_of_ne (by simpa using hj)]
    exact (hG.right j).elsewhere (by rw [hfree]; nofun) (by simpa using Ne.symm hj)

/-- **The lock is freed**, and the command is done. -/
theorem Guards.unlocked (hG : Guards fp Guarded high F s u w) {c : S.Cmd} {k : Unit → Prog T.locked Empty (S.Resp c)}
    (hw : w i = some ⟨c, .call (S := T.locked) .unlock k⟩) :
    ∃ x u', k () = .ret x ∧ high i u ⟨c, x⟩ u' ∧
      Guards fp Guarded high (Function.update (Function.update F none ((F (some i)).join (F none))) (some i) .none)
        { s with owner := none } u' (Function.update w i none) := by
  have hi := hG.right i
  rw [hw] at hi
  rcases hi with ⟨_, hout⟩ | ⟨hin, x, u', hx, hguarded, hpost⟩
  · exact hout.elim
  · have hempty : F none = .none := hG.taken (by rw [hin]; nofun)
    refine ⟨x, u', hx, hpost, hG.shares.give (by nofun), fun _ => ?_, fun hne => absurd rfl hne, fun j => ?_⟩
    · rw [Function.update_of_ne (by nofun), Function.update_self, hempty, Cells.join_none]
      exact hguarded
    · by_cases hj : j = i
      · subst hj
        rw [Function.update_self, Function.update_self]
        exact ⟨by nofun, rfl⟩
      · rw [Function.update_of_ne hj, Function.update_of_ne (by simpa using hj), Function.update_of_ne (by nofun)]
        refine (hG.right j).elsewhere ?_ (by nofun)
        rw [hin]
        simpa using Ne.symm hj

omit [DecidableEq ι] in
/-- A program is not over before it frees the lock. -/
theorem Guards.not_over (hG : Guards fp Guarded high F s u w) {c : S.Cmd} {x : S.Resp c} :
    w i ≠ some ⟨c, .ret x⟩ := by
  intro hw
  have hi := hG.right i
  rw [hw] at hi
  rcases hi with ⟨_, hout⟩ | ⟨_, hin⟩
  · exact hout.elim
  · exact hin.elim

/-- **Programs that are right on their own are right together.** -/
theorem Monitor.simulation (hcalls : ∀ c, ∃ d k, impl c = .call d k)
    (hright : ∀ (i : ι) c, Outside fp Guarded (fun u x u' => high i u ⟨c, x⟩ u') (impl c) .none) :
    Simulation impl (monitorSem eff) high fun s u w => ∃ F, Guards fp Guarded high F s u w where
  calls := hcalls
  begins := by
    rintro s u w i c ⟨F, hG⟩ hw
    refine ⟨F, hG.shares, hG.free, hG.taken, fun j => ?_⟩
    by_cases hj : j = i
    · subst hj
      have hj := hG.right j
      rw [hw] at hj
      rw [Function.update_self, hj.2]
      exact Or.inl ⟨hj.1, hright j c⟩
    · rw [Function.update_of_ne hj]
      exact hG.right j
  goes := by
    rintro s s' u w i c d k r d' k' ⟨F, hG⟩ hw hlow hk
    cases d with
    | lock =>
      obtain ⟨hfree, rfl⟩ := hlow
      have hlocked := hG.locked hw hfree
      rw [hk] at hlocked
      exact ⟨_, hlocked⟩
    | unlock =>
      obtain ⟨x, _, hx, _⟩ := hG.unlocked hw
      cases hx.symm.trans hk
    | access d =>
      obtain ⟨part, hpart⟩ := hG.accessed hw hlow.1 hlow.2
      rw [hk] at hpart
      exact ⟨_, hpart⟩
  ends := by
    rintro s s' u w i c d k r x ⟨F, hG⟩ hw hlow hk
    cases d with
    | lock =>
      obtain ⟨hfree, rfl⟩ := hlow
      exact ((hG.locked hw hfree).not_over (by rw [Function.update_self, hk])).elim
    | unlock =>
      obtain ⟨y, u', hy, hhigh, hdone⟩ := hG.unlocked hw
      cases hy.symm.trans hk
      obtain rfl : s' = _ := hlow
      exact ⟨u', hhigh, _, hdone⟩
    | access d =>
      obtain ⟨part, hpart⟩ := hG.accessed hw hlow.1 hlow.2
      exact (hpart.not_over (by rw [Function.update_self, hk])).elim

/-! ## What the threads may do -/

omit [DecidableEq ι] in
/-- **What a thread accesses is its own**: cells it has, and under the lock what the lock guards. -/
theorem Guards.access (hG : Guards fp Guarded high F s u w) {c : S.Cmd} {d : T.Cmd}
    {k : T.Resp d → Prog T.locked Empty (S.Resp c)} (hw : w i = some ⟨c, .call (S := T.locked) (.access d) k⟩) :
    (s.owner ≠ some i ∧ fp.own (F (some i)) d) ∨ (s.owner = some i ∧ fp.safe u s.guarded (F (some i)) d) := by
  have hi := hG.right i
  rw [hw] at hi
  rcases hi with ⟨hout, hown, _⟩ | ⟨hin, hsafe, _⟩
  · exact Or.inl ⟨hout, hown⟩
  · exact Or.inr ⟨hin, hsafe⟩

omit [DecidableEq ι] in
/-- A thread does not wait for itself. -/
theorem Guards.lock (hG : Guards fp Guarded high F s u w) {c : S.Cmd} {k : Unit → Prog T.locked Empty (S.Resp c)}
    (hw : w i = some ⟨c, .call (S := T.locked) .lock k⟩) : s.owner ≠ some i := by
  have hi := hG.right i
  rw [hw] at hi
  rcases hi with ⟨hout, _⟩ | ⟨_, hin⟩
  · exact hout
  · exact hin.elim

omit [DecidableEq ι] in
/-- And does not free the lock of another. -/
theorem Guards.unlock (hG : Guards fp Guarded high F s u w) {c : S.Cmd} {k : Unit → Prog T.locked Empty (S.Resp c)}
    (hw : w i = some ⟨c, .call (S := T.locked) .unlock k⟩) : s.owner = some i := by
  have hi := hG.right i
  rw [hw] at hi
  rcases hi with ⟨_, hout⟩ | ⟨hin, _⟩
  · exact hout.elim
  · exact hin

omit [DecidableEq ι] in
/-- **No thread waits for ever**: only who takes the lock may have to wait, and for another thread, if the accesses can be
answered. -/
theorem Guards.progress (hG : Guards fp Guarded high F s u w) {c : S.Cmd} {d : T.locked.Cmd}
    {k : T.locked.Resp d → Prog T.locked Empty (S.Resp c)} (hw : w i = some ⟨c, .call d k⟩)
    (hi : d = .lock → s.owner = none ∨ s.owner = some i)
    (heff : ∀ d', d = .access d' → fp.own (F (some i)) d' ∨ fp.safe u s.guarded (F (some i)) d' →
      ∃ r g' h', eff s.guarded s.heap ⟨d', r⟩ g' h') : ∃ r s', monitorSem eff i s ⟨d, r⟩ s' := by
  cases d with
  | lock => exact ⟨(), { s with owner := some i }, (hi rfl).resolve_right (hG.lock hw), rfl⟩
  | unlock => exact ⟨(), { s with owner := none }, rfl⟩
  | access d =>
    obtain ⟨r, g', h', heff⟩ := heff d rfl ((hG.access hw).imp And.right And.right)
    exact ⟨r, ⟨s.owner, g', h'⟩, rfl, heff⟩

omit [DecidableEq ι] in
/-- Who has the lock is in a command. -/
theorem Guards.holder (hG : Guards fp Guarded high F s u w) (hi : s.owner = some i) : ∃ c q, w i = some ⟨c, q⟩ := by
  have hright := hG.right i
  cases hw : w i with
  | none =>
    rw [hw] at hright
    exact absurd hi hright.1
  | some st => exact ⟨st.1, st.2, rfl⟩

omit [DecidableEq ι] in
/-- **Nothing is left behind**: between the commands all cells are those of the guarded data. -/
theorem Guards.rest (hG : Guards fp Guarded high F s u w) (hw : ∀ i, w i = none) :
    s.owner = none ∧ Guarded u s.guarded s.heap := by
  have hrest : ∀ i, s.owner ≠ some i ∧ F (some i) = .none := by
    intro i
    have hi := hG.right i
    rwa [hw] at hi
  have howner : s.owner = none := Option.eq_none_iff_forall_ne_some.2 fun i => (hrest i).1
  have hheap : s.heap = F none := by
    funext a
    cases ha : s.heap a with
    | none =>
      cases hf : F none a with
      | none => rfl
      | some v => exact ha.symm.trans (hG.shares.sound hf)
    | some v =>
      obtain ⟨o, ho⟩ := hG.shares.full (a := a) (by simp [ha])
      cases o with
      | some i => exact absurd (by rw [(hrest i).2]; rfl) ho
      | none =>
        obtain ⟨v', hv'⟩ := Option.ne_none_iff_exists'.1 ho
        rw [hv', ← ha, hG.shares.sound hv']
  exact ⟨howner, by rw [hheap]; exact hG.free howner⟩

end Threads

/-! ## A thread alone -/

section Alone

variable {fp : Footprint eff υ} {s s' : Monitor ι G A V} {u : υ} {i : ι} {B : Type}

/-- **A program that runs alone under the lock** is right at every moment, until it is over. -/
theorem Inside.path {Guarded : υ → G → Cells A V → Prop} {post : B → υ → Prop} {p q : Prog T.locked Empty B}
    {acts : List (Act T.locked)} (hp : Inside fp Guarded u post p s.guarded s.heap) (hpath : Path p acts q)
    (hx : Exec (monitorSem eff) s (acts.map (Event.mk i)) s') :
    (Inside fp Guarded u post q s'.guarded s'.heap ∧ s'.owner = s.owner) ∨
      ∃ x u', q = .ret x ∧ s'.owner = none ∧ Guarded u' s'.guarded s'.heap ∧ post x u' := by
  induction hpath generalizing s with
  | nil p =>
    obtain rfl := exec_nil.1 hx
    exact Or.inl ⟨hp, rfl⟩
  | @cons c k acts q r hrest ih =>
    obtain ⟨m, hm, hx'⟩ := exec_cons.1 hx
    cases c with
    | lock => exact hp.elim
    | unlock =>
      obtain ⟨x, u', hx₁, hguarded, hpost⟩ := hp
      obtain rfl : m = _ := hm
      rw [hx₁] at hrest
      obtain ⟨rfl, rfl⟩ := path_ret.1 hrest
      obtain rfl := exec_nil.1 hx'
      exact Or.inr ⟨x, u', rfl, rfl, hguarded, hpost⟩
    | access c =>
      rw [← hm.1]
      exact ih (hp.2 r _ _ hm.2) hx'

end Alone

end Conc
