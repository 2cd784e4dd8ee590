import DhsTranslator.Memory.Parts
import Mathlib.Data.List.Nodup

/-!
# Heaps with a list of their cells

- `Listed l h`: the heap has the cells of the list and no others, and every cell is in the list once; allocating, writing
  and deleting a cell do the same to the list (`Listed.new`, `Listed.set`, `Listed.delete`), and its order does not
  matter (`Listed.perm`, `Listed.count`).
-/

namespace Memory

variable {A V : Type}

/-- The cells of the heap are those of the list. -/
structure Listed (l : List (A × V)) (h : Cells A V) : Prop where
  cell : ∀ {a v}, h a = some v ↔ (a, v) ∈ l
  distinct : (l.map Prod.fst).Nodup

section Listed

variable {l l' : List (A × V)} {h : Cells A V} {a b : A} {v w : V}

theorem Listed.empty : Listed ([] : List (A × V)) .none := ⟨by simp, List.nodup_nil⟩

theorem Listed.perm (hl : Listed l h) (hperm : l'.Perm l) : Listed l' h :=
  ⟨hl.cell.trans hperm.mem_iff.symm, (hperm.map Prod.fst).nodup_iff.2 hl.distinct⟩

theorem Listed.head (hl : Listed ((a, v) :: l) h) : h a = some v := hl.cell.2 List.mem_cons_self

/-- An address that is free is not in the list. -/
theorem Listed.fresh (hl : Listed l h) (ha : h a = none) : a ∉ l.map Prod.fst := by
  intro hmem
  obtain ⟨⟨b, v⟩, hv, rfl⟩ := List.mem_map.1 hmem
  cases ha.symm.trans (hl.cell.2 hv)

variable [DecidableEq A]

theorem Listed.count [DecidableEq V] (hl : Listed l h) (hcount : ∀ x, l'.count x = l.count x) : Listed l' h :=
  hl.perm (List.perm_iff_count.2 hcount)

theorem Listed.new (hl : Listed l h) (ha : h a = none) (v : V) : Listed ((a, v) :: l) (h.new a v) := by
  refine ⟨@fun b w => ?_, List.nodup_cons.2 ⟨hl.fresh ha, hl.distinct⟩⟩
  by_cases hb : b = a
  · subst hb
    rw [Cells.new_self, List.mem_cons]
    constructor
    · intro hw
      exact Or.inl (by rw [Option.some.inj hw])
    · rintro (heq | hmem)
      · rw [(Prod.mk.inj heq).2]
      · exact absurd (List.mem_map_of_mem hmem) (hl.fresh ha)
  · rw [Cells.new_of_ne hb, hl.cell, List.mem_cons]
    exact ⟨Or.inr, fun hmem => hmem.resolve_left fun heq => hb (Prod.mk.inj heq).1⟩

theorem Listed.delete (hl : Listed ((a, v) :: l) h) : Listed l (h.delete a) := by
  have hdistinct := List.nodup_cons.1 hl.distinct
  refine ⟨@fun b w => ?_, hdistinct.2⟩
  by_cases hb : b = a
  · subst hb
    have hnone : h.delete b b = none := Function.update_self _ _ _
    rw [hnone]
    exact ⟨fun hw => (nomatch hw), fun hmem => absurd (List.mem_map_of_mem hmem) hdistinct.1⟩
  · rw [Cells.delete_of_ne hb, hl.cell, List.mem_cons]
    exact ⟨fun hmem => hmem.resolve_left fun heq => hb (Prod.mk.inj heq).1, Or.inr⟩

/-- Writing is deleting and allocating again. -/
theorem Listed.set (hl : Listed ((a, v) :: l) h) (w : V) : Listed ((a, w) :: l) (h.new a w) := by
  have hnone : h.delete a a = none := Function.update_self _ _ _
  have hnew := hl.delete.new hnone w
  have hcells : (h.delete a).new a w = h.new a w := Function.update_idem _ _ _
  rwa [hcells] at hnew

end Listed

end Memory
