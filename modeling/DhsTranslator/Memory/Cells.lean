import Mathlib.Logic.Function.Basic

/-!
# Raw storage and owned cells

- `readLow`, `writeLow`: a member of a union, in the low bits of its storage; `readLow_writeLow`: what was written to a
  member is read from it;
- `Cells`: the cells of a heap, by their addresses; `Separate`: every owner has a cell of its own. Taking a new cell,
  leaving a cell behind and deleting one keep it (`Separate.renew`, `Separate.abandon`, `Separate.delete`), and the cells of the
  other owners stay as they are (`Separate.new_other`, `Separate.delete_other`).
-/

namespace Memory

/-! ## Raw storage -/

section Raw

variable {n w : Nat}

/-- Read the low bits. -/
def readLow (w : Nat) (raw : BitVec n) : BitVec w := raw.setWidth w

/-- Write the low bits and leave the others. -/
def writeLow (v : BitVec w) (raw : BitVec n) : BitVec n := (raw >>> w) <<< w ||| v.setWidth n

/-- **What was written is read**, wherever it was written over. -/
@[simp] theorem readLow_writeLow (h : w ≤ n) (v : BitVec w) (raw : BitVec n) : readLow w (writeLow v raw) = v := by
  unfold readLow writeLow
  ext i hi
  have hin : i < n := by omega
  simp [hi, hin]

end Raw

/-! ## Cells -/

/-- The cells of a heap: what is at an address, if something is. -/
abbrev Cells (A V : Type) := A → Option V

section Cells

variable {ι A V : Type} [DecidableEq A] {cells : Cells A V} {a b : A} {v : V}

/-- Put something at an address. -/
def Cells.new (cells : Cells A V) (a : A) (v : V) : Cells A V := Function.update cells a (some v)

/-- Delete what is at an address. -/
def Cells.delete (cells : Cells A V) (a : A) : Cells A V := Function.update cells a none

@[simp] theorem Cells.new_self : cells.new a v a = some v := Function.update_self _ _ _

theorem Cells.new_of_ne (h : b ≠ a) : cells.new a v b = cells b := Function.update_of_ne h _ _

theorem Cells.delete_of_ne (h : b ≠ a) : cells.delete a b = cells b := Function.update_of_ne h _ _

/-- **Every owner has a cell of its own.** -/
structure Separate (owns : ι → Option A) (cells : Cells A V) : Prop where
  allocated : ∀ {i a}, owns i = some a → cells a ≠ none
  disjoint : ∀ {i j a}, owns i = some a → owns j = some a → i = j

variable {owns : ι → Option A} {i j : ι}

omit [DecidableEq A] in
theorem Separate.start : Separate (fun _ : ι => none) cells := ⟨nofun, nofun⟩

/-- A new cell is none of those that are owned. -/
theorem Separate.new_other (h : Separate owns cells) (hfresh : cells a = none) (hj : owns j = some b) :
    cells.new a v b = cells b := by
  refine Cells.new_of_ne ?_
  rintro rfl
  exact h.allocated hj hfresh

/-- A cell of one owner is not that of another. -/
theorem Separate.delete_other (h : Separate owns cells) (hi : owns i = some a) (hj : owns j = some b) (hne : j ≠ i) :
    cells.delete a b = cells b := by
  refine Cells.delete_of_ne ?_
  rintro rfl
  exact hne (h.disjoint hj hi)

variable [DecidableEq ι]

omit [DecidableEq A] in
/-- An owner without a cell, whatever becomes of the one it had. -/
theorem Separate.abandon (h : Separate owns cells) (i : ι) : Separate (Function.update owns i none) cells := by
  have hold : ∀ {k c}, Function.update owns i none k = some c → owns k = some c := by
    intro k c hk
    by_cases hki : k = i
    · subst hki
      rw [Function.update_self] at hk
      cases hk
    · rwa [Function.update_of_ne hki] at hk
  exact ⟨fun hk => h.allocated (hold hk), fun hk hl => h.disjoint (hold hk) (hold hl)⟩

/-- **An owner takes a new cell.** -/
theorem Separate.renew (h : Separate owns cells) (i : ι) (hfresh : cells a = none) (v : V) :
    Separate (Function.update owns i (some a)) (cells.new a v) := by
  have hother : ∀ {k c}, k ≠ i → Function.update owns i (some a) k = some c → owns k = some c := by
    intro k c hk hc
    rwa [Function.update_of_ne hk] at hc
  have hself : ∀ {c}, Function.update owns i (some a) i = some c → c = a := by
    intro c hc
    rw [Function.update_self] at hc
    exact (Option.some.inj hc).symm
  refine ⟨fun {k c} hk => ?_, fun {k l c} hk hl => ?_⟩
  · by_cases hki : k = i
    · subst hki
      rw [hself hk, Cells.new_self]
      nofun
    · rw [h.new_other hfresh (hother hki hk)]
      exact h.allocated (hother hki hk)
  · by_cases hki : k = i
    · subst hki
      by_cases hlk : l = k
      · exact hlk.symm
      · rw [hself hk] at hl
        exact absurd hfresh (h.allocated (hother hlk hl))
    · by_cases hli : l = i
      · subst hli
        rw [hself hl] at hk
        exact absurd hfresh (h.allocated (hother hki hk))
      · exact h.disjoint (hother hki hk) (hother hli hl)

/-- **An owner deletes its cell.** -/
theorem Separate.delete (h : Separate owns cells) (hi : owns i = some a) :
    Separate (Function.update owns i none) (cells.delete a) := by
  have hold := h.abandon i
  refine ⟨fun {k c} hk => ?_, hold.disjoint⟩
  have hki : k ≠ i := by
    rintro rfl
    rw [Function.update_self] at hk
    cases hk
  have hk' : owns k = some c := by rwa [Function.update_of_ne hki] at hk
  rw [h.delete_other hi hk' hki]
  exact h.allocated hk'

end Cells

end Memory
