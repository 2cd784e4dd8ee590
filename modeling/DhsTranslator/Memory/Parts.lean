import DhsTranslator.Memory.Cells

/-!
# Parts of a heap

- `Joins h h₁ h₂`: the heap consists of the two parts, and they have no cell in common; what is done to the cells of one
  part leaves the other as it is (`Joins.new`, `Joins.set`, `Joins.delete`);
- `Shares F h`: every cell of the heap is in the part of one owner. An owner may change its own part
  (`Shares.update`) or give it away (`Shares.give`).
-/

namespace Memory

variable {κ A V : Type}

/-- No cells. -/
def Cells.none : Cells A V := fun _ => .none

/-- The cells of both. -/
def Cells.join (h₁ h₂ : Cells A V) : Cells A V := fun a => (h₁ a).or (h₂ a)

@[simp] theorem Cells.none_apply (a : A) : (Cells.none : Cells A V) a = .none := rfl

@[simp] theorem Cells.join_none (h : Cells A V) : h.join .none = h := by
  funext a
  simp [Cells.join]

@[simp] theorem Cells.none_join (h : Cells A V) : Cells.none.join h = h := by
  funext a
  simp [Cells.join]

/-! ## Two parts -/

/-- The heap consists of two parts without a common cell. -/
def Joins (h h₁ h₂ : Cells A V) : Prop := ∀ a, (h₁ a = none ∧ h a = h₂ a) ∨ (h₂ a = none ∧ h a = h₁ a)

section Joins

variable {h h₁ h₂ : Cells A V} {a : A} {v : V}

theorem Joins.left (hj : Joins h h₁ h₂) (ha : h₁ a ≠ none) : h a = h₁ a ∧ h₂ a = none := by
  rcases hj a with ⟨hnone, _⟩ | ⟨hnone, heq⟩
  · exact absurd hnone ha
  · exact ⟨heq, hnone⟩

theorem Joins.some (hj : Joins h h₁ h₂) (ha : h₁ a = some v) : h a = some v := by
  rw [← ha]
  exact (hj.left (by simp [ha])).1

theorem Joins.fresh (hj : Joins h h₁ h₂) (ha : h a = none) : h₁ a = none ∧ h₂ a = none := by
  rcases hj a with ⟨hnone, heq⟩ | ⟨hnone, heq⟩
  · exact ⟨hnone, heq.symm.trans ha⟩
  · exact ⟨heq.symm.trans ha, hnone⟩

variable [DecidableEq A]

/-- A new cell is in the part of who takes it. -/
theorem Joins.new (hj : Joins h h₁ h₂) (ha : h a = none) (v : V) : Joins (h.new a v) (h₁.new a v) h₂ := by
  intro b
  by_cases hb : b = a
  · subst hb
    exact Or.inr ⟨(hj.fresh ha).2, by simp⟩
  · simpa only [Cells.new_of_ne hb] using hj b

/-- What is written to a cell stays in its part. -/
theorem Joins.set (hj : Joins h h₁ h₂) (ha : h₁ a ≠ none) (v : V) : Joins (h.new a v) (h₁.new a v) h₂ := by
  intro b
  by_cases hb : b = a
  · subst hb
    exact Or.inr ⟨(hj.left ha).2, by simp⟩
  · simpa only [Cells.new_of_ne hb] using hj b

theorem Joins.delete (hj : Joins h h₁ h₂) (ha : h₁ a ≠ none) : Joins (h.delete a) (h₁.delete a) h₂ := by
  intro b
  by_cases hb : b = a
  · subst hb
    exact Or.inr ⟨(hj.left ha).2, by simp [Cells.delete]⟩
  · simpa only [Cells.delete_of_ne hb] using hj b

end Joins

/-! ## Shares -/

/-- Every cell is in the part of one owner. -/
structure Shares (F : κ → Cells A V) (h : Cells A V) : Prop where
  sound : ∀ {o a v}, F o a = some v → h a = some v
  apart : ∀ {o o' a}, F o a ≠ none → F o' a ≠ none → o = o'
  full : ∀ {a}, h a ≠ none → ∃ o, F o a ≠ none

theorem Shares.empty : Shares (fun _ : κ => (.none : Cells A V)) .none :=
  ⟨nofun, fun h => absurd rfl h, fun h => absurd rfl h⟩

section Shares

variable {F : κ → Cells A V} {h : Cells A V}

/-- What is not in the part of the owner. -/
def Cells.without (h h₁ : Cells A V) : Cells A V := fun a => if (h₁ a).isNone then h a else .none

theorem Shares.joins (hF : Shares F h) (o : κ) : Joins h (F o) (h.without (F o)) := by
  intro a
  cases ha : F o a with
  | none => exact Or.inl ⟨rfl, by simp [Cells.without, ha]⟩
  | some v => exact Or.inr ⟨by simp [Cells.without, ha], hF.sound ha⟩

/-- Two owners have no cell in common. -/
theorem Shares.disjoint (hF : Shares F h) {o o' : κ} (hne : o ≠ o') {a : A} (ha : F o a ≠ none) : F o' a = none := by
  by_contra hcontra
  exact hne (hF.apart ha hcontra)

variable [DecidableEq κ]

/-- **An owner changes its own part.** -/
theorem Shares.update (hF : Shares F h) {o : κ} {h' h₁' : Cells A V} (hj : Joins h' h₁' (h.without (F o))) :
    Shares (Function.update F o h₁') h' := by
  -- a cell of another owner is not in the part that changes, before or after
  have hother : ∀ {o' a}, o' ≠ o → F o' a ≠ none → h' a = h a ∧ h₁' a = none := by
    intro o' a hne ha
    have hself : F o a = none := by
      by_contra hcontra
      exact hne (hF.apart ha hcontra)
    obtain ⟨v, hv⟩ := Option.ne_none_iff_exists'.1 ha
    have hrest : h.without (F o) a = some v := by simp [Cells.without, hself, hF.sound hv]
    rcases hj a with ⟨hnone, heq⟩ | ⟨hnone, _⟩
    · exact ⟨by rw [heq, hrest, hF.sound hv], hnone⟩
    · rw [hrest] at hnone
      cases hnone
  refine ⟨fun {o' a v} ha => ?_, fun {o₁ o₂ a} h₁ h₂ => ?_, fun {a} ha => ?_⟩
  · by_cases ho : o' = o
    · subst ho
      rw [Function.update_self] at ha
      exact hj.some ha
    · rw [Function.update_of_ne ho] at ha
      rw [(hother ho (by simp [ha])).1]
      exact hF.sound ha
  · by_cases ho₁ : o₁ = o
    · by_cases ho₂ : o₂ = o
      · rw [ho₁, ho₂]
      · subst ho₁
        rw [Function.update_self] at h₁
        rw [Function.update_of_ne ho₂] at h₂
        exact absurd (hother ho₂ h₂).2 h₁
    · by_cases ho₂ : o₂ = o
      · subst ho₂
        rw [Function.update_self] at h₂
        rw [Function.update_of_ne ho₁] at h₁
        exact absurd (hother ho₁ h₁).2 h₂
      · rw [Function.update_of_ne ho₁] at h₁
        rw [Function.update_of_ne ho₂] at h₂
        exact hF.apart h₁ h₂
  · by_cases hnew : h₁' a = none
    · have hrest : h.without (F o) a ≠ none := by
        rcases hj a with ⟨_, heq⟩ | ⟨_, heq⟩
        · rwa [← heq]
        · exact absurd (heq.trans hnew) ha
      have hold : F o a = none := by
        by_contra hcontra
        simp [Cells.without, Option.isNone_eq_false_iff.2 (Option.isSome_iff_ne_none.2 hcontra)] at hrest
      have hh : h a ≠ none := by simpa [Cells.without, hold] using hrest
      obtain ⟨o', ho'⟩ := hF.full hh
      have hne : o' ≠ o := by
        rintro rfl
        exact ho' hold
      exact ⟨o', by rwa [Function.update_of_ne hne]⟩
    · exact ⟨o, by rwa [Function.update_self]⟩

/-- **An owner gives its part away.** -/
theorem Shares.give (hF : Shares F h) {o o' : κ} (hne : o ≠ o') :
    Shares (Function.update (Function.update F o' ((F o).join (F o'))) o .none) h := by
  have hcell : ∀ {k a}, Function.update (Function.update F o' ((F o).join (F o'))) o .none k a =
      if k = o then none else if k = o' then (F o a).or (F o' a) else F k a := by
    intro k a
    by_cases hk : k = o
    · subst hk
      simp
    · by_cases hk' : k = o'
      · subst hk'
        simp [hk, Cells.join]
      · simp [hk, hk']
  refine ⟨fun {k a v} ha => ?_, fun {k k' a} h₁ h₂ => ?_, fun {a} ha => ?_⟩
  · rw [hcell] at ha
    split at ha
    · cases ha
    · split at ha
      · rcases Option.or_eq_some_iff.1 ha with ha | ⟨_, ha⟩
        · exact hF.sound ha
        · exact hF.sound ha
      · exact hF.sound ha
  · -- a cell of the new part of `o'` was one of `o` or of `o'`
    have hfrom : ∀ {k}, Function.update (Function.update F o' ((F o).join (F o'))) o .none k a ≠ none →
        k ≠ o ∧ ((k = o' ∧ F o a ≠ none) ∨ F k a ≠ none) := by
      intro k hk
      rw [hcell] at hk
      split at hk
      · exact absurd rfl hk
      · rename_i hko
        split at hk
        · rename_i hko'
          subst hko'
          refine ⟨hko, ?_⟩
          by_contra hcontra
          simp_all
        · exact ⟨hko, Or.inr hk⟩
    obtain ⟨hk, hk₁⟩ := hfrom h₁
    obtain ⟨hk', hk₂⟩ := hfrom h₂
    rcases hk₁ with ⟨rfl, ho₁⟩ | ho₁ <;> rcases hk₂ with ⟨rfl, ho₂⟩ | ho₂
    · rfl
    · exact absurd (hF.apart ho₂ ho₁) hk'
    · exact absurd (hF.apart ho₁ ho₂) hk
    · exact hF.apart ho₁ ho₂
  · obtain ⟨k, hk⟩ := hF.full ha
    by_cases hko : k = o
    · subst hko
      refine ⟨o', ?_⟩
      rw [hcell, if_neg (Ne.symm hne), if_pos rfl]
      simp [hk]
    · refine ⟨k, ?_⟩
      rw [hcell, if_neg hko]
      split
      · rename_i hko'
        subst hko'
        simp [hk]
      · exact hk

end Shares

end Memory
