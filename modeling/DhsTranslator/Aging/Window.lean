import Mathlib.Algebra.Order.Group.Defs
import Mathlib.Data.Set.Insert
import Mathlib.Data.List.TakeWhile

/-!
# Records that age

Keys are recorded with a time stamp and count for a window of length `w`: a stamp `s` is expired at `t` when
`t - s > w`.

- `Expired` grows with the time (`Expired.mono`) and shrinks with the stamp (`Expired.anti`);
- `dropWhile_clean_iff`: removing from the front while a test holds removes everything that passes the test iff
  whatever passes it stands before whatever does not;
- `Tracks w t log live`: the live records are among the recorded ones and still hold every one not expired at `t`.
  Waiting, forgetting expired records and recording keep it; where no live record is expired, membership in `live`
  is exactly membership in the window of the whole log (`Tracks.recent_iff`).
-/

namespace Aging

/-! ## Expiry -/

section Expiry

variable {T : Type}

/-- At time `t`, a record stamped `s` is older than `w`. The times may be machine integers. -/
def Expired [Sub T] [LT T] (w t s : T) : Prop := w < t - s

instance [Sub T] [LT T] [DecidableLT T] (w t s : T) : Decidable (Expired w t s) :=
  inferInstanceAs (Decidable (w < t - s))

variable [AddCommGroup T] [LinearOrder T] [IsOrderedAddMonoid T] {w t t' s s' : T}

/-- What is expired stays so. -/
theorem Expired.mono (h : Expired w t s) (ht : t ≤ t') : Expired w t' s :=
  lt_of_lt_of_le h (sub_le_sub_right ht s)

/-- What is older than an expired record is expired. -/
theorem Expired.anti (h : Expired w t s) (hs : s' ≤ s) : Expired w t s' :=
  lt_of_lt_of_le h (sub_le_sub_left hs t)

end Expiry

/-! ## Removing from the front -/

section Front

variable {α : Type} {p : α → Bool} {l : List α}

/-- What fails the test is not removed. -/
theorem mem_dropWhile_of_false {x : α} (hx : x ∈ l) (hp : p x = false) : x ∈ l.dropWhile p := by
  have h : x ∈ l.takeWhile p ++ l.dropWhile p := by rw [List.takeWhile_append_dropWhile]; exact hx
  rcases List.mem_append.1 h with h | h
  · rw [List.mem_takeWhile_imp h] at hp; cases hp
  · exact h

/-- Only the tests of the elements matter. -/
theorem dropWhile_congr {q : α → Bool} (h : ∀ x ∈ l, p x = q x) : l.dropWhile p = l.dropWhile q := by
  induction l with
  | nil => rfl
  | cons a l ih =>
    obtain ⟨ha, hl⟩ := List.forall_mem_cons.1 h
    rw [List.dropWhile_cons, List.dropWhile_cons, ha, ih hl]

/-- **Front removal is complete** iff everything that passes the test stands first. -/
theorem dropWhile_clean_iff :
    (∀ x ∈ l.dropWhile p, p x = false) ↔ l.Pairwise (fun a b => p b = true → p a = true) := by
  induction l with
  | nil => simp
  | cons a l ih =>
    rw [List.pairwise_cons]
    cases ha : p a with
    | true => simp [ha, ih]
    | false =>
      -- the front stays, so nothing behind it may pass the test
      rw [List.dropWhile_cons_of_neg (by simp [ha])]
      constructor
      · intro h
        have hb : ∀ b ∈ l, p b = false := fun b hb => h b (List.mem_cons_of_mem a hb)
        refine ⟨fun b hm hp => ?_, ih.1 fun x hx => hb x (List.dropWhile_subset p hx)⟩
        rw [hb b hm] at hp; cases hp
      · rintro ⟨h, _⟩ x hx
        rcases List.mem_cons.1 hx with rfl | hx
        · exact ha
        · cases hp : p x with
          | false => rfl
          | true => exact absurd (h x hx hp) (by simp)

end Front

/-! ## Live records and the whole log -/

section Log

variable {K T : Type} [AddCommGroup T] [LinearOrder T]

/-- The key was recorded in the window of length `w` that ends at `t`. -/
def Recent (w : T) (log : Set (K × T)) (k : K) (t : T) : Prop := ∃ s, (k, s) ∈ log ∧ ¬Expired w t s

/-- The live records are recorded ones, and every recorded one that is not expired at `t` is live. -/
structure Tracks (w t : T) (log live : Set (K × T)) : Prop where
  sound : live ⊆ log
  complete : ∀ {k s}, (k, s) ∈ log → ¬Expired w t s → (k, s) ∈ live

variable {w t t' : T} {log live live' : Set (K × T)}

theorem Tracks.empty : Tracks w t (∅ : Set (K × T)) ∅ := ⟨subset_rfl, fun h _ => h⟩

theorem Tracks.later [IsOrderedAddMonoid T] (h : Tracks w t log live) (ht : t ≤ t') : Tracks w t' log live :=
  ⟨h.sound, fun hl he => h.complete hl fun h' => he (h'.mono ht)⟩

/-- Forgetting only what is expired. -/
theorem Tracks.forget (h : Tracks w t log live) (hs : live' ⊆ live)
    (hk : ∀ {k s}, (k, s) ∈ live → ¬Expired w t s → (k, s) ∈ live') : Tracks w t log live' :=
  ⟨hs.trans h.sound, fun hl he => hk (h.complete hl he) he⟩

theorem Tracks.record (h : Tracks w t log live) (x : K × T) : Tracks w t (insert x log) (insert x live) where
  sound := Set.insert_subset_insert h.sound
  complete := by
    rintro k s (rfl | hl) he
    · exact Set.mem_insert _ _
    · exact Set.mem_insert_of_mem _ (h.complete hl he)

/-- Where no live record is expired, the live keys are the recent ones. -/
theorem Tracks.recent_iff (h : Tracks w t log live) (hx : ∀ {k s}, (k, s) ∈ live → ¬Expired w t s) {k : K} :
    (∃ s, (k, s) ∈ live) ↔ Recent w log k t :=
  ⟨fun ⟨s, hs⟩ => ⟨s, h.sound hs, hx hs⟩, fun ⟨s, hs, he⟩ => ⟨s, h.complete hs he⟩⟩

end Log

end Aging
