import DhsTranslator.Text.Numeral
import Mathlib.Algebra.Group.Nat.Defs

/-!
# Fields of digits

Decimal numbers written one after another, some with zeros in front up to a width.

- `ofDigitChars_padded`: reading a padded number back; `length_padded`: its width;
- `padded_append_inj`, `digits_append_inj`: where a field ends is known from its width, or from a character after it
  that is no digit;
- `digitsAt`: a number read from given positions; `digitsAt_padded`: a field of that width is read at the front,
  `digitsAt_cons`, `digitsAt_append`: what stands before a position is skipped.
-/

namespace Text

/-- A number with zeros in front, at least `w` characters long. -/
def padded (w n : Nat) : List Char := (Nat.toDigits 10 n).leftpad w '0'

variable {w m n : Nat} {s t : List Char}

/-- **Reading back**: zeros in front change nothing. -/
@[simp] theorem ofDigitChars_padded (w n : Nat) : Nat.ofDigitChars 10 (padded w n) 0 = n := by
  rw [padded, List.leftpad, Nat.ofDigitChars_append, Nat.ofDigitChars_replicate_zero, Nat.mul_zero,
    Nat.ofDigitChars_ten_toDigits]

/-- A number that fits is as long as its field is wide. -/
theorem length_padded (hw : 0 < w) (h : n < 10 ^ w) : (padded w n).length = w := by
  have hle : (Nat.toDigits 10 n).length ≤ w := (Nat.length_toDigits_le_iff (by decide) hw).2 h
  rw [padded, List.length_leftpad]
  omega

/-- **Fields of fixed width** are told apart. -/
theorem padded_append_inj (hw : 0 < w) (hm : m < 10 ^ w) (hn : n < 10 ^ w)
    (h : padded w m ++ s = padded w n ++ t) : m = n ∧ s = t := by
  obtain ⟨hfield, hrest⟩ := List.append_inj h ((length_padded hw hm).trans (length_padded hw hn).symm)
  have hread := congrArg (fun ds => Nat.ofDigitChars 10 ds 0) hfield
  simp only [ofDigitChars_padded] at hread
  exact ⟨hread, hrest⟩

theorem isDigit_of_mem_toDigits {c : Char} (hc : c ∈ Nat.toDigits 10 n) : c.isDigit = true :=
  Nat.isDigit_of_mem_toDigits (by decide) (by decide) hc

/-- **Fields of any width** are told apart by what follows them. -/
theorem digits_append_inj (hs : ∀ c ∈ s.head?, c.isDigit = false) (ht : ∀ c ∈ t.head?, c.isDigit = false)
    (h : Nat.toDigits 10 m ++ s = Nat.toDigits 10 n ++ t) : m = n ∧ s = t := by
  have hdigits : Nat.toDigits 10 m = Nat.toDigits 10 n := by
    rw [← takeWhile_digits (fun _ => isDigit_of_mem_toDigits) hs, h, takeWhile_digits (fun _ => isDigit_of_mem_toDigits) ht]
  have hread := congrArg (fun ds => Nat.ofDigitChars 10 ds 0) hdigits
  simp only [Nat.ofDigitChars_ten_toDigits] at hread
  subst hread
  exact ⟨rfl, List.append_cancel_left h⟩

/-! ## Fields at given positions -/

/-- The number in `len` digits from the position on. -/
def digitsAt (s : List Char) (pos len : Nat) : Option Nat :=
  let field := (s.drop pos).take len
  if field.length = len ∧ field.all Char.isDigit = true then some (Nat.ofDigitChars 10 field 0) else none

theorem isDigit_of_mem_padded {c : Char} (hc : c ∈ padded w n) : c.isDigit = true := by
  rw [padded, List.leftpad] at hc
  rcases List.mem_append.1 hc with hzero | hdigit
  · rw [List.eq_of_mem_replicate hzero]
    rfl
  · exact isDigit_of_mem_toDigits hdigit

@[simp] theorem digitsAt_cons (c : Char) (s : List Char) (pos len : Nat) :
    digitsAt (c :: s) (pos + 1) len = digitsAt s pos len := rfl

/-- A field is skipped by its width. -/
theorem digitsAt_append (h : s.length = w) (t : List Char) (pos len : Nat) :
    digitsAt (s ++ t) (pos + w) len = digitsAt t pos len := by
  unfold digitsAt
  rw [← h, Nat.add_comm, List.drop_length_add_append]

/-- **A field of the width** is read from where it starts. -/
theorem digitsAt_padded (hw : 0 < w) (h : n < 10 ^ w) : digitsAt (padded w n ++ t) 0 w = some n := by
  have hfield : ((padded w n ++ t).drop 0).take w = padded w n := by
    rw [List.drop_zero, List.take_left' (length_padded hw h)]
  unfold digitsAt
  simp only [hfield]
  rw [if_pos ⟨length_padded hw h, List.all_eq_true.2 fun c hc => isDigit_of_mem_padded hc⟩, ofDigitChars_padded]

/-- A number with all its digits needs no zeros. -/
theorem padded_eq_toDigits (hlo : 10 ^ w ≤ n) : padded (w + 1) n = Nat.toDigits 10 n := by
  have hlen : w < (Nat.toDigits 10 n).length := by
    rcases Nat.eq_zero_or_pos w with rfl | hw
    · exact Nat.length_toDigits_pos
    · apply Nat.lt_of_not_le
      intro hle
      have := (Nat.length_toDigits_le_iff (by decide) hw).1 hle
      omega
  rw [padded, List.leftpad, Nat.sub_eq_zero_of_le hlen]
  rfl

end Text
