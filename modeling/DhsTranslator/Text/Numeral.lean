import Mathlib.Data.List.TakeWhile

/-!
# Decimal numerals

A numeral is a sign, if any, and at least one digit. Texts are lists of characters.

- `Leads m s rest`: the text `s` starts with the numeral `m`, and no further digit follows it; a text starts with at
  most one numeral (`Leads.unique`), and with one iff a digit stands after its sign (`exists_leads`);
- `Numeral.ofInt`: the numeral an integer is written as; writing it down and reading it back gives the integer
  (`chars_ofInt`, `value_ofInt`).
-/

namespace Text

/-! ## Numerals -/

inductive Sign where
  | none
  | plus
  | minus
  deriving DecidableEq, Repr

def Sign.chars : Sign → List Char
  | .none => []
  | .plus => ['+']
  | .minus => ['-']

/-- The sign at the front of a text, and what follows it. -/
def takeSign : List Char → Sign × List Char
  | '-' :: s => (.minus, s)
  | '+' :: s => (.plus, s)
  | s => (.none, s)

/-- A decimal integer literal. -/
structure Numeral where
  sign : Sign
  digits : List Char
  nonempty : digits ≠ []
  decimal : ∀ c ∈ digits, c.isDigit = true

namespace Numeral

def chars (m : Numeral) : List Char := m.sign.chars ++ m.digits

def magnitude (m : Numeral) : Nat := Nat.ofDigitChars 10 m.digits 0

/-- The number it denotes. -/
def value (m : Numeral) : Int := if m.sign = .minus then -m.magnitude else m.magnitude

theorem ext_digits {m m' : Numeral} (hs : m.sign = m'.sign) (hd : m.digits = m'.digits) : m = m' := by
  cases m; cases m'
  cases hs; cases hd
  rfl

theorem value_nonneg {m : Numeral} (h : m.sign ≠ .minus) : m.value = m.magnitude := if_neg h

theorem value_minus {m : Numeral} (h : m.sign = .minus) : m.value = -m.magnitude := if_pos h

/-- A numeral starts with its sign or its first digit. -/
theorem head_chars (m : Numeral) : ∃ c cs, m.chars = c :: cs ∧ (c = '-' ∨ c = '+' ∨ c.isDigit = true) := by
  unfold chars
  cases hs : m.sign with
  | none =>
    obtain ⟨d, ds, hd⟩ := List.exists_cons_of_ne_nil m.nonempty
    exact ⟨d, ds, hd, Or.inr (Or.inr (m.decimal d (by rw [hd]; exact List.mem_cons_self)))⟩
  | plus => exact ⟨'+', m.digits, rfl, Or.inr (Or.inl rfl)⟩
  | minus => exact ⟨'-', m.digits, rfl, Or.inl rfl⟩

end Numeral

/-! ## Numerals at the front of a text -/

/-- The text starts with the numeral, and no digit follows it. -/
structure Leads (m : Numeral) (s rest : List Char) : Prop where
  eq : s = m.chars ++ rest
  stop : ∀ c ∈ rest.head?, c.isDigit = false

/-- A text that starts with a digit has no sign. -/
theorem takeSign_digit {d : Char} (hd : d.isDigit = true) (s : List Char) : takeSign (d :: s) = (.none, d :: s) := by
  unfold takeSign
  split
  · rename_i h; cases (List.cons.inj h).1; exact absurd hd (by decide)
  · rename_i h; cases (List.cons.inj h).1; exact absurd hd (by decide)
  · rfl

theorem takeSign_chars (s : List Char) : (takeSign s).1.chars ++ (takeSign s).2 = s := by
  unfold takeSign
  split <;> rfl

section Front

variable {ds rest : List Char}

theorem takeWhile_digits (hds : ∀ c ∈ ds, c.isDigit = true) (hrest : ∀ c ∈ rest.head?, c.isDigit = false) :
    (ds ++ rest).takeWhile Char.isDigit = ds := by
  rw [List.takeWhile_append_of_pos hds]
  cases rest with
  | nil => simp
  | cons c cs => rw [List.takeWhile_cons_of_neg (by simpa using hrest c rfl), List.append_nil]

end Front

variable {m m' : Numeral} {s rest rest' : List Char}

/-- What is left when the sign is taken. -/
theorem Leads.takeSign (h : Leads m s rest) : takeSign s = (m.sign, m.digits ++ rest) := by
  rw [h.eq]
  unfold Numeral.chars
  cases hs : m.sign with
  | none =>
    obtain ⟨d, ds, hd⟩ := List.exists_cons_of_ne_nil m.nonempty
    have hdigit := m.decimal d (by rw [hd]; exact List.mem_cons_self)
    rw [hd]
    exact takeSign_digit hdigit (ds ++ rest)
  | plus => rfl
  | minus => rfl

/-- The digits after the sign, up to the first character that is none. -/
theorem Leads.digits (h : Leads m s rest) : (Text.takeSign s).2.takeWhile Char.isDigit = m.digits := by
  rw [h.takeSign]
  exact takeWhile_digits m.decimal h.stop

/-- **One numeral**: what a text starts with is determined by the text. -/
theorem Leads.unique (h : Leads m s rest) (h' : Leads m' s rest') : m = m' ∧ rest = rest' := by
  have hsign := h.takeSign.symm.trans h'.takeSign
  obtain ⟨hs, happ⟩ := Prod.mk.inj hsign
  have hd : m.digits = m'.digits := h.digits.symm.trans h'.digits
  rw [hd] at happ
  exact ⟨Numeral.ext_digits hs hd, List.append_cancel_left happ⟩

/-- A text with a digit after its sign starts with a numeral. -/
theorem exists_leads (h : (takeSign s).2.takeWhile Char.isDigit ≠ []) : ∃ m rest, Leads m s rest := by
  have hdec : ∀ c ∈ (takeSign s).2.takeWhile Char.isDigit, c.isDigit = true :=
    fun _ hc => List.mem_takeWhile_imp hc
  refine ⟨⟨(takeSign s).1, _, h, hdec⟩, (takeSign s).2.dropWhile Char.isDigit, ?_, ?_⟩
  · unfold Numeral.chars
    rw [List.append_assoc, List.takeWhile_append_dropWhile, takeSign_chars]
  · intro c hc
    have hnot := List.head?_dropWhile_not Char.isDigit (takeSign s).2
    rw [Option.mem_def] at hc
    rw [hc] at hnot
    exact hnot

/-! ## Written integers -/

/-- The numeral an integer is written as. -/
def Numeral.ofInt (n : Int) : Numeral where
  sign := if 0 ≤ n then .none else .minus
  digits := Nat.toDigits 10 n.natAbs
  nonempty := Nat.toDigits_ne_nil
  decimal _ hc := Nat.isDigit_of_mem_toDigits (by decide) (by decide) hc

@[simp] theorem magnitude_ofInt (n : Int) : (Numeral.ofInt n).magnitude = n.natAbs := Nat.ofDigitChars_ten_toDigits

/-- **Reading back**: the number is the one written. -/
theorem value_ofInt (n : Int) : (Numeral.ofInt n).value = n := by
  by_cases h : 0 ≤ n
  · have hs : (Numeral.ofInt n).sign = .none := if_pos h
    rw [Numeral.value_nonneg (by rw [hs]; decide), magnitude_ofInt]
    omega
  · have hs : (Numeral.ofInt n).sign = .minus := if_neg h
    rw [Numeral.value_minus hs, magnitude_ofInt]
    omega

theorem chars_ofInt (n : Int) : (Numeral.ofInt n).chars = (toString n).toList := by
  show (if 0 ≤ n then Sign.none else Sign.minus).chars ++ Nat.toDigits 10 n.natAbs = _
  rw [Int.toString_eq_repr, Int.repr_eq_if]
  by_cases h : 0 ≤ n
  · have habs : n.natAbs = n.toNat := by omega
    rw [if_pos h, if_pos h, Nat.toList_repr, habs]
    rfl
  · have habs : n.natAbs = (-n).toNat := by omega
    rw [if_neg h, if_neg h, String.toList_append, Nat.toList_repr, habs]
    rfl

end Text
