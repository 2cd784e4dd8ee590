import DhsTranslator.Stream
import DhsTranslator.Text.Numeral

/-!
# Literals and what the extractions make of them

`DenotesInt` and `DenotesBool` say which texts are literals, up to white space around them. The extractions of
`Stream.lean` look at the front of a text only:

- `extractSigned_leads`, `extractUnsigned_leads`: after white space, the numeral at the front decides, whatever follows
  it, and `extractSigned_none`, `extractUnsigned_none`: without one they fail;
- `denotesInt_iff`: a text is a literal for the numeral at its front iff only white space follows;
- `extractBool_denotes`: the words are read as what they denote.
-/

namespace DhsTranslator

open IStream Text

/-! ## Literals -/

/-- White space only. -/
def Blank (s : List Char) : Prop := ∀ c ∈ s, isSpace c = true

instance (s : List Char) : Decidable (Blank s) := inferInstanceAs (Decidable (∀ c ∈ s, isSpace c = true))

/-- The text is an integer literal for `n`, up to white space around it. -/
def DenotesInt (s : List Char) (n : Int) : Prop :=
  ∃ before m after, Blank before ∧ Blank after ∧ s = before ++ Numeral.chars m ++ after ∧ m.value = n

/-- The words of `boolalpha`. -/
def boolWord : Bool → String
  | true => "true"
  | false => "false"

/-- The text is the word for `b`, up to white space around it. -/
def DenotesBool (s : List Char) (b : Bool) : Prop :=
  ∃ before after, Blank before ∧ Blank after ∧ s = before ++ (boolWord b).toList ++ after

/-! ## White space -/

/-- White space in front of a text that starts with none is skipped. -/
theorem skipws_append {before s : List Char} (hb : Blank before) (hs : ∀ c ∈ s.head?, isSpace c = false) :
    skipws (before ++ s) = s := by
  unfold skipws
  rw [List.dropWhile_append_of_pos hb]
  cases s with
  | nil => rfl
  | cons c cs => rw [List.dropWhile_cons_of_neg (by simpa using hs c rfl)]

/-- A text is white space and the rest. -/
theorem blank_skipws (s : List Char) : ∃ before, Blank before ∧ s = before ++ skipws s :=
  ⟨s.takeWhile isSpace, fun _ hc => List.mem_takeWhile_imp hc, List.takeWhile_append_dropWhile.symm⟩

/-- Digits and signs are no white space. -/
theorem isSpace_front {c : Char} (h : c = '-' ∨ c = '+' ∨ c.isDigit = true) : isSpace c = false := by
  rcases h with rfl | rfl | h
  · rfl
  · rfl
  · cases hs : isSpace c with
    | false => rfl
    | true =>
      simp only [isSpace, Bool.or_eq_true, beq_iff_eq] at hs
      rcases hs with ((((rfl | rfl) | rfl) | rfl) | rfl) | rfl <;> exact absurd h (by decide)

/-- White space starts with no digit. -/
theorem Blank.stop {s : List Char} (h : Blank s) : ∀ c ∈ s.head?, c.isDigit = false := by
  intro c hc
  cases hd : c.isDigit with
  | false => rfl
  | true =>
    have hspace := h c (List.mem_of_mem_head? hc)
    rw [isSpace_front (Or.inr (Or.inr hd))] at hspace
    cases hspace

theorem skipws_chars {before rest : List Char} (hb : Blank before) (m : Numeral) :
    skipws (before ++ m.chars ++ rest) = m.chars ++ rest := by
  rw [List.append_assoc]
  obtain ⟨c, cs, hm, hc⟩ := m.head_chars
  refine skipws_append hb fun d hd => ?_
  rw [hm] at hd
  obtain rfl : c = d := by simpa using hd
  exact isSpace_front hc

/-! ## Integers -/

variable {s rest : List Char} {m : Numeral}

/-- A literal starts with its numeral. -/
theorem DenotesInt.leads {n : Int} (h : DenotesInt s n) : ∃ m rest, Leads m (skipws s) rest ∧ Blank rest ∧ m.value = n := by
  obtain ⟨before, m, after, hb, ha, rfl, hn⟩ := h
  exact ⟨m, after, ⟨skipws_chars hb m, ha.stop⟩, ha, hn⟩

/-- A text with a numeral and white space is a literal. -/
theorem denotesInt_of_leads (h : Leads m (skipws s) rest) (hrest : Blank rest) : DenotesInt s m.value := by
  obtain ⟨before, hb, hs⟩ := blank_skipws s
  refine ⟨before, m, rest, hb, hrest, ?_, rfl⟩
  rw [h.eq] at hs
  rw [hs, List.append_assoc]

/-- **Which literal a text is** is decided by the numeral at its front. -/
theorem denotesInt_iff (h : Leads m (skipws s) rest) {n : Int} : DenotesInt s n ↔ Blank rest ∧ m.value = n := by
  constructor
  · intro hd
    obtain ⟨m', rest', h', hrest, hn⟩ := hd.leads
    obtain ⟨rfl, rfl⟩ := h.unique h'
    exact ⟨hrest, hn⟩
  · rintro ⟨hrest, rfl⟩
    exact denotesInt_of_leads h hrest

/-- The canonical text of an integer. -/
theorem leads_toString (n : Int) : Leads (Numeral.ofInt n) (skipws (toString n).toList) [] := by
  refine ⟨?_, by simp⟩
  have h : skipws ([] ++ (Numeral.ofInt n).chars ++ []) = _ := skipws_chars (by simp [Blank]) (Numeral.ofInt n)
  rw [chars_ofInt] at h
  rw [chars_ofInt]
  simpa using h

theorem takeNumeral_eq (s : List Char) :
    takeNumeral s = (decide ((takeSign s).1 = .minus), (takeSign s).2.takeWhile Char.isDigit) := by
  unfold takeNumeral
  split
  · rfl
  · rfl
  · rename_i hminus hplus
    have hsign : takeSign s = (.none, s) := by
      unfold takeSign
      split
      · rename_i t; exact (hminus t rfl).elim
      · rename_i t; exact (hplus t rfl).elim
      · rfl
    rw [hsign]
    rfl

theorem digitsVal_eq (ds : List Char) : digitsVal ds = Nat.ofDigitChars 10 ds 0 := Nat.ofDigitChars_eq_foldl.symm

theorem takeNumeral_leads (h : Leads m s rest) : takeNumeral s = (decide (m.sign = .minus), m.digits) := by
  rw [takeNumeral_eq, h.digits, h.takeSign]

theorem takeNumeral_none (h : ¬∃ m rest, Leads m s rest) : (takeNumeral s).2 = [] := by
  rw [takeNumeral_eq]
  by_contra hne
  exact h (exists_leads hne)

/-- **Signed extraction**: the number at the front, if it is in range. -/
theorem extractSigned_leads (h : Leads m (skipws s) rest) (lo hi : Int) :
    extractSigned lo hi s = if lo ≤ m.value ∧ m.value ≤ hi then some m.value else none := by
  have hval : (if decide (m.sign = .minus) = true then -(digitsVal m.digits : Int) else digitsVal m.digits) = m.value := by
    simp only [digitsVal_eq, decide_eq_true_eq]
    rfl
  unfold extractSigned
  rw [takeNumeral_leads h]
  simp only [hval, if_neg m.nonempty]

theorem extractSigned_none (h : ¬∃ m rest, Leads m (skipws s) rest) (lo hi : Int) : extractSigned lo hi s = none :=
  if_pos (takeNumeral_none h)

/-- **Unsigned extraction**: the magnitude at the front, if it fits; a minus sign wraps it around. -/
theorem extractUnsigned_leads (h : Leads m (skipws s) rest) (w : Nat) :
    extractUnsigned w s = if m.magnitude < 2 ^ w then
      some (if m.sign = .minus then (2 ^ w - m.magnitude) % 2 ^ w else m.magnitude) else none := by
  have hval : digitsVal m.digits = m.magnitude := digitsVal_eq m.digits
  unfold extractUnsigned
  rw [takeNumeral_leads h]
  simp only [hval, if_neg m.nonempty, decide_eq_true_eq]

theorem extractUnsigned_none (h : ¬∃ m rest, Leads m (skipws s) rest) (w : Nat) : extractUnsigned w s = none :=
  if_pos (takeNumeral_none h)

/-! ## Booleans -/

theorem extractBool_denotes {b : Bool} (h : DenotesBool s b) : extractBool s = some b := by
  obtain ⟨before, after, hb, _, rfl⟩ := h
  have hstart : ∀ c ∈ ((boolWord b).toList ++ after).head?, isSpace c = false := by
    cases b <;> rintro c ⟨⟩ <;> rfl
  unfold extractBool
  rw [List.append_assoc, skipws_append hb hstart]
  cases b with
  | true => exact if_pos (List.prefix_append _ _)
  | false =>
    have hnot : ¬"true".toList <+: (boolWord false).toList ++ after := by
      rintro ⟨rest, hrest⟩
      cases hrest
    exact (if_neg hnot).trans (if_pos (List.prefix_append _ _))

end DhsTranslator
