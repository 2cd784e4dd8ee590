import DhsTranslator.Literals
import DhsTranslator.Service.NullSafety

/-!
# Values of keyword items

What the decoder makes of the value text of an item, for the integer types (`IntType`) and for `BOOLEAN`.

- `itemKeyword_int`, `itemKeyword_bool`: the keyword of an item, by what the extraction for its type gives;
- `integers_survive_iff`: the written form of an integer is read back, except for the two types of one byte, which are
  read as a character;
- `integers_only_iff`: integer values are integers of the type unless the text is `Misread`, when something follows the
  numeral at its front or an unsigned number has a minus sign; `fraction_truncated` is such a text;
- `booleans_only_iff`: every text is taken for a boolean, so only the two words are treated right.
-/

namespace DhsTranslator

open Conc DhsService IStream Text

/-! ## Integer types -/

/-- The integer types of keywords. -/
inductive IntType where
  | INT8
  | INT16
  | INT32
  | UINT8
  | UINT16
  | UINT32
  deriving DecidableEq, Repr

namespace IntType

def dataType : IntType → DhsDataType
  | INT8 => .INT8
  | INT16 => .INT16
  | INT32 => .INT32
  | UINT8 => .UINT8
  | UINT16 => .UINT16
  | UINT32 => .UINT32

/-- Its name in a request. -/
def name : IntType → String
  | INT8 => "INT8"
  | INT16 => "INT16"
  | INT32 => "INT32"
  | UINT8 => "UINT8"
  | UINT16 => "UINT16"
  | UINT32 => "UINT32"

def signed : IntType → Bool
  | INT8 | INT16 | INT32 => true
  | UINT8 | UINT16 | UINT32 => false

def bits : IntType → Nat
  | INT8 | UINT8 => 8
  | INT16 | UINT16 => 16
  | INT32 | UINT32 => 32

def lo (ty : IntType) : Int := if ty.signed then -2 ^ (ty.bits - 1) else 0

def hi (ty : IntType) : Int := if ty.signed then 2 ^ (ty.bits - 1) - 1 else 2 ^ ty.bits - 1

/-- The type has the number. -/
def InRange (ty : IntType) (n : Int) : Prop := ty.lo ≤ n ∧ n ≤ ty.hi

instance (ty : IntType) (n : Int) : Decidable (ty.InRange n) := inferInstanceAs (Decidable (_ ∧ _))

/-- The type is wider than a character. -/
def Wide (ty : IntType) : Prop := 8 < ty.bits

instance (ty : IntType) : Decidable ty.Wide := inferInstanceAs (Decidable (_ < _))

/-- The extraction to the type. -/
def extract (ty : IntType) (s : List Char) : Option Int :=
  match ty with
  | INT8 => (extractChar s).map fun b => (Int8.ofInt b.toNat).toInt
  | INT16 => extractSigned (-2 ^ 15) (2 ^ 15 - 1) s
  | INT32 => extractSigned (-2 ^ 31) (2 ^ 31 - 1) s
  | UINT8 => (extractChar s).map fun b => (b.toNat : Int)
  | UINT16 => (extractUnsigned 16 s).map Nat.cast
  | UINT32 => (extractUnsigned 32 s).map Nat.cast

/-- The keyword of the type that holds the number. -/
def keyword (ty : IntType) (name : String) (n : Int) : Keyword :=
  match ty with
  | INT8 => Keyword.of name (Int8.ofInt n)
  | INT16 => Keyword.of name (Int16.ofInt n)
  | INT32 => Keyword.of name (Int32.ofInt n)
  | UINT8 => Keyword.of name (UInt8.ofNat n.toNat)
  | UINT16 => Keyword.of name (UInt16.ofNat n.toNat)
  | UINT32 => Keyword.of name (UInt32.ofNat n.toNat)

/-- What the getter of the type returns, as a number. -/
def get (ty : IntType) (k : Keyword) : Except Abort Int :=
  match ty with
  | INT8 => Int8.toInt <$> k.getValue Int8
  | INT16 => Int16.toInt <$> k.getValue Int16
  | INT32 => Int32.toInt <$> k.getValue Int32
  | UINT8 => (fun v => (v.toNat : Int)) <$> k.getValue UInt8
  | UINT16 => (fun v => (v.toNat : Int)) <$> k.getValue UInt16
  | UINT32 => (fun v => (v.toNat : Int)) <$> k.getValue UInt32

theorem translateType_name (ty : IntType) : translateType (some ty.name) = some ty.dataType := by
  cases ty <;> rfl

@[simp] theorem keyword_type (ty : IntType) (name : String) (n : Int) : (ty.keyword name n).type = ty.dataType := by
  cases ty <;> rfl

/-- A number of the type is got back. -/
theorem get_keyword {ty : IntType} (name : String) {n : Int} (h : ty.InRange n) : ty.get (ty.keyword name n) = .ok n := by
  obtain ⟨hlo, hhi⟩ := h
  cases ty <;> simp only [lo, hi, signed, bits, if_true, Bool.false_eq_true, if_false] at hlo hhi <;>
    simp only [get, keyword, getValue_of, Functor.map, Except.map]
  · rw [Int8.toInt_ofInt_of_le (by omega) (by omega)]
  · rw [Int16.toInt_ofInt_of_le (by omega) (by omega)]
  · rw [Int32.toInt_ofInt_of_le (by omega) (by omega)]
  · rw [UInt8.toNat_ofNat_of_lt' (by simp only [UInt8.size]; omega), Int.toNat_of_nonneg hlo]
  · rw [UInt16.toNat_ofNat_of_lt' (by simp only [UInt16.size]; omega), Int.toNat_of_nonneg hlo]
  · rw [UInt32.toNat_ofNat_of_lt' (by simp only [UInt32.size]; omega), Int.toNat_of_nonneg hlo]

end IntType

/-- Reading a keyword of an integer type. -/
theorem readKeyword_int (env : Env) (ty : IntType) (name value : String) :
    readKeyword env ty.dataType name value = (ty.extract value.toList).map (ty.keyword name) := by
  cases ty with
  | INT8 =>
    simp only [readKeyword, IntType.dataType, IntType.extract, ReadText.readText, Option.map_map]
    congr 1; funext b
    show Keyword.of name (Int8.ofInt b.toNat) = Keyword.of name (Int8.ofInt (Int8.ofInt b.toNat).toInt)
    rw [Int8.ofInt_toInt]
  | INT16 => simp only [readKeyword, IntType.dataType, IntType.extract, ReadText.readText, Option.map_map]; rfl
  | INT32 => simp only [readKeyword, IntType.dataType, IntType.extract, ReadText.readText, Option.map_map]; rfl
  | UINT8 =>
    simp only [readKeyword, IntType.dataType, IntType.extract, ReadText.readText, Option.map_map]
    congr 1; funext b
    simp [IntType.keyword]
  | UINT16 => simp only [readKeyword, IntType.dataType, IntType.extract, ReadText.readText, Option.map_map]; rfl
  | UINT32 => simp only [readKeyword, IntType.dataType, IntType.extract, ReadText.readText, Option.map_map]; rfl

/-! ## Keyword items -/

/-- An item with these members. -/
structure KeywordItem (item : AxiomNode) (name type value : String) : Prop where
  isItem : item.IsNamed "item"
  name : item.namedText "name" = some name
  type : item.namedText "type" = some type
  value : item.namedText "value" = some value

section Items

variable {item : AxiomNode} {name type value : String}

/-- An item with members has children. -/
theorem KeywordItem.children_ne_nil (h : KeywordItem item name type value) : item.children ≠ [] :=
  h.isItem.children_ne_nil (by decide) h.name

/-- Its keyword, by its type. -/
theorem KeywordItem.itemKeyword_eq (env : Env) (h : KeywordItem item name type value) {t : DhsDataType}
    (ht : translateType (some type) = some t) : itemKeyword env item = readKeyword env t name value := by
  unfold itemKeyword
  rw [h.name, h.type, h.value, ht]
  rfl

theorem itemKeyword_int (env : Env) {ty : IntType} (h : KeywordItem item name ty.name value) :
    itemKeyword env item = (ty.extract value.toList).map (ty.keyword name) := by
  rw [h.itemKeyword_eq env ty.translateType_name, readKeyword_int]

theorem itemKeyword_bool (env : Env) (h : KeywordItem item name "BOOLEAN" value) : itemKeyword env item =
    some (Keyword.of name ((extractBool value.toList).getD (env.failedBool value))) := h.itemKeyword_eq env rfl

/-- The keyword reader, on the first child of an item with members. -/
theorem KeywordItem.parseVal_eq (env : Env) {p : NodePtr} (h : KeywordItem p.node name type value) :
    (parseVal env p.firstChild : Except Abort (Option Keyword)) = .ok (itemKeyword env p.node) := by
  rw [parseKeyword_firstChild]
  exact if_neg h.children_ne_nil

end Items

/-! ## What the extractions accept -/

namespace IntType

/-- The extraction to the type takes the numeral: a signed one if it is in range, an unsigned one by its magnitude. -/
def Accepts (ty : IntType) (m : Numeral) : Prop :=
  if ty.signed then ty.InRange m.value else (m.magnitude : Int) ≤ ty.hi

instance (ty : IntType) (m : Numeral) : Decidable (ty.Accepts m) := by unfold Accepts; infer_instance

/-- What it makes of it; unsigned numbers wrap around. -/
def stored (ty : IntType) (m : Numeral) : Int := if ty.signed then m.value else m.value % 2 ^ ty.bits

variable {ty : IntType} {s rest : List Char} {m : Numeral}

theorem extractUnsigned_stored (h : Leads m (skipws s) rest) (w : Nat) :
    (extractUnsigned w s).map (Nat.cast : Nat → Int) =
      if (m.magnitude : Int) ≤ 2 ^ w - 1 then some (m.value % 2 ^ w) else none := by
  rw [extractUnsigned_leads h]
  have hcast : (2 : Int) ^ w = ((2 ^ w : Nat) : Int) := by push_cast; rfl
  by_cases hlt : m.magnitude < 2 ^ w
  · have hle : (m.magnitude : Int) ≤ 2 ^ w - 1 := by rw [hcast]; omega
    rw [if_pos hlt, if_pos hle, hcast]
    by_cases hs : m.sign = .minus
    · rw [if_pos hs, Numeral.value_minus hs]
      refine congrArg some ?_
      show (((2 ^ w - m.magnitude) % 2 ^ w : Nat) : Int) = _
      rw [Int.natCast_emod, Int.ofNat_sub hlt.le, Int.sub_emod_left]
    · rw [if_neg hs, Numeral.value_nonneg hs]
      exact congrArg some (Int.emod_eq_of_lt (by omega) (by omega)).symm
  · have hle : ¬(m.magnitude : Int) ≤ 2 ^ w - 1 := by rw [hcast]; omega
    rw [if_neg hlt, if_neg hle]
    rfl

/-- **A numeral at the front** decides. -/
theorem extract_leads (hw : ty.Wide) (h : Leads m (skipws s) rest) :
    ty.extract s = if ty.Accepts m then some (ty.stored m) else none := by
  cases ty with
  | INT8 => exact absurd hw (by decide)
  | UINT8 => exact absurd hw (by decide)
  | INT16 => exact extractSigned_leads h _ _
  | INT32 => exact extractSigned_leads h _ _
  | UINT16 => exact extractUnsigned_stored h 16
  | UINT32 => exact extractUnsigned_stored h 32

/-- Without one the extraction fails. -/
theorem extract_none (hw : ty.Wide) (h : ¬∃ m rest, Leads m (skipws s) rest) : ty.extract s = none := by
  cases ty with
  | INT8 => exact absurd hw (by decide)
  | UINT8 => exact absurd hw (by decide)
  | INT16 => exact extractSigned_none h _ _
  | INT32 => exact extractSigned_none h _ _
  | UINT16 => exact congrArg (Option.map Nat.cast) (extractUnsigned_none h 16)
  | UINT32 => exact congrArg (Option.map Nat.cast) (extractUnsigned_none h 32)

/-- What is stored is a number of the type. -/
theorem stored_inRange (h : ty.Accepts m) : ty.InRange (ty.stored m) := by
  unfold Accepts at h
  unfold stored
  cases hs : ty.signed with
  | true =>
    rw [hs] at h
    exact h
  | false =>
    have hpos : (0 : Int) < 2 ^ ty.bits := Int.pow_pos (by decide)
    have hnonneg := Int.emod_nonneg m.value (ne_of_gt hpos)
    have hlt := Int.emod_lt_of_pos m.value hpos
    unfold InRange lo hi
    simp only [hs, Bool.false_eq_true, if_false]
    exact ⟨hnonneg, by omega⟩

/-- A number of the type is accepted, and stored as it is. -/
theorem InRange.accepted (h : ty.InRange m.value) : ty.Accepts m ∧ ty.stored m = m.value := by
  unfold Accepts stored
  cases hs : ty.signed with
  | true => exact ⟨h, rfl⟩
  | false =>
    obtain ⟨hlo, hhi⟩ := h
    unfold lo at hlo
    simp only [hs, Bool.false_eq_true, if_false] at hlo ⊢
    have hmag : (m.magnitude : Int) = m.value := by
      by_cases hminus : m.sign = .minus
      · have hval := Numeral.value_minus hminus
        omega
      · exact (Numeral.value_nonneg hminus).symm
    refine ⟨hmag ▸ hhi, Int.emod_eq_of_lt hlo ?_⟩
    unfold hi at hhi
    simp only [hs, Bool.false_eq_true, if_false] at hhi
    omega

/-- What is extracted is a number of the type. -/
theorem extract_inRange {v : Int} (h : ty.extract s = some v) : ty.InRange v := by
  by_cases hw : ty.Wide
  · by_cases hm : ∃ m rest, Leads m (skipws s) rest
    · obtain ⟨m, rest, hm⟩ := hm
      rw [extract_leads hw hm] at h
      split at h
      · rename_i hacc
        cases h
        exact stored_inRange hacc
      · cases h
    · rw [extract_none hw hm] at h
      cases h
  · cases ty with
    | INT8 =>
      obtain ⟨b, _, rfl⟩ := Option.map_eq_some_iff.1 h
      exact ⟨Int8.le_toInt _, Int.le_sub_one_of_lt (Int8.toInt_lt _)⟩
    | UINT8 =>
      obtain ⟨b, _, rfl⟩ := Option.map_eq_some_iff.1 h
      have hb := b.toNat_lt
      exact ⟨Int.natCast_nonneg _, Int.le_sub_one_of_lt (by exact_mod_cast hb)⟩
    | _ => exact absurd (by decide) hw

/-- The written form of a number of the type. -/
theorem extract_toString (hw : ty.Wide) {n : Int} (h : ty.InRange n) : ty.extract (toString n).toList = some n := by
  rw [← value_ofInt n] at h
  rw [extract_leads hw (leads_toString n), if_pos h.accepted.1, h.accepted.2, value_ofInt]

/-- A type of one byte reads the first character of the written form, which is the number's code once only. -/
theorem extract_char_iff (hw : ¬ty.Wide) {n : Int} (h : ty.InRange n) :
    ty.extract (toString n).toList = some n ↔ n = 53 := by
  have hunsigned : ∀ k < 256, UINT8.extract (Nat.toDigits 10 k) = some (k : Int) ↔ k = 53 := by decide +kernel
  have hsigned : ∀ k < 128, INT8.extract (Nat.toDigits 10 k) = some (k : Int) ↔ k = 53 := by decide +kernel
  obtain ⟨hlo, hhi⟩ := h
  rw [← chars_ofInt]
  cases ty with
  | INT8 =>
    have hlt : n ≤ 127 := hhi
    by_cases hn : 0 ≤ n
    · obtain ⟨k, rfl⟩ := Int.eq_ofNat_of_zero_le hn
      exact (hsigned k (by omega)).trans (by omega)
    · have hchars : (Numeral.ofInt n).chars = '-' :: (Numeral.ofInt n).digits := by
        unfold Numeral.chars Numeral.ofInt
        rw [if_neg hn]
        rfl
      have hread : INT8.extract ('-' :: (Numeral.ofInt n).digits) = some 45 := rfl
      rw [hchars, hread, Option.some.injEq]
      omega
  | UINT8 =>
    have hge : 0 ≤ n := hlo
    have hlt : n ≤ 255 := hhi
    obtain ⟨k, rfl⟩ := Int.eq_ofNat_of_zero_le hge
    exact (hunsigned k (by omega)).trans (by omega)
  | _ => exact absurd (by decide) hw

end IntType

/-! ## Written integers -/

section Survive

variable {env : Env} {ty : IntType} {p : NodePtr} {name : String} {n : Int}

/-- The item is decoded to a keyword of the type, and its getter returns the number. -/
def Survives (env : Env) (ty : IntType) (p : NodePtr) (n : Int) : Prop :=
  ∃ k, (parseVal env p.firstChild : Except Abort (Option Keyword)) = .ok (some k) ∧ k.type = ty.dataType ∧
    ty.get k = .ok n

theorem survives_iff_extract (env : Env) (h : KeywordItem p.node name ty.name (toString n)) (hn : ty.InRange n) :
    Survives env ty p n ↔ ty.extract (toString n).toList = some n := by
  unfold Survives
  rw [h.parseVal_eq env, itemKeyword_int env h]
  constructor
  · rintro ⟨k, hk, _, hget⟩
    obtain ⟨v, hv, rfl⟩ := Option.map_eq_some_iff.1 (Except.ok.inj hk)
    rw [IntType.get_keyword name (IntType.extract_inRange hv)] at hget
    rw [hv, Except.ok.inj hget]
  · intro hext
    rw [hext]
    exact ⟨ty.keyword name n, rfl, ty.keyword_type name n, IntType.get_keyword name hn⟩

/-- **The written form of an integer** is read back, except for types of one byte and any number but the one that is
the code of its first digit. -/
theorem integers_survive_iff (env : Env) (hn : ty.InRange n) (h : KeywordItem p.node name ty.name (toString n)) :
    Survives env ty p n ↔ (ty ≠ .INT8 ∧ ty ≠ .UINT8) ∨ n = 53 := by
  have hwide : ty.Wide ↔ ty ≠ .INT8 ∧ ty ≠ .UINT8 := by cases ty <;> decide
  rw [survives_iff_extract env h hn, ← hwide]
  by_cases hw : ty.Wide
  · exact iff_of_true (IntType.extract_toString hw hn) (Or.inl hw)
  · rw [IntType.extract_char_iff hw hn]
    exact ⟨Or.inr, fun hor => hor.resolve_left hw⟩

end Survive

theorem keywordItem_item (k : KeywordText) : KeywordItem k.item k.name k.type k.value := ⟨rfl, rfl, rfl, rfl⟩

/-- The pointer to an item with these members. -/
def itemPtr (k : KeywordText) : NodePtr := .root k.item

theorem integers_survive_iff_negative : Survives plainEnv .INT32 (itemPtr ⟨"NAMPS", "INT32", toString (-7 : Int)⟩) (-7) ↔
    (IntType.INT32 ≠ .INT8 ∧ IntType.INT32 ≠ .UINT8) ∨ (-7 : Int) = 53 :=
  integers_survive_iff plainEnv (by decide) (keywordItem_item _)

/-- **A number of one byte** is lost: five is read as the code of its digit. -/
theorem digit_code_stored : ¬∀ (env : Env) (ty : IntType) (p : NodePtr) (name : String) (n : Int), ty.InRange n →
    KeywordItem p.node name ty.name (toString n) → Survives env ty p n := by
  intro hall
  have hrange : IntType.INT8.InRange 5 := by decide
  have hitem : KeywordItem (itemPtr ⟨"NAMPS", "INT8", toString (5 : Int)⟩).node "NAMPS" IntType.INT8.name
      (toString (5 : Int)) := keywordItem_item _
  have hext := (survives_iff_extract plainEnv hitem hrange).1 (hall plainEnv .INT8 _ "NAMPS" 5 hrange hitem)
  rw [← chars_ofInt] at hext
  exact absurd hext (by decide)

/-! ## Requests that are rejected -/

/-- In every world, the request is answered with `BAD_REQUEST` and the adapter is not called. -/
def Rejected (env : Env) (req : AxiomNode) : Prop :=
  ∀ w, Replies (serveIn env req w) (HasErrorType BAD_REQUEST) ∧ Withheld (serveIn env req w)

/-- No childless item is reached, and the id or the last array of keywords is missing. -/
structure Incomplete (env : Env) (req : AxiomNode) : Prop where
  noChildless : ∀ n ∈ req.named "keywords", ¬Aborts env n
  missing : req.ids.getLastD "" = "" ∨ ((req.named "keywords").map (keywordsReadable env)).getLastD false = false

section Rejection

variable {env : Env} {req n item : AxiomNode}

theorem Incomplete.rejected (hop : req.IsNamed "setKeywords") (h : Incomplete env req) : Rejected env req := by
  intro w
  refine ⟨(badRequest_iff hop h.noChildless w).2.2 h.missing, ?_⟩
  have hread := (keywordsRequest_cases env req).2 fun ⟨c, hc, hab⟩ => h.noChildless c hc hab
  obtain ⟨message, hserve⟩ := serve_rejected hop hread fun ⟨hid, hlast⟩ => by
    rcases h.missing with hmissing | hmissing
    · exact hid hmissing
    · exact Bool.noConfusion (hmissing.symm.trans hlast)
  unfold serveIn
  rw [hserve]
  exact fun a ha => absurd ha List.not_mem_nil

/-- **Which requests are rejected.** -/
theorem rejected_iff (hop : req.IsNamed "setKeywords") : Rejected env req ↔ Incomplete env req := by
  refine ⟨fun h => ?_, fun h => h.rejected hop⟩
  have hno : ∀ c ∈ req.named "keywords", ¬Aborts env c := by
    intro c hc hab
    obtain ⟨reply, hreply, _⟩ := (h (statusWorld .S_SUCCESS)).1
    cases hreply.symm.trans (result_aborted hop ⟨c, hc, hab⟩ (statusWorld .S_SUCCESS))
  exact ⟨hno, (badRequest_iff hop hno _).2.1 (h (statusWorld .S_SUCCESS)).1⟩

/-- An item that cannot be read makes its array unreadable. -/
theorem keywordsReadable_of_item (hitem : item ∈ n.items) (h : itemKeyword env item = none) :
    keywordsReadable env n = false := by
  unfold keywordsReadable
  rw [Bool.and_eq_false_iff]
  refine Or.inr ?_
  obtain ⟨hmem, _⟩ := List.mem_filter.1 hitem
  unfold allItems
  rw [List.all_eq_false]
  exact ⟨item, hmem, by simp [h]⟩

/-- And a request with this array only incomplete. -/
theorem incomplete_of_item (hsingle : req.named "keywords" = [n]) (hno : ¬Aborts env n) (hitem : item ∈ n.items)
    (h : itemKeyword env item = none) : Incomplete env req := by
  refine ⟨fun c hc => ?_, Or.inr ?_⟩
  · rw [hsingle] at hc
    rw [List.mem_singleton.1 hc]
    exact hno
  · rw [hsingle]
    exact keywordsReadable_of_item hitem h

end Rejection

/-! ## Integer values -/

namespace IntType

/-- The text is a literal for a number of the type. -/
def Literal (ty : IntType) (s : List Char) : Prop := ∃ n, DenotesInt s n ∧ ty.InRange n

/-- The text starts with a numeral that the extraction takes, but is no literal for a number of the type: something
other than white space follows, or an unsigned number has a minus sign. -/
def Misread (ty : IntType) (s : List Char) : Prop :=
  ∃ m rest, Leads m (skipws s) rest ∧ ty.Accepts m ∧ ¬(Blank rest ∧ ty.InRange m.value)

variable {ty : IntType} {s : List Char}

/-- What is extracted is what the text denotes, unless it is misread. -/
theorem extract_denotes_iff (hw : ty.Wide) : (∀ v, ty.extract s = some v → DenotesInt s v) ↔ ¬ty.Misread s := by
  constructor
  · rintro h ⟨m, rest, hm, hacc, hnot⟩
    have hv := h (ty.stored m) (by rw [extract_leads hw hm, if_pos hacc])
    obtain ⟨hrest, hval⟩ := (denotesInt_iff hm).1 hv
    exact hnot ⟨hrest, hval ▸ stored_inRange hacc⟩
  · intro h v hv
    by_cases hm : ∃ m rest, Leads m (skipws s) rest
    · obtain ⟨m, rest, hm⟩ := hm
      rw [extract_leads hw hm] at hv
      split at hv
      · rename_i hacc
        cases hv
        obtain ⟨hrest, hrange⟩ := not_not.1 fun hnot => h ⟨m, rest, hm, hacc, hnot⟩
        rw [hrange.accepted.2]
        exact denotesInt_of_leads hm hrest
      · cases hv
    · rw [extract_none hw hm] at hv
      cases hv

end IntType

/-- What is accepted for an integer of the type is one, and what is none is rejected. -/
structure IntegerOnly (env : Env) (ty : IntType) (req item : AxiomNode) (value : String) : Prop where
  accepted : ∀ k, itemKeyword env item = some k →
    ∃ n, DenotesInt value.toList n ∧ ty.InRange n ∧ k.type = ty.dataType ∧ ty.get k = .ok n
  rejected : ¬ty.Literal value.toList → Rejected env req

section Integers

variable {env : Env} {ty : IntType} {req item : AxiomNode} {name value : String}

/-- What is accepted is an integer of the type iff the text is not misread. -/
theorem accepted_iff (hw : ty.Wide) (h : KeywordItem item name ty.name value) :
    (∀ k, itemKeyword env item = some k →
      ∃ n, DenotesInt value.toList n ∧ ty.InRange n ∧ k.type = ty.dataType ∧ ty.get k = .ok n) ↔
    ¬ty.Misread value.toList := by
  rw [← IntType.extract_denotes_iff hw, itemKeyword_int env h]
  constructor
  · intro hall v hv
    obtain ⟨n, hden, _, _, hget⟩ := hall (ty.keyword name v) (by rw [hv]; rfl)
    rw [IntType.get_keyword name (IntType.extract_inRange hv)] at hget
    rw [Except.ok.inj hget]
    exact hden
  · intro hall k hk
    obtain ⟨v, hv, rfl⟩ := Option.map_eq_some_iff.1 hk
    have hrange := IntType.extract_inRange hv
    exact ⟨v, hall v hv, hrange, ty.keyword_type name v, IntType.get_keyword name hrange⟩

/-- A text that is neither a literal nor misread gives no keyword. -/
theorem itemKeyword_none (hw : ty.Wide) (h : KeywordItem item name ty.name value) (hnot : ¬ty.Misread value.toList)
    (hlit : ¬ty.Literal value.toList) : itemKeyword env item = none := by
  cases hk : itemKeyword env item with
  | none => rfl
  | some k =>
    obtain ⟨n, hden, hrange, _⟩ := (accepted_iff hw h).2 hnot k hk
    exact absurd ⟨n, hden, hrange⟩ hlit

/-- **Integer values**: they are integers of the type iff the text is not misread and, where it is no literal, the
request is incomplete; where the item is in the only array of keywords, it then is. -/
theorem integers_only_iff (hw : ty.Wide) (hop : req.IsNamed "setKeywords") (h : KeywordItem item name ty.name value) :
    (IntegerOnly env ty req item value ↔
      ¬ty.Misread value.toList ∧ (ty.Literal value.toList ∨ Incomplete env req)) ∧
    ∀ n, req.named "keywords" = [n] → item ∈ n.items → ¬Aborts env n →
      (IntegerOnly env ty req item value ↔ ¬ty.Misread value.toList) := by
  have hiff : IntegerOnly env ty req item value ↔
      ¬ty.Misread value.toList ∧ (ty.Literal value.toList ∨ Incomplete env req) := by
    constructor
    · rintro ⟨hacc, hrej⟩
      refine ⟨(accepted_iff hw h).1 hacc, ?_⟩
      by_cases hlit : ty.Literal value.toList
      · exact Or.inl hlit
      · exact Or.inr ((rejected_iff hop).1 (hrej hlit))
    · rintro ⟨hnot, hor⟩
      exact ⟨(accepted_iff hw h).2 hnot, fun hlit => (hor.resolve_left hlit).rejected hop⟩
  refine ⟨hiff, fun n hsingle hitem hno => hiff.trans ⟨And.left, fun hnot => ⟨hnot, ?_⟩⟩⟩
  by_cases hlit : ty.Literal value.toList
  · exact Or.inl hlit
  · exact Or.inr (incomplete_of_item hsingle hno hitem (itemKeyword_none hw h hnot hlit))

end Integers

/-- A request with one keyword item. -/
def itemRequest (k : KeywordText) : AxiomNode := setKeywordsRequest "GS1" false [k]

theorem named_itemRequest (k : KeywordText) :
    (itemRequest k).named "keywords" = [arrayField "keywords" "object" [k.item]] := rfl

theorem items_itemRequest (k : KeywordText) : (arrayField "keywords" "object" [k.item]).items = [k.item] := rfl

theorem integers_only_iff_negative :
    (IntegerOnly plainEnv .INT16 (itemRequest ⟨"NAMPS", "INT16", "-7"⟩) (KeywordText.item ⟨"NAMPS", "INT16", "-7"⟩) "-7" ↔
      ¬IntType.INT16.Misread "-7".toList ∧
        (IntType.INT16.Literal "-7".toList ∨ Incomplete plainEnv (itemRequest ⟨"NAMPS", "INT16", "-7"⟩))) ∧
    ∀ n, (itemRequest ⟨"NAMPS", "INT16", "-7"⟩).named "keywords" = [n] →
      KeywordText.item ⟨"NAMPS", "INT16", "-7"⟩ ∈ n.items → ¬Aborts plainEnv n →
      (IntegerOnly plainEnv .INT16 (itemRequest ⟨"NAMPS", "INT16", "-7"⟩) (KeywordText.item ⟨"NAMPS", "INT16", "-7"⟩) "-7" ↔
        ¬IntType.INT16.Misread "-7".toList) :=
  integers_only_iff (by decide) rfl (keywordItem_item ⟨"NAMPS", "INT16", "-7"⟩)

/-- The text of a fraction starts with its integer part. -/
theorem leads_fraction : Leads (Numeral.ofInt 3) (skipws "3.7".toList) ".7".toList := ⟨rfl, by simp⟩

/-- **A fraction** is accepted for an integer. -/
theorem fraction_truncated : ¬∀ (env : Env) (ty : IntType) (req n item : AxiomNode) (name value : String), ty.Wide →
    req.IsNamed "setKeywords" → n ∈ req.named "keywords" → item ∈ n.items → KeywordItem item name ty.name value →
    IntegerOnly env ty req item value := by
  intro hall
  have hitem := keywordItem_item ⟨"NAMPS", "INT32", "3.7"⟩
  obtain ⟨hacc, _⟩ := hall plainEnv .INT32 (itemRequest ⟨"NAMPS", "INT32", "3.7"⟩)
    (arrayField "keywords" "object" [KeywordText.item ⟨"NAMPS", "INT32", "3.7"⟩]) _ "NAMPS" "3.7" (by decide) rfl
    (named_itemRequest ⟨"NAMPS", "INT32", "3.7"⟩ ▸ List.mem_singleton_self _)
    (items_itemRequest ⟨"NAMPS", "INT32", "3.7"⟩ ▸ List.mem_singleton_self _) hitem
  refine (accepted_iff (by decide) hitem).1 hacc ⟨_, _, leads_fraction, by decide, ?_⟩
  intro ⟨hblank, _⟩
  exact absurd (hblank '.' List.mem_cons_self) (by decide)

/-! ## Boolean values -/

/-- What is accepted for a boolean is one and is carried as it is, and what is none is rejected. -/
structure BooleanOnly (env : Env) (item : AxiomNode) (value : String) : Prop where
  decoded : (∃ k, itemKeyword env item = some k) ↔ ∃ b, DenotesBool value.toList b
  carried : ∀ k, itemKeyword env item = some k → ∀ b, DenotesBool value.toList b → k.getValue Bool = .ok b
  rejected : (¬∃ b, DenotesBool value.toList b) → ∀ req n, req.IsNamed "setKeywords" → n ∈ req.named "keywords" →
    item ∈ n.items → Rejected env req

/-- **Boolean values**: every text is accepted, so the two words alone are treated right. -/
theorem booleans_only_iff (env : Env) {item : AxiomNode} {name value : String}
    (h : KeywordItem item name "BOOLEAN" value) : BooleanOnly env item value ↔ ∃ b, DenotesBool value.toList b := by
  have hread := itemKeyword_bool env h
  constructor
  · rintro ⟨hdec, _, _⟩
    exact hdec.1 ⟨_, hread⟩
  · rintro ⟨b, hb⟩
    refine ⟨iff_of_true ⟨_, hread⟩ ⟨b, hb⟩, ?_, fun hnot => absurd ⟨b, hb⟩ hnot⟩
    intro k hk b' hb'
    rw [hread, extractBool_denotes hb'] at hk
    rw [← Option.some.inj hk]
    exact getValue_of name b'

theorem booleans_only_iff_true : BooleanOnly plainEnv (KeywordText.item ⟨"PREIMAGE", "BOOLEAN", "true"⟩) "true" ↔
    ∃ b, DenotesBool "true".toList b := booleans_only_iff plainEnv (keywordItem_item ⟨"PREIMAGE", "BOOLEAN", "true"⟩)

/-- **Any text** is accepted for a boolean. -/
theorem no_boolean_accepted : ¬∀ (env : Env) (item : AxiomNode) (name value : String),
    KeywordItem item name "BOOLEAN" value → BooleanOnly env item value := by
  intro hall
  have hitem := keywordItem_item ⟨"PREIMAGE", "BOOLEAN", "yes"⟩
  obtain ⟨b, hb⟩ := (hall plainEnv _ _ _ hitem).decoded.1 ⟨_, itemKeyword_bool plainEnv hitem⟩
  have hextract := extractBool_denotes hb
  exact absurd hextract (by cases b <;> decide)

end DhsTranslator
