import DhsTranslator.Axiom.Node
import Mathlib.Algebra.Group.Int.Defs
import Mathlib.Algebra.Group.Nat.Defs

/-!
# Keywords

The value types of the adapter interface. A `Keyword` is a tagged union; its tag always names the member that was
written last (`Keyword.tagged`), so no getter can read another member. `long` and `unsigned long` are 32 bits wide
and share their storage, so there is one member `intVal` for both.

- `Keyword.of` is the family of typed constructors, `Keyword.getValue` the family of typed getters;
- `getValue_isOk`: a getter throws iff its type is not the type of the keyword; `getValue_of`: the getter of its type
  returns the value it was made with.
-/

namespace DhsTranslator

/-! ## Types of the client library -/

/-- Image ids. -/
abbrev ImageId := String

/-- Results of the client library. -/
inductive DhsStatus where
  | S_SUCCESS
  | E_CTL_CMD
  | other (code : Int)
  deriving DecidableEq, Repr

inductive DhsBdLifetime where
  | PERMANENT
  | TEMPORARY
  | TRANSIENT
  deriving DecidableEq, Repr

inductive DhsDataType where
  | UINT8
  | UINT16
  | UINT32
  | INT8
  | INT16
  | INT32
  | FLOAT
  | DOUBLE
  | STRING
  | BOOLEAN
  deriving DecidableEq, Repr

/-- `DhsUtil::translateType`. -/
def DhsUtil.translateType : DhsDataType → String
  | .UINT8 => "DHS_DT_UINT8"
  | .UINT16 => "DHS_DT_UINT16"
  | .UINT32 => "DHS_DT_UINT32"
  | .INT8 => "DHS_DT_INT8"
  | .INT16 => "DHS_DT_INT16"
  | .INT32 => "DHS_DT_INT32"
  | .FLOAT => "DHS_DT_FLOAT"
  | .DOUBLE => "DHS_DT_DOUBLE"
  | .STRING => "DHS_DT_STRING"
  | .BOOLEAN => "DHS_DT_BOOLEAN"

/-- A `float`, by its bits. -/
structure CFloat where
  bits : BitVec 32
  deriving DecidableEq, Repr

/-- A `double`, by its bits. -/
structure CDouble where
  bits : BitVec 64
  deriving DecidableEq, Repr

/-! ## The union -/

/-- The union inside a keyword, by the member written last. -/
inductive KeywordValue where
  | boolVal (b : Bool)
  | intVal (w : BitVec 32)
  | floatVal (f : CFloat)
  | doubleVal (d : CDouble)
  | stringVal (s : String)
  deriving DecidableEq, Repr

/-- The member that belongs to a type was written last. -/
def KeywordValue.holds : KeywordValue → DhsDataType → Bool
  | .intVal _, .UINT8 | .intVal _, .UINT16 | .intVal _, .UINT32 => true
  | .intVal _, .INT8 | .intVal _, .INT16 | .intVal _, .INT32 => true
  | .floatVal _, .FLOAT => true
  | .doubleVal _, .DOUBLE => true
  | .stringVal _, .STRING => true
  | .boolVal _, .BOOLEAN => true
  | _, _ => false

/-- `IDhsAdapter::Keyword`. -/
structure Keyword where
  name : String
  type : DhsDataType
  value : KeywordValue
  tagged : value.holds type = true
  deriving DecidableEq, Repr

/-- A C++ type with a keyword constructor and a getter: its tag, how it is named in errors, and how it is written to
and read from the union. -/
class KeywordType (T : Type) where
  dataType : DhsDataType
  typeName : String
  store : T → KeywordValue
  store_holds (v : T) : (store v).holds dataType = true
  load (v : KeywordValue) : v.holds dataType = true → T

instance : KeywordType Int8 where
  dataType := .INT8
  typeName := "int8_t"
  store v := .intVal (BitVec.ofInt 32 v.toInt)
  store_holds _ := rfl
  load | .intVal w, _ => Int8.ofInt w.toInt

instance : KeywordType Int16 where
  dataType := .INT16
  typeName := "int16_t"
  store v := .intVal (BitVec.ofInt 32 v.toInt)
  store_holds _ := rfl
  load | .intVal w, _ => Int16.ofInt w.toInt

instance : KeywordType Int32 where
  dataType := .INT32
  typeName := "int32_t"
  store v := .intVal (BitVec.ofInt 32 v.toInt)
  store_holds _ := rfl
  load | .intVal w, _ => Int32.ofInt w.toInt

-- the unsigned constructors write the signed member, the unsigned getters read the unsigned one

instance : KeywordType UInt8 where
  dataType := .UINT8
  typeName := "uint8_t"
  store v := .intVal (BitVec.ofNat 32 v.toNat)
  store_holds _ := rfl
  load | .intVal w, _ => UInt8.ofNat w.toNat

instance : KeywordType UInt16 where
  dataType := .UINT16
  typeName := "uint16_t"
  store v := .intVal (BitVec.ofNat 32 v.toNat)
  store_holds _ := rfl
  load | .intVal w, _ => UInt16.ofNat w.toNat

instance : KeywordType UInt32 where
  dataType := .UINT32
  typeName := "uint32_t"
  store v := .intVal (BitVec.ofNat 32 v.toNat)
  store_holds _ := rfl
  load | .intVal w, _ => UInt32.ofNat w.toNat

instance : KeywordType CFloat where
  dataType := .FLOAT
  typeName := "float"
  store := .floatVal
  store_holds _ := rfl
  load | .floatVal f, _ => f

instance : KeywordType CDouble where
  dataType := .DOUBLE
  typeName := "double"
  store := .doubleVal
  store_holds _ := rfl
  load | .doubleVal d, _ => d

instance : KeywordType String where
  dataType := .STRING
  typeName := "string"
  store := .stringVal
  store_holds _ := rfl
  load | .stringVal s, _ => s

instance : KeywordType Bool where
  dataType := .BOOLEAN
  typeName := "boolean"
  store := .boolVal
  store_holds _ := rfl
  load | .boolVal b, _ => b

/-- The constructors `Keyword(name, val)`. -/
def Keyword.of {T : Type} [KeywordType T] (name : String) (val : T) : Keyword :=
  ⟨name, KeywordType.dataType T, KeywordType.store val, KeywordType.store_holds val⟩

/-- The getters `getValue<T>()`. -/
def Keyword.getValue (T : Type) [KeywordType T] (k : Keyword) : Except Abort T :=
  if h : k.type = KeywordType.dataType T then .ok (KeywordType.load k.value (h ▸ k.tagged))
  else .error (.exception ("Attempt to retrieve " ++ KeywordType.typeName T ++ " value from Keyword of type " ++
    DhsUtil.translateType k.type))

@[simp] theorem of_name {T : Type} [KeywordType T] (name : String) (val : T) : (Keyword.of name val).name = name := rfl

@[simp] theorem of_type {T : Type} [KeywordType T] (name : String) (val : T) :
    (Keyword.of name val).type = KeywordType.dataType T := rfl

/-- A getter returns iff its type is the type of the keyword. -/
theorem getValue_isOk {T : Type} [KeywordType T] {k : Keyword} :
    (∃ v, k.getValue T = .ok v) ↔ k.type = KeywordType.dataType T := by
  unfold Keyword.getValue
  split
  · rename_i h; exact ⟨fun _ => h, fun _ => ⟨_, rfl⟩⟩
  · rename_i h; exact ⟨fun ⟨_, hv⟩ => absurd hv nofun, fun h' => absurd h' h⟩

/-- Any other getter throws. -/
theorem getValue_throws {T : Type} [KeywordType T] {k : Keyword} (h : k.type ≠ KeywordType.dataType T) :
    ∃ what, k.getValue T = .error (.exception what) := by
  unfold Keyword.getValue
  rw [dif_neg h]
  exact ⟨_, rfl⟩

/-! ## What the union keeps -/

/-- What is read from the union is what was written. -/
class LawfulKeywordType (T : Type) [KeywordType T] : Prop where
  load_store (v : T) : KeywordType.load (KeywordType.store v) (KeywordType.store_holds v) = v

/-- A number that fits is read back as it was written, as a signed one. -/
theorem toInt_intVal {n : Int} (hlo : -2 ^ 31 ≤ n) (hhi : n < 2 ^ 31) : (BitVec.ofInt 32 n).toInt = n := by
  rw [BitVec.toInt_ofInt]
  exact Int.bmod_eq_of_le (by omega) (by omega)

/-- And as an unsigned one. -/
theorem toNat_intVal {n : Nat} (h : n < 2 ^ 32) : (BitVec.ofNat 32 n).toNat = n := by
  rw [BitVec.toNat_ofNat]
  exact Nat.mod_eq_of_lt h

instance : LawfulKeywordType Int8 where
  load_store v := by
    have hlo := v.le_toInt
    have hhi := v.toInt_lt
    show Int8.ofInt (BitVec.ofInt 32 v.toInt).toInt = v
    rw [toInt_intVal (by omega) (by omega), Int8.ofInt_toInt]

instance : LawfulKeywordType Int16 where
  load_store v := by
    have hlo := v.le_toInt
    have hhi := v.toInt_lt
    show Int16.ofInt (BitVec.ofInt 32 v.toInt).toInt = v
    rw [toInt_intVal (by omega) (by omega), Int16.ofInt_toInt]

instance : LawfulKeywordType Int32 where
  load_store v := by
    have hlo := v.le_toInt
    have hhi := v.toInt_lt
    show Int32.ofInt (BitVec.ofInt 32 v.toInt).toInt = v
    rw [toInt_intVal (by omega) (by omega), Int32.ofInt_toInt]

instance : LawfulKeywordType UInt8 where
  load_store v := by
    have h := v.toNat_lt
    show UInt8.ofNat (BitVec.ofNat 32 v.toNat).toNat = v
    rw [toNat_intVal (by omega), UInt8.ofNat_toNat]

instance : LawfulKeywordType UInt16 where
  load_store v := by
    have h := v.toNat_lt
    show UInt16.ofNat (BitVec.ofNat 32 v.toNat).toNat = v
    rw [toNat_intVal (by omega), UInt16.ofNat_toNat]

instance : LawfulKeywordType UInt32 where
  load_store v := by
    have h := v.toNat_lt
    show UInt32.ofNat (BitVec.ofNat 32 v.toNat).toNat = v
    rw [toNat_intVal (by omega), UInt32.ofNat_toNat]

instance : LawfulKeywordType CFloat := ⟨fun _ => rfl⟩

instance : LawfulKeywordType CDouble := ⟨fun _ => rfl⟩

instance : LawfulKeywordType String := ⟨fun _ => rfl⟩

instance : LawfulKeywordType Bool := ⟨fun _ => rfl⟩

/-- **The getter of its type** returns what a keyword was made with. -/
theorem getValue_of {T : Type} [KeywordType T] [LawfulKeywordType T] (name : String) (v : T) :
    (Keyword.of name v).getValue T = .ok v := by
  unfold Keyword.getValue
  rw [dif_pos (of_type name v)]
  exact congrArg Except.ok (LawfulKeywordType.load_store v)

end DhsTranslator
