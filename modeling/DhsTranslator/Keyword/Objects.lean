import DhsTranslator.Keyword
import DhsTranslator.Memory.Cells

/-!
# Keyword objects in memory

The class `IDhsAdapter::Keyword` as its objects are laid out: the union is 8 bytes of storage, whose members start at
its first byte, and a string is in a cell of the heap. `long`, `unsigned long` and pointers have 32 bits.

- `Mem` holds the objects and the strings; `Mem.Op` are the constructors, the assignment and the destructor, `Mem.step`
  what they do to the memory. A string that an assignment overwrites is left in the heap;
- an operation is given the address at which `new` puts the string, and what is in the storage of a new object;
- `Obj.getValue` are the getters.

`none` stands for an access through a pointer to nothing.
-/

namespace DhsTranslator

open Memory

/-! ## Types -/

/-- The C++ type of the values of a type. -/
def DhsDataType.Value : DhsDataType → Type
  | .UINT8 => UInt8
  | .UINT16 => UInt16
  | .UINT32 => UInt32
  | .INT8 => Int8
  | .INT16 => Int16
  | .INT32 => Int32
  | .FLOAT => CFloat
  | .DOUBLE => CDouble
  | .STRING => String
  | .BOOLEAN => Bool

instance DhsDataType.keywordType : (ty : DhsDataType) → KeywordType ty.Value
  | .UINT8 => inferInstanceAs (KeywordType UInt8)
  | .UINT16 => inferInstanceAs (KeywordType UInt16)
  | .UINT32 => inferInstanceAs (KeywordType UInt32)
  | .INT8 => inferInstanceAs (KeywordType Int8)
  | .INT16 => inferInstanceAs (KeywordType Int16)
  | .INT32 => inferInstanceAs (KeywordType Int32)
  | .FLOAT => inferInstanceAs (KeywordType CFloat)
  | .DOUBLE => inferInstanceAs (KeywordType CDouble)
  | .STRING => inferInstanceAs (KeywordType String)
  | .BOOLEAN => inferInstanceAs (KeywordType Bool)

@[simp] theorem dataType_value (ty : DhsDataType) : KeywordType.dataType ty.Value = ty := by cases ty <;> rfl

instance (ty : DhsDataType) : LawfulKeywordType ty.Value := by
  cases ty
  · exact inferInstanceAs (LawfulKeywordType UInt8)
  · exact inferInstanceAs (LawfulKeywordType UInt16)
  · exact inferInstanceAs (LawfulKeywordType UInt32)
  · exact inferInstanceAs (LawfulKeywordType Int8)
  · exact inferInstanceAs (LawfulKeywordType Int16)
  · exact inferInstanceAs (LawfulKeywordType Int32)
  · exact inferInstanceAs (LawfulKeywordType CFloat)
  · exact inferInstanceAs (LawfulKeywordType CDouble)
  · exact inferInstanceAs (LawfulKeywordType String)
  · exact inferInstanceAs (LawfulKeywordType Bool)

/-! ## The union -/

/-- Addresses; 0 is `NULL`. -/
abbrev Addr := BitVec 32

/-- The strings in the heap. -/
abbrev Strings := Cells Addr String

/-- The storage of the union. -/
abbrev Storage := BitVec 64

/-- Write a member; a string goes to the heap, at the address that `new` returns. -/
def writeMember (raw : Storage) (strings : Strings) (addr : Addr) : KeywordValue → Storage × Strings
  | .boolVal b => (writeLow ((BitVec.ofBool b).setWidth 8) raw, strings)
  | .intVal w => (writeLow w raw, strings)
  | .floatVal f => (writeLow f.bits raw, strings)
  | .doubleVal d => (writeLow d.bits raw, strings)
  | .stringVal s => (writeLow addr raw, strings.new addr s)

/-- Read the member that belongs to a type. -/
def readMember (raw : Storage) (strings : Strings) : DhsDataType → Option KeywordValue
  | .UINT8 | .UINT16 | .UINT32 => some (.intVal (readLow 32 raw))
  | .INT8 | .INT16 | .INT32 => some (.intVal (readLow 32 raw))
  | .FLOAT => some (.floatVal ⟨readLow 32 raw⟩)
  | .DOUBLE => some (.doubleVal ⟨readLow 64 raw⟩)
  | .STRING => (strings (readLow 32 raw)).map .stringVal
  | .BOOLEAN => some (.boolVal (readLow 8 raw != 0))

/-! ## Objects -/

/-- A keyword object. -/
structure Obj where
  name : String
  type : DhsDataType
  value : Storage
  deriving DecidableEq, Repr

/-- The pointer in the union. -/
def Obj.stringVal (o : Obj) : Addr := readLow 32 o.value

/-- What a getter makes of the member of its type. -/
def loadMember (ty : DhsDataType) (v : KeywordValue) : Option ty.Value :=
  if h : v.holds (KeywordType.dataType ty.Value) = true then some (KeywordType.load v h) else none

/-- The getters. -/
def Obj.getValue (o : Obj) (strings : Strings) (ty : DhsDataType) : Option (Except Abort ty.Value) :=
  if o.type = ty then (readMember o.value strings ty).bind fun v => (loadMember ty v).map .ok
  else some (.error (.exception ("Attempt to retrieve " ++ KeywordType.typeName ty.Value ++
    " value from Keyword of type " ++ DhsUtil.translateType o.type)))

/-- The getter of a reference to the string. -/
def Obj.getStringRef (o : Obj) (strings : Strings) : Option (Except Abort String) :=
  if o.type = .STRING then (strings o.stringVal).map .ok
  else some (.error (.exception ("Attempt to retrieve string value from Keyword of type " ++
    DhsUtil.translateType o.type)))

/-! ## Operations -/

/-- The objects, by what identifies them, and the strings. -/
structure Mem (ι : Type) where
  objs : ι → Option Obj
  strings : Strings

inductive Mem.Op (ι : Type) where
  | default (x : ι) (raw : Storage)
  | construct (x : ι) (raw : Storage) (addr : Addr) (name : String) (ty : DhsDataType) (val : ty.Value)
  | copyConstruct (x : ι) (raw : Storage) (addr : Addr) (other : ι)
  | assign (x : ι) (addr : Addr) (other : ι)
  | destroy (x : ι)

section Operations

variable {ι : Type} [DecidableEq ι]

/-- An object and the strings after it. -/
def Mem.set (m : Mem ι) (x : ι) (o : Option Obj) (strings : Strings) : Mem ι := ⟨Function.update m.objs x o, strings⟩

@[simp] theorem Mem.set_self (m : Mem ι) (x : ι) (o : Option Obj) (strings : Strings) :
    (m.set x o strings).objs x = o := Function.update_self _ _ _

theorem Mem.set_of_ne (m : Mem ι) {x y : ι} (h : y ≠ x) (o : Option Obj) (strings : Strings) :
    (m.set x o strings).objs y = m.objs y := Function.update_of_ne h _ _

/-- `Keyword()`. -/
def Mem.default (m : Mem ι) (x : ι) (raw : Storage) : Mem ι :=
  let written := writeMember raw m.strings 0 (.intVal 0)
  m.set x (some ⟨"", .INT32, written.1⟩) written.2

/-- `Keyword(name, val)`. -/
def Mem.construct (m : Mem ι) (x : ι) (raw : Storage) (addr : Addr) (name : String) (ty : DhsDataType)
    (val : ty.Value) : Mem ι :=
  let written := writeMember raw m.strings addr (KeywordType.store val)
  m.set x (some ⟨name, ty, written.1⟩) written.2

/-- What the copy constructor and the assignment do: a string is copied to a new one, any other value with the whole
union. -/
def Mem.copyTo (m : Mem ι) (x : ι) (raw : Storage) (addr : Addr) (other : Obj) : Option (Mem ι) :=
  if other.type = .STRING then do
    let s ← m.strings other.stringVal
    return m.set x (some ⟨other.name, other.type, writeLow addr raw⟩) (m.strings.new addr s)
  else
    return m.set x (some ⟨other.name, other.type, other.value⟩) m.strings

/-- `Keyword(other)`. -/
def Mem.copyConstruct (m : Mem ι) (x : ι) (raw : Storage) (addr : Addr) (other : ι) : Option (Mem ι) := do
  m.copyTo x raw addr (← m.objs other)

/-- `operator=`. -/
def Mem.assign (m : Mem ι) (x : ι) (addr : Addr) (other : ι) : Option (Mem ι) := do
  m.copyTo x (← m.objs x).value addr (← m.objs other)

/-- `~Keyword()`. -/
def Mem.destroy (m : Mem ι) (x : ι) : Option (Mem ι) := do
  let o ← m.objs x
  if o.type = .STRING ∧ o.stringVal ≠ 0 then
    -- `delete value.stringVal`
    let _ ← m.strings o.stringVal
    return m.set x none (m.strings.delete o.stringVal)
  else
    return m.set x none m.strings

def Mem.step (m : Mem ι) : Op ι → Option (Mem ι)
  | .default x raw => some (m.default x raw)
  | .construct x raw addr name ty val => some (m.construct x raw addr name ty val)
  | .copyConstruct x raw addr other => m.copyConstruct x raw addr other
  | .assign x addr other => m.assign x addr other
  | .destroy x => m.destroy x

/-- `new` returns the address of no other string, and not `NULL`. -/
def Mem.Fresh (m : Mem ι) (addr : Addr) : Prop := m.strings addr = none ∧ addr ≠ 0

instance (m : Mem ι) (addr : Addr) : Decidable (m.Fresh addr) := inferInstanceAs (Decidable (_ ∧ _))

/-- The operation can be performed: an object is constructed where none is, and the others are there; where a string is
made, the address is one that `new` may return. -/
def Mem.Can (m : Mem ι) : Op ι → Prop
  | .default x _ => m.objs x = none
  | .construct x _ addr _ ty _ => m.objs x = none ∧ (ty = .STRING → m.Fresh addr)
  | .copyConstruct x _ addr other =>
    m.objs x = none ∧ ∃ o, m.objs other = some o ∧ (o.type = .STRING → m.Fresh addr)
  | .assign x addr other => m.objs x ≠ none ∧ ∃ o, m.objs other = some o ∧ (o.type = .STRING → m.Fresh addr)
  | .destroy x => m.objs x ≠ none

/-- No object, and no string. -/
def Mem.empty : Mem ι := ⟨fun _ => none, fun _ => none⟩

/-- The memories that the operations lead to. -/
inductive Mem.Reached : List (Op ι) → Mem ι → Prop
  | start : Reached [] .empty
  | step {ops : List (Op ι)} {m m' : Mem ι} {op : Op ι} (h : Reached ops m) (hcan : m.Can op)
      (hstep : m.step op = some m') : Reached (ops ++ [op]) m'

end Operations

end DhsTranslator
