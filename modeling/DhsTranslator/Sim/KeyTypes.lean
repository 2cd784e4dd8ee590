import Mathlib.Data.List.AList
import DhsTranslator.Keyword

/-!
# Keyword types of the simulated adapter

`DhsAdapterSim::setImageKeywords` checks the type of each keyword against a static table of names, which all simulated
adapters share; the first constructor fills it.

- `Checking` is what the adapter does with the table: an exception leaves the table as it is by then;
- `checkKeyword_exec`: one turn of the loop does not change the table, and an error stays;
- `keyword_types_checked`: after any calls, the status tells whether all keywords of the call have the expected type.

Log messages are left out.
-/

namespace DhsTranslator

/-- `std::map<std::string, DHS_DATA_TYPE>`. -/
abbrev KeyTypes := AList fun _ : String => DhsDataType

/-- Computations on the table that may throw. -/
abbrev Checking := ExceptT Abort (StateM KeyTypes)

namespace Checking

variable {α β : Type}

/-- The result and the table after it. -/
def exec (x : Checking α) (keyTypes : KeyTypes) : Except Abort α × KeyTypes := x.run.run keyTypes

@[simp] theorem exec_pure (a : α) (keyTypes : KeyTypes) : exec (pure a) keyTypes = (.ok a, keyTypes) := rfl

@[simp] theorem exec_get (keyTypes : KeyTypes) : exec get keyTypes = (.ok keyTypes, keyTypes) := rfl

/-- Without touching the table. -/
@[simp] theorem exec_lift (x : Except Abort α) (keyTypes : KeyTypes) :
    exec (ExceptT.mk (pure x)) keyTypes = (x, keyTypes) := rfl

/-- After a result. -/
theorem exec_bind {x : Checking α} {keyTypes keyTypes' : KeyTypes} {a : α} (h : x.exec keyTypes = (.ok a, keyTypes'))
    (f : α → Checking β) : (x >>= f).exec keyTypes = (f a).exec keyTypes' := by
  have hbind : (x >>= f).exec keyTypes = (ExceptT.bindCont f (x.exec keyTypes).1).run (x.exec keyTypes).2 := rfl
  rw [hbind, h]
  rfl

end Checking

namespace DhsAdapterSim

open Checking

/-! ## The operations -/

/-- The constructor, as far as the table is concerned. -/
def initKeyTypes (keyTypes : KeyTypes) : KeyTypes :=
  if keyTypes.keys.isEmpty then
    ((keyTypes.insert "RA" .DOUBLE).insert "PREIMAGE" .BOOLEAN).insert "NAMPS" .INT32
  else keyTypes

-- `zero` is the value of a new entry of the table
variable (zero : DhsDataType)

/-- `keyTypes[name]`: a name that is missing is entered. -/
def keyType (name : String) : Checking DhsDataType := do
  match (← get).lookup name with
  | some type => return type
  | none =>
    modify fun keyTypes => keyTypes.insert name zero
    return zero

def isKeywordTypeOk (name : String) (type : DhsDataType) : Checking Bool := do
  if ((← get).lookup name).isNone then
    return type = .STRING
  else
    return (← keyType zero name) = type

/-- The value of a keyword is read for the log, by the type of the keyword. -/
def readValue (k : Keyword) : Except Abort Unit :=
  match k.type with
  | .INT8 => discard (k.getValue Int8)
  | .INT16 => discard (k.getValue Int16)
  | .INT32 => discard (k.getValue Int32)
  | .UINT8 => discard (k.getValue UInt8)
  | .UINT16 => discard (k.getValue UInt16)
  | .UINT32 => discard (k.getValue UInt32)
  | .FLOAT => discard (k.getValue CFloat)
  | .DOUBLE => discard (k.getValue CDouble)
  | .STRING => discard (k.getValue String)
  | .BOOLEAN => discard (k.getValue Bool)

/-- One turn of the loop over the keywords. -/
def checkKeyword (ret : DhsStatus) (k : Keyword) : Checking DhsStatus := do
  ExceptT.mk (pure (readValue k))
  if !(← isKeywordTypeOk zero k.name k.type) then
    return .E_CTL_CMD
  return ret

/-- `setImageKeywords`; the image and the flag are logged only. -/
def setImageKeywords (_id : ImageId) (keywords : List Keyword) (_final : Bool) : Checking DhsStatus :=
  keywords.foldlM (checkKeyword zero) .S_SUCCESS

/-! ## One call -/

/-- The type a table asks for: a string for a name that is not in it. -/
def wanted (keyTypes : KeyTypes) (name : String) : DhsDataType := (keyTypes.lookup name).getD .STRING

/-- The getter of its type does not throw. -/
theorem readValue_ok (k : Keyword) : readValue k = .ok () := by
  have hread : ∀ {T : Type} [KeywordType T], k.type = KeywordType.dataType T →
      discard (k.getValue T) = (.ok () : Except Abort Unit) := by
    intro T _ htype
    obtain ⟨v, hv⟩ := getValue_isOk.2 htype
    rw [hv]
    rfl
  unfold readValue
  split <;> rename_i htype <;> exact hread htype

theorem isKeywordTypeOk_exec (keyTypes : KeyTypes) (name : String) (type : DhsDataType) :
    (isKeywordTypeOk zero name type).exec keyTypes = (.ok (decide (type = wanted keyTypes name)), keyTypes) := by
  unfold isKeywordTypeOk wanted
  rw [exec_bind (exec_get keyTypes)]
  cases hfind : keyTypes.lookup name with
  | none => rfl
  | some t =>
    have htype : (keyType zero name).exec keyTypes = (.ok t, keyTypes) := by
      unfold keyType
      rw [exec_bind (exec_get keyTypes), hfind]
      rfl
    rw [if_neg (by simp), exec_bind htype, exec_pure]
    simp [eq_comm]

/-- **One turn** leaves the table alone, and does not clear an error. -/
theorem checkKeyword_exec (keyTypes : KeyTypes) (ret : DhsStatus) (k : Keyword) :
    (checkKeyword zero ret k).exec keyTypes =
      (.ok (if k.type = wanted keyTypes k.name then ret else .E_CTL_CMD), keyTypes) := by
  unfold checkKeyword
  rw [readValue_ok, exec_bind (exec_lift _ _), exec_bind (isKeywordTypeOk_exec zero keyTypes k.name k.type)]
  by_cases htype : k.type = wanted keyTypes k.name
  · rw [if_pos htype, decide_eq_true htype]
    rfl
  · rw [if_neg htype, decide_eq_false htype]
    rfl

/-- The loop over the keywords. -/
theorem foldlM_checkKeyword_exec (keyTypes : KeyTypes) (keywords : List Keyword) (ret : DhsStatus) :
    Checking.exec (keywords.foldlM (checkKeyword zero) ret) keyTypes =
      (.ok (if ∀ k ∈ keywords, k.type = wanted keyTypes k.name then ret else .E_CTL_CMD), keyTypes) := by
  induction keywords generalizing ret with
  | nil => simp
  | cons k ks ih =>
    rw [List.foldlM_cons, exec_bind (checkKeyword_exec zero keyTypes ret k), ih]
    by_cases htype : k.type = wanted keyTypes k.name
    · simp [htype]
    · simp [htype]

/-- **One call**: the table stays, and the status tells whether every keyword has the type the table asks for. -/
theorem setImageKeywords_exec (keyTypes : KeyTypes) (id : ImageId) (keywords : List Keyword) (final : Bool) :
    (setImageKeywords zero id keywords final).exec keyTypes =
      (.ok (if ∀ k ∈ keywords, k.type = wanted keyTypes k.name then .S_SUCCESS else .E_CTL_CMD), keyTypes) :=
  foldlM_checkKeyword_exec zero keyTypes keywords .S_SUCCESS

/-! ## Runs -/

/-- What happens to simulated adapters, as far as the table is concerned. -/
inductive Op where
  | create
  | setImageKeywords (id : ImageId) (keywords : List Keyword) (final : Bool)

/-- The table after it. -/
def Op.apply (keyTypes : KeyTypes) : Op → KeyTypes
  | create => initKeyTypes keyTypes
  | setImageKeywords id keywords final => ((DhsAdapterSim.setImageKeywords zero id keywords final).exec keyTypes).2

/-- The table after the first constructor and the operations. -/
def keyTypesAfter (ops : List Op) : KeyTypes := ops.foldl (Op.apply zero) (initKeyTypes ∅)

/-- The registered type of a name, and a string for any other. -/
def expectedType : String → DhsDataType
  | "RA" => .DOUBLE
  | "PREIMAGE" => .BOOLEAN
  | "NAMPS" => .INT32
  | _ => .STRING

/-- What the table asks for once it is filled. -/
theorem wanted_init (name : String) : wanted (initKeyTypes ∅) name = expectedType name := by
  unfold expectedType
  split
  · rfl
  · rfl
  · rfl
  · rename_i hra hpre hnamps
    have hinit : initKeyTypes ∅ =
        (((∅ : KeyTypes).insert "RA" .DOUBLE).insert "PREIMAGE" .BOOLEAN).insert "NAMPS" .INT32 := rfl
    unfold wanted
    rw [hinit, AList.lookup_insert_ne hnamps, AList.lookup_insert_ne hpre, AList.lookup_insert_ne hra]
    rfl

theorem init_nonempty : initKeyTypes (initKeyTypes ∅) = initKeyTypes ∅ := rfl

/-- One operation leaves the filled table alone. -/
theorem Op.apply_init (op : Op) : op.apply zero (initKeyTypes ∅) = initKeyTypes ∅ := by
  cases op with
  | create => exact init_nonempty
  | setImageKeywords id keywords final =>
    exact congrArg Prod.snd (setImageKeywords_exec zero (initKeyTypes ∅) id keywords final)

/-- **The table never changes** once it is filled. -/
theorem keyTypesAfter_eq (ops : List Op) : keyTypesAfter zero ops = initKeyTypes ∅ := by
  unfold keyTypesAfter
  induction ops with
  | nil => rfl
  | cons op ops ih => rw [List.foldl_cons, op.apply_init, ih]

/-- **Types are checked exactly and without memory**: after any operations the table is the one the constructor made,
and a call succeeds iff all its keywords have the expected type. -/
theorem keyword_types_checked (ops : List Op) (id : ImageId) (keywords : List Keyword) (final : Bool) :
    keyTypesAfter zero ops = initKeyTypes ∅ ∧
    ∃ status, (setImageKeywords zero id keywords final).exec (keyTypesAfter zero ops) = (.ok status, initKeyTypes ∅) ∧
      (status = .S_SUCCESS ∨ status = .E_CTL_CMD) ∧
      (status = .S_SUCCESS ↔ ∀ k ∈ keywords, k.type = expectedType k.name) := by
  refine ⟨keyTypesAfter_eq zero ops, ?_⟩
  rw [keyTypesAfter_eq, setImageKeywords_exec]
  simp only [wanted_init]
  refine ⟨_, rfl, ?_⟩
  by_cases hall : ∀ k ∈ keywords, k.type = expectedType k.name
  · rw [if_pos hall]
    exact ⟨Or.inl rfl, iff_of_true rfl hall⟩
  · rw [if_neg hall]
    exact ⟨Or.inr rfl, iff_of_false nofun hall⟩

end DhsAdapterSim

end DhsTranslator
