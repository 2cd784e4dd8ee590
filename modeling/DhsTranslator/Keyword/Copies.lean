import DhsTranslator.Keyword.Objects

/-!
# Copies of keywords

- `Shows`: an object in memory stands for a keyword; the getters then agree (`Shows.getValue`);
- `Mem.Op.apply` is what the operations do to keywords as values, where a copy is the same value; `Mem.Holds` ties the
  memory to it. Each operation keeps this and never follows a pointer to nothing (`step_holds`);
- `copies_faithful`: so whatever is copied and assigned from a keyword has its name, its type and its value.
-/

namespace DhsTranslator

open Memory

/-! ## Objects and keywords -/

/-- The object stands for the keyword. -/
structure Shows (strings : Strings) (o : Obj) (k : Keyword) : Prop where
  name : k.name = o.name
  type : k.type = o.type
  value : readMember o.value strings o.type = some k.value

/-- The cell that an object owns: that of its string. -/
def Obj.cell (o : Obj) : Option Addr := if o.type = .STRING then some o.stringVal else none

section Objects

variable {strings strings' : Strings} {o : Obj} {k : Keyword}

/-- **A member that was written is read back.** -/
theorem readMember_writeMember (raw : Storage) (strings : Strings) (addr : Addr) {v : KeywordValue} {ty : DhsDataType}
    (h : v.holds ty = true) :
    readMember (writeMember raw strings addr v).1 (writeMember raw strings addr v).2 ty = some v := by
  cases v with
  | boolVal b =>
    obtain rfl : ty = .BOOLEAN := by cases ty <;> first | rfl | cases h
    cases b <;> simp [readMember, writeMember]
  | _ => cases ty <;> cases h <;> simp [readMember, writeMember]

/-- The pointer to a string that was written. -/
theorem stringVal_writeMember (raw : Storage) (strings : Strings) (addr : Addr) (s name : String) (ty : DhsDataType) :
    Obj.stringVal ⟨name, ty, (writeMember raw strings addr (.stringVal s)).1⟩ = addr := by
  simp [Obj.stringVal, writeMember]

/-- **The getters** return or throw what they do for the keyword. -/
theorem Shows.getValue (h : Shows strings o k) (ty : DhsDataType) :
    o.getValue strings ty = some (k.getValue ty.Value) := by
  obtain ⟨name, type, value, tagged⟩ := k
  obtain rfl : type = o.type := h.type
  have hvalue : readMember o.value strings o.type = some value := h.value
  unfold Obj.getValue Keyword.getValue
  by_cases hty : o.type = ty
  · subst hty
    have hholds : value.holds (KeywordType.dataType o.type.Value) = true := by rwa [dataType_value]
    rw [if_pos rfl, hvalue, dif_pos (dataType_value o.type).symm, Option.bind_some]
    unfold loadMember
    rw [dif_pos hholds]
    rfl
  · rw [if_neg hty, dif_neg (by rwa [dataType_value])]

/-- The two getters of strings agree. -/
theorem getStringRef_eq (o : Obj) (strings : Strings) : o.getStringRef strings = o.getValue strings .STRING := by
  unfold Obj.getStringRef Obj.getValue
  by_cases hty : o.type = .STRING
  · rw [if_pos hty, if_pos hty]
    show _ = ((strings o.stringVal).map KeywordValue.stringVal).bind _
    cases strings o.stringVal <;> rfl
  · rw [if_neg hty, if_neg hty]
    rfl

/-- An object shows the same as long as its own string does not change. -/
theorem Shows.frame (h : Shows strings o k) (hsame : ∀ a, o.cell = some a → strings' a = strings a) :
    Shows strings' o k := by
  refine ⟨h.name, h.type, ?_⟩
  rw [← h.value]
  cases hty : o.type with
  | STRING =>
    have hcell : o.cell = some o.stringVal := by
      unfold Obj.cell
      rw [if_pos hty]
    exact congrArg (Option.map KeywordValue.stringVal) (hsame _ hcell)
  | _ => rfl

/-- The string of an object of type `STRING`. -/
theorem Shows.string (h : Shows strings o k) (hty : o.type = .STRING) :
    ∃ s, strings o.stringVal = some s ∧ k.value = .stringVal s := by
  have hvalue := h.value
  rw [hty] at hvalue
  obtain ⟨s, hs, hk⟩ := Option.map_eq_some_iff.1 hvalue
  exact ⟨s, hs, hk.symm⟩

/-- **A copy** shows what the original shows. -/
theorem Shows.copied_string (h : Shows strings o k) (hty : o.type = .STRING) (raw : Storage) (addr : Addr) {s : String}
    (hs : strings o.stringVal = some s) :
    Shows (strings.new addr s) ⟨o.name, o.type, writeLow addr raw⟩ k := by
  obtain ⟨s', hs', hk⟩ := h.string hty
  obtain rfl : s = s' := Option.some.inj (hs.symm.trans hs')
  refine ⟨h.name, h.type, ?_⟩
  rw [hty, hk]
  simp [readMember]

end Objects

/-! ## Keywords as values -/

section Values

variable {ι : Type} [DecidableEq ι]

/-- What an operation does to keywords. -/
def Mem.Op.apply (K : ι → Option Keyword) : Mem.Op ι → ι → Option Keyword
  | .default x _ => Function.update K x (some ⟨"", .INT32, .intVal 0, rfl⟩)
  | .construct x _ _ name _ val => Function.update K x (some (Keyword.of name val))
  | .copyConstruct x _ _ other => Function.update K x (K other)
  | .assign x _ other => Function.update K x (K other)
  | .destroy x => Function.update K x none

/-- The keywords after the operations. -/
def keywordsAfter (ops : List (Mem.Op ι)) : ι → Option Keyword := ops.foldl Mem.Op.apply fun _ => none

theorem keywordsAfter_snoc (ops : List (Mem.Op ι)) (op : Mem.Op ι) :
    keywordsAfter (ops ++ [op]) = op.apply (keywordsAfter ops) := by
  unfold keywordsAfter
  rw [List.foldl_append]
  rfl

/-- The cells of the objects. -/
def Mem.owns (m : Mem ι) (x : ι) : Option Addr := (m.objs x).bind Obj.cell

/-- **The memory holds the keywords**: every object shows one, and the strings of the objects are apart. -/
structure Mem.Holds (m : Mem ι) (K : ι → Option Keyword) : Prop where
  apart : Separate m.owns m.strings
  shown : ∀ x, Option.Rel (Shows m.strings) (m.objs x) (K x)
  null : m.strings 0 = none

variable {m m' : Mem ι} {K : ι → Option Keyword} {x : ι} {o : Obj} {k : Keyword}

theorem owns_set (m : Mem ι) (x : ι) (o : Option Obj) (strings : Strings) :
    (m.set x o strings).owns = Function.update m.owns x (o.bind Obj.cell) := by
  funext y
  unfold Mem.owns
  by_cases hy : y = x
  · subst hy
    rw [Mem.set_self, Function.update_self]
  · rw [Mem.set_of_ne m hy, Function.update_of_ne hy]

omit [DecidableEq ι] in
/-- An object and what it shows. -/
theorem Mem.Holds.shows (h : m.Holds K) (hx : m.objs x = some o) : ∃ k, K x = some k ∧ Shows m.strings o k := by
  have hrel := h.shown x
  rw [hx] at hrel
  cases hk : K x with
  | none => rw [hk] at hrel; cases hrel
  | some k =>
    rw [hk] at hrel
    cases hrel with
    | some hshows => exact ⟨k, rfl, hshows⟩

/-- **One object changes**: the others show what they did if their strings stay. -/
theorem Mem.Holds.set (h : m.Holds K) {x : ι} {o : Option Obj} {k : Option Keyword} {strings : Strings}
    (hapart : Separate (Function.update m.owns x (o.bind Obj.cell)) strings) (hnull : strings 0 = none)
    (hnew : Option.Rel (Shows strings) o k)
    (hframe : ∀ {y a}, y ≠ x → m.owns y = some a → strings a = m.strings a) :
    (m.set x o strings).Holds (Function.update K x k) := by
  refine ⟨(owns_set m x o strings).symm ▸ hapart, fun y => ?_, hnull⟩
  by_cases hy : y = x
  · subst hy
    rw [Mem.set_self, Function.update_self]
    exact hnew
  · rw [Mem.set_of_ne m hy, Function.update_of_ne hy]
    cases hobj : m.objs y with
    | none =>
      have hrel := h.shown y
      rw [hobj] at hrel
      cases hk : K y with
      | none => exact .none
      | some k => rw [hk] at hrel; cases hrel
    | some o' =>
      obtain ⟨k', hk, hshows⟩ := h.shows hobj
      rw [hk]
      refine .some (hshows.frame fun a ha => hframe hy ?_)
      unfold Mem.owns
      rw [hobj]
      exact ha

/-- An object without a string. -/
theorem Mem.Holds.set_plain (h : m.Holds K) (x : ι) (hty : o.type ≠ .STRING) (hk : Shows m.strings o k) :
    (m.set x (some o) m.strings).Holds (Function.update K x (some k)) := by
  have hcell : (some o).bind Obj.cell = none := if_neg hty
  exact h.set (hcell ▸ h.apart.abandon x) h.null (.some hk) fun _ _ => rfl

/-- An object with a new string. -/
theorem Mem.Holds.set_string (h : m.Holds K) (x : ι) {addr : Addr} {s : String} (hty : o.type = .STRING)
    (haddr : o.stringVal = addr) (hfresh : m.Fresh addr) (hk : Shows (m.strings.new addr s) o k) :
    (m.set x (some o) (m.strings.new addr s)).Holds (Function.update K x (some k)) := by
  have hcell : (some o).bind Obj.cell = some addr := haddr ▸ if_pos hty
  refine h.set (hcell ▸ h.apart.renew x hfresh.1 s) ?_ (.some hk) fun _ hy => h.apart.new_other hfresh.1 hy
  rw [Cells.new_of_ne hfresh.2.symm, h.null]

/-- No object any more. -/
theorem Mem.Holds.remove (h : m.Holds K) (x : ι) : (m.set x none m.strings).Holds (Function.update K x none) :=
  h.set (h.apart.abandon x) h.null .none fun _ _ => rfl

/-- No object any more, and no string of it. -/
theorem Mem.Holds.remove_string (h : m.Holds K) (hx : m.objs x = some o) (hty : o.type = .STRING) :
    (m.set x none (m.strings.delete o.stringVal)).Holds (Function.update K x none) := by
  have howns : m.owns x = some o.stringVal := by
    unfold Mem.owns
    rw [hx]
    exact if_pos hty
  have hne : o.stringVal ≠ 0 := by
    intro hzero
    exact h.apart.allocated howns (hzero ▸ h.null)
  refine h.set (h.apart.delete howns) ?_ .none fun hy ha => h.apart.delete_other howns ha hy
  rw [Cells.delete_of_ne hne.symm, h.null]

/-! ## The operations -/

/-- A constructor. -/
theorem Mem.Holds.written (h : m.Holds K) (x : ι) (raw : Storage) (addr : Addr) (k : Keyword)
    (hfresh : k.type = .STRING → m.Fresh addr) :
    (m.set x (some ⟨k.name, k.type, (writeMember raw m.strings addr k.value).1⟩)
      (writeMember raw m.strings addr k.value).2).Holds (Function.update K x (some k)) := by
  have hshows : Shows (writeMember raw m.strings addr k.value).2
      ⟨k.name, k.type, (writeMember raw m.strings addr k.value).1⟩ k :=
    ⟨rfl, rfl, readMember_writeMember raw m.strings addr k.tagged⟩
  obtain ⟨name, type, value, tagged⟩ := k
  cases value with
  | stringVal s =>
    obtain rfl : type = .STRING := by cases type <;> first | rfl | cases tagged
    exact h.set_string x rfl (stringVal_writeMember raw m.strings addr s name .STRING) (hfresh rfl) hshows
  | _ => exact h.set_plain x (by rintro rfl; cases tagged) hshows

/-- **A copy**, over whatever was there before. -/
theorem Mem.Holds.copyTo (h : m.Holds K) (x : ι) (raw : Storage) (addr : Addr) {other : ι}
    (ho : m.objs other = some o) (hfresh : o.type = .STRING → m.Fresh addr) :
    ∃ m', m.copyTo x raw addr o = some m' ∧ m'.Holds (Function.update K x (K other)) := by
  obtain ⟨k, hk, hshows⟩ := h.shows ho
  unfold Mem.copyTo
  rw [hk]
  by_cases hty : o.type = .STRING
  · obtain ⟨s, hs, _⟩ := hshows.string hty
    rw [if_pos hty, hs]
    refine ⟨_, rfl, ?_⟩
    have haddr : Obj.stringVal ⟨o.name, o.type, writeLow addr raw⟩ = addr := readLow_writeLow (by decide) addr raw
    exact h.set_string x hty haddr (hfresh hty) (hshows.copied_string hty raw addr hs)
  · rw [if_neg hty]
    exact ⟨_, rfl, h.set_plain x hty ⟨hshows.name, hshows.type, hshows.value⟩⟩

/-- **One operation**: it does not follow a pointer to nothing, and does to the memory what it does to the keywords. -/
theorem step_holds (h : m.Holds K) {op : Mem.Op ι} (hcan : m.Can op) :
    ∃ m', m.step op = some m' ∧ m'.Holds (op.apply K) := by
  cases op with
  | default x raw => exact ⟨_, rfl, h.written x raw 0 ⟨"", .INT32, .intVal 0, rfl⟩ nofun⟩
  | construct x raw addr name ty val =>
    have hset := h.written x raw addr (Keyword.of name val) fun hty => hcan.2 ((dataType_value ty).symm.trans hty)
    refine ⟨_, rfl, ?_⟩
    rw [of_name, of_type, dataType_value] at hset
    exact hset
  | copyConstruct x raw addr other =>
    obtain ⟨o, ho, hfresh⟩ := hcan.2
    obtain ⟨m', hm', hholds⟩ := h.copyTo x raw addr ho hfresh
    refine ⟨m', ?_, hholds⟩
    show (m.objs other).bind (m.copyTo x raw addr) = some m'
    rw [ho]
    exact hm'
  | assign x addr other =>
    obtain ⟨o, ho, hfresh⟩ := hcan.2
    obtain ⟨this, hthis⟩ := Option.ne_none_iff_exists'.1 hcan.1
    obtain ⟨m', hm', hholds⟩ := h.copyTo x this.value addr ho hfresh
    refine ⟨m', ?_, hholds⟩
    show (m.objs x).bind (fun this => (m.objs other).bind (m.copyTo x this.value addr)) = some m'
    rw [hthis, ho]
    exact hm'
  | destroy x =>
    obtain ⟨o, ho⟩ := Option.ne_none_iff_exists'.1 hcan
    obtain ⟨k, hk, hshows⟩ := h.shows ho
    show ∃ m', m.destroy x = some m' ∧ m'.Holds (Function.update K x none)
    unfold Mem.destroy
    rw [ho]
    by_cases hty : o.type = .STRING
    · obtain ⟨s, hs, _⟩ := hshows.string hty
      have hne : o.stringVal ≠ 0 := by
        intro hzero
        rw [hzero, h.null] at hs
        cases hs
      simp only [hty, hs, hne, ne_eq, not_false_eq_true, and_self, if_true, Option.bind_eq_bind, Option.bind_some]
      exact ⟨_, rfl, h.remove_string ho hty⟩
    · simp only [hty, false_and, if_false, Option.bind_eq_bind, Option.bind_some]
      exact ⟨_, rfl, h.remove x⟩

/-- **Every memory that is reached** holds the keywords. -/
theorem reached_holds {ops : List (Mem.Op ι)} (h : Mem.Reached ops m) : m.Holds (keywordsAfter ops) := by
  induction h with
  | start => exact ⟨Separate.start, fun _ => .none, rfl⟩
  | step h hcan hstep ih =>
    obtain ⟨m', hm', hholds⟩ := step_holds ih hcan
    rw [keywordsAfter_snoc]
    obtain rfl := Option.some.inj (hstep.symm.trans hm')
    exact hholds

/-! ## Chains of copies -/

/-- The object that an operation changes. -/
def Mem.Op.target : Mem.Op ι → ι
  | .default x _ | .construct x _ _ _ _ _ | .copyConstruct x _ _ _ | .assign x _ _ | .destroy x => x

/-- The object was constructed with these, or copied or assigned from one that was, and has not changed since. -/
inductive Carried (name : String) (ty : DhsDataType) (v : ty.Value) : List (Mem.Op ι) → ι → Prop
  | constructed (ops : List (Mem.Op ι)) (x : ι) (raw : Storage) (addr : Addr) :
      Carried name ty v (ops ++ [.construct x raw addr name ty v]) x
  | copied (x : ι) (raw : Storage) (addr : Addr) {ops : List (Mem.Op ι)} {other : ι}
      (h : Carried name ty v ops other) : Carried name ty v (ops ++ [.copyConstruct x raw addr other]) x
  | assigned (x : ι) (addr : Addr) {ops : List (Mem.Op ι)} {other : ι} (h : Carried name ty v ops other) :
      Carried name ty v (ops ++ [.assign x addr other]) x
  | kept {ops : List (Mem.Op ι)} {x : ι} (op : Mem.Op ι) (h : Carried name ty v ops x) (hop : x ≠ op.target) :
      Carried name ty v (ops ++ [op]) x

variable {name : String} {ty : DhsDataType} {v : ty.Value} {ops : List (Mem.Op ι)}

/-- As a value it is the keyword itself. -/
theorem Carried.keyword (h : Carried name ty v ops x) : keywordsAfter ops x = some (Keyword.of name v) := by
  induction h with
  | constructed ops x raw addr =>
    rw [keywordsAfter_snoc]
    exact Function.update_self _ _ _
  | copied x raw addr h ih =>
    rw [keywordsAfter_snoc]
    exact (Function.update_self _ _ _).trans ih
  | assigned x addr h ih =>
    rw [keywordsAfter_snoc]
    exact (Function.update_self _ _ _).trans ih
  | kept op h hop ih =>
    rw [keywordsAfter_snoc]
    cases op <;> exact (Function.update_of_ne hop _ _).trans ih

/-- **Keywords are faithful containers**: after any operations, an object that a keyword was carried to by copies and
assignments has its name and type, the getter of the type returns the value, and the others throw. No operation follows
a pointer to nothing. -/
theorem copies_faithful (h : Mem.Reached ops m) :
    (∀ op, m.Can op → (m.step op).isSome) ∧
    ∀ (name : String) (ty : DhsDataType) (v : ty.Value) (x : ι), Carried name ty v ops x →
      ∃ o, m.objs x = some o ∧ o.name = name ∧ o.type = ty ∧ o.getValue m.strings ty = some (.ok v) ∧
        (∀ ty', ty' ≠ ty → ∃ what, o.getValue m.strings ty' = some (.error (.exception what))) ∧
        o.getStringRef m.strings = o.getValue m.strings .STRING := by
  have hholds := reached_holds h
  constructor
  · intro op hcan
    obtain ⟨m', hm', _⟩ := step_holds hholds hcan
    rw [hm']
    rfl
  · intro name ty v x hx
    have hk := hx.keyword
    have hrel := hholds.shown x
    rw [hk] at hrel
    cases hobj : m.objs x with
    | none => rw [hobj] at hrel; cases hrel
    | some o =>
      obtain ⟨k, hk', hshows⟩ := hholds.shows hobj
      obtain rfl : k = Keyword.of name v := Option.some.inj (hk'.symm.trans hk)
      refine ⟨o, rfl, hshows.name.symm, ?_, ?_, fun ty' hne => ?_, getStringRef_eq o m.strings⟩
      · rw [← hshows.type, of_type, dataType_value]
      · rw [hshows.getValue, getValue_of]
      · have htype : (Keyword.of name v).type ≠ KeywordType.dataType ty'.Value := by
          rw [of_type, dataType_value, dataType_value]
          exact hne.symm
        obtain ⟨what, hwhat⟩ := getValue_throws htype
        exact ⟨what, by rw [hshows.getValue, hwhat]⟩

/-- A keyword with the largest number is assigned over a string, then the result to itself, and copied. -/
def chainOps : List (Mem.Op Nat) :=
  [.construct 0 0 1 "NAMPS" .UINT32 (4294967295 : UInt32), .construct 1 0 1 "OBJECT" .STRING "M31", .assign 1 0 0,
    .assign 1 0 1, .copyConstruct 2 0 0 1]

theorem chain_reached : ∃ m, Mem.Reached chainOps m := by
  have h₁ := Mem.Reached.step .start
    (show Mem.empty.Can (.construct 0 0 1 "NAMPS" .UINT32 (4294967295 : UInt32)) from ⟨rfl, nofun⟩) rfl
  have h₂ := h₁.step (show Mem.Can _ (.construct 1 0 1 "OBJECT" .STRING "M31") from ⟨rfl, fun _ => ⟨rfl, by decide⟩⟩) rfl
  have h₃ := h₂.step (show Mem.Can _ (.assign 1 0 0) from ⟨nofun, _, rfl, nofun⟩) rfl
  have h₄ := h₃.step (show Mem.Can _ (.assign 1 0 1) from ⟨nofun, _, rfl, nofun⟩) rfl
  have h₅ := h₄.step (show Mem.Can _ (.copyConstruct 2 0 0 1) from ⟨rfl, _, rfl, nofun⟩) rfl
  exact ⟨_, h₅⟩

theorem chain_carried : Carried "NAMPS" .UINT32 (4294967295 : UInt32) chainOps 2 :=
  .copied 2 0 0 (.assigned 1 0 (.assigned 1 0 (.kept (.construct 1 0 1 "OBJECT" .STRING "M31")
    (.constructed [] 0 0 1) Nat.zero_ne_one)))

theorem copies_faithful_chain : ∃ m, Mem.Reached chainOps m ∧ (∀ op, m.Can op → (m.step op).isSome) ∧
    ∃ o, m.objs 2 = some o ∧ o.name = "NAMPS" ∧ o.type = .UINT32 ∧
      o.getValue m.strings .UINT32 = some (.ok (4294967295 : UInt32)) ∧
      (∀ ty', ty' ≠ .UINT32 → ∃ what, o.getValue m.strings ty' = some (.error (.exception what))) ∧
      o.getStringRef m.strings = o.getValue m.strings .STRING := by
  obtain ⟨m, hm⟩ := chain_reached
  have hfaithful := copies_faithful hm
  exact ⟨m, hm, hfaithful.1, hfaithful.2 "NAMPS" .UINT32 _ 2 chain_carried⟩

end Values

end DhsTranslator
