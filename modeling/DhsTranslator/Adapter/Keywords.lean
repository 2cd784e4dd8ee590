import Mathlib.Data.List.Forall2
import DhsTranslator.Adapter.Discipline

/-!
# Setting keywords

How `DhsAdapter::setImageKeywords` ends, as a trace of its commands.

- `AddsEnd`: the loop over the keywords; `PutEnd`: storing a list; `KeywordsEnd`: the whole call (`ends_setImageKeywords`);
- `lefts`, `puts`, `reports`, `sizes`, `entriesOf`: what a trace shows of the calls of the library; they are `Blind` to
  the connection check and to the lock;
- `closed_iff`: when success means that the image was closed;
- `Passed`: what belongs into a list for each type of keywords; `passed_of_avValue`: the switch over the types passes
  that, and `holds_of_iff`: a keyword that was made with a value is held as that value;
- `stored_iff`: success means that all keywords were stored by one put, given the `LibraryLaws`.
-/

namespace DhsTranslator

open Conc DhsAdapter

/-! ## Parts of a trace -/

/-- A library call with what it leaves. -/
def libActs (f : LibCall) (status : DhsStatus) (r : f.Answer) : List (Act AdapterSig) :=
  [⟨.enter f status, ()⟩, ⟨.leave f, r⟩]

theorem ends_lib {f : LibCall} {status : DhsStatus} {tr : List (Act AdapterSig)} {res : Except AdapterAbort f.Answer} :
    Ends (lib f status) tr res ↔ ∃ r, tr = libActs f status r ∧ res = .ok r := by
  unfold lib libActs
  simp only [ends_call, ends_ret]
  constructor
  · rintro ⟨⟨⟩, tr₁, rfl, r, tr₂, rfl, rfl, rfl⟩
    exact ⟨r, rfl, rfl⟩
  · rintro ⟨r, rfl, rfl⟩
    exact ⟨(), _, rfl, r, [], rfl, rfl, rfl⟩

/-- The functions that setting keywords relies on. -/
inductive KeywordsFn where
  | avListNew
  | avAdd
  | avListSize
  | bdPut
  | wait
  | status
  deriving DecidableEq, Repr

def LibCall.keywordsFn? : LibCall → Option KeywordsFn
  | .dhsAvListNew => some .avListNew
  | .dhsAvAdd _ _ _ _ => some .avAdd
  | .dhsAvListSize _ => some .avListSize
  | .dhsBdPut _ _ _ _ => some .bdPut
  | .dhsWait _ => some .wait
  | .dhsStatus _ => some .status
  | _ => none

/-- The status that a call of one of these functions leaves. -/
def left? : Act AdapterSig → Option (KeywordsFn × DhsStatus)
  | ⟨.leave f, r⟩ => f.keywordsFn?.map fun fn => (fn, r.status)
  | _ => none

/-- The put that is issued: the image, the flag and the list. -/
def put? : Act AdapterSig → Option (ImageId × Bool × DhsAvList)
  | ⟨.enter (.dhsBdPut _ id final avList) _, _⟩ => some (id, final, avList)
  | _ => none

/-- What is reported of a command. -/
def reported? : Act AdapterSig → Option DhsCmdStatus
  | ⟨.leave (.dhsStatus _), r⟩ => some r.ret
  | _ => none

/-- The length of a list, if it is measured with success. -/
def measured? : Act AdapterSig → Option Int
  | ⟨.leave (.dhsAvListSize _), r⟩ => if r.status = .S_SUCCESS then some r.ret else none
  | _ => none

/-- An entry of a list: its name, its type and its value. -/
abbrev AvEntry := String × DhsDataType × AvValue

/-- What is added to a list, if it is. -/
def added? (avList : DhsAvList) : Act AdapterSig → Option AvEntry
  | ⟨.leave (.dhsAvAdd l name type value), r⟩ =>
    if l = avList ∧ r.status = .S_SUCCESS then some (name, type, value) else none
  | _ => none

/-- The entries of a list. -/
def entriesOf (avList : DhsAvList) (tr : List (Act AdapterSig)) : List AvEntry :=
  tr.filterMap (added? avList)

/-- The command does not belong to setting keywords. -/
def Apart : AdapterCmd → Prop
  | .enter f _ => f.keywordsFn? = none
  | .leave f => f.keywordsFn? = none
  | _ => True

/-- Nothing is seen of commands apart. -/
def Blind {β : Type} (see : Act AdapterSig → Option β) : Prop := ∀ a, Apart a.cmd → see a = none

theorem blind_left : Blind left? := by
  rintro ⟨c, r⟩ h
  cases c with
  | leave f =>
    show f.keywordsFn?.map _ = none
    rw [show f.keywordsFn? = none from h]
    rfl
  | _ => rfl

theorem blind_put : Blind put? := by
  rintro ⟨c, r⟩ h
  cases c with
  | enter f status => cases f <;> first | rfl | cases h
  | _ => rfl

theorem blind_reported : Blind reported? := by
  rintro ⟨c, r⟩ h
  cases c with
  | leave f => cases f <;> first | rfl | cases h
  | _ => rfl

theorem blind_measured : Blind measured? := by
  rintro ⟨c, r⟩ h
  cases c with
  | leave f => cases f <;> first | rfl | cases h
  | _ => rfl

theorem blind_added (avList : DhsAvList) : Blind (added? avList) := by
  rintro ⟨c, r⟩ h
  cases c with
  | leave f => cases f <;> first | rfl | cases h
  | _ => rfl

/-! ## The ends of the parts -/

variable {cfg : AdapterConfig} {tr : List (Act AdapterSig)}

/-- The connection check has an answer and calls no function for keywords. -/
theorem follows_checkConnection_apart :
    Follows (.only Apart) (checkConnection cfg) () fun res _ => ∃ b, res = .ok b := by
  have hend : Follows (.only Apart) (do unlock; getIsConnected) () fun res _ => ∃ b, res = .ok b :=
    ⟨trivial, fun _ => ⟨trivial, fun b => ⟨b, rfl⟩⟩⟩
  refine ⟨trivial, fun locked => ?_⟩
  cases locked with
  | false => exact ⟨false, rfl⟩
  | true =>
    refine ⟨trivial, fun connected => ?_⟩
    cases connected with
    | true => exact hend
    | false => exact ⟨rfl, fun _ => ⟨rfl, fun r => ⟨trivial, fun _ => ⟨trivial, fun _ => hend⟩⟩⟩⟩

theorem check_apart {res : Except AdapterAbort Bool} (h : Ends (checkConnection cfg) tr res) :
    (∃ b, res = .ok b) ∧ ∀ a ∈ tr, Apart a.cmd :=
  ⟨follows_checkConnection_apart.ends h, follows_checkConnection_apart.forall_acts h⟩

/-- The loop over the keywords, from a status to a status. -/
inductive AddsEnd (avList : DhsAvList) : DhsStatus → List Keyword → List (Act AdapterSig) → DhsStatus → Prop
  | nil (status : DhsStatus) : AddsEnd avList status [] [] status
  | cons {k : Keyword} {value : AvValue} {status status' : DhsStatus} {keywords : List Keyword}
      {tr : List (Act AdapterSig)} (hvalue : avValue k = .ok value)
      (r : (LibCall.dhsAvAdd avList k.name k.type value).Answer) (h : AddsEnd avList r.status keywords tr status') :
      AddsEnd avList status (k :: keywords) (libActs (.dhsAvAdd avList k.name k.type value) status r ++ tr) status'

theorem ends_addKeyword {avList : DhsAvList} {status : DhsStatus} {k : Keyword} {res : Except AdapterAbort DhsStatus}
    (h : Ends (addKeyword avList status k) tr res) : ∃ (value : AvValue)
      (r : (LibCall.dhsAvAdd avList k.name k.type value).Answer), avValue k = .ok value ∧
      tr = libActs (.dhsAvAdd avList k.name k.type value) status r ∧ res = .ok r.status := by
  obtain ⟨value, hvalue⟩ := avValue_isOk k
  rw [addKeyword, hvalue, eval, Prog.ret_bind] at h
  rcases ends_bind.1 h with ⟨r, tr₁, tr₂, rfl, h₁, h₂⟩ | ⟨e, _, h₁⟩
  · obtain ⟨r', rfl, hr⟩ := ends_lib.1 h₁
    cases hr
    obtain ⟨rfl, rfl⟩ := ends_ret.1 h₂
    exact ⟨value, r, hvalue, List.append_nil _, rfl⟩
  · obtain ⟨r', _, hr⟩ := ends_lib.1 h₁
    cases hr

theorem ends_addKeywords {avList : DhsAvList} {keywords : List Keyword} {status : DhsStatus}
    {res : Except AdapterAbort DhsStatus} (h : Ends (keywords.foldlM (addKeyword avList) status) tr res) :
    ∃ status', res = .ok status' ∧ AddsEnd avList status keywords tr status' := by
  induction keywords generalizing status tr with
  | nil =>
    obtain ⟨rfl, rfl⟩ := ends_ret.1 h
    exact ⟨status, rfl, .nil status⟩
  | cons k keywords ih =>
    rw [List.foldlM_cons] at h
    rcases ends_bind.1 h with ⟨status₁, tr₁, tr₂, rfl, h₁, h₂⟩ | ⟨e, _, h₁⟩
    · obtain ⟨value, r, hvalue, rfl, hr⟩ := ends_addKeyword h₁
      cases hr
      obtain ⟨status', hres, hadds⟩ := ih h₂
      exact ⟨status', hres, .cons hvalue r hadds⟩
    · obtain ⟨value, r, _, _, hr⟩ := ends_addKeyword h₁
      cases hr

/-- Storing a list: the put, waiting for it, and its status. -/
inductive PutEnd (id : ImageId) (final : Bool) (avList : DhsAvList) (status : DhsStatus) :
    List (Act AdapterSig) → DhsStatus → Prop
  | mk (c : DhsConnect) (put : (LibCall.dhsBdPut c id final avList).Answer)
      (wait : (LibCall.dhsWait put.ret).Answer) (cmd : (LibCall.dhsStatus put.ret).Answer)
      (freed : (LibCall.dhsTagFree put.ret).Answer) :
      PutEnd id final avList status (⟨.getConnection, c⟩ ::
        (libActs (.dhsBdPut c id final avList) status put ++ libActs (.dhsWait put.ret) put.status wait ++
          libActs (.dhsStatus put.ret) wait.status cmd ++ libActs (.dhsTagFree put.ret) .S_SUCCESS freed))
        (if cmd.ret = .DONE then cmd.status else .E_CTL_CMD)

/-- A library call in front. -/
theorem ends_lib_bind {α : Type} {f : LibCall} {status : DhsStatus} {k : f.Answer → Adapter α}
    {res : Except AdapterAbort α} (h : Ends (lib f status >>= k) tr res) :
    ∃ r tr', tr = libActs f status r ++ tr' ∧ Ends (k r) tr' res := by
  rcases ends_bind.1 h with ⟨r, tr₁, tr₂, rfl, h₁, h₂⟩ | ⟨e, _, h₁⟩
  · obtain ⟨r', rfl, hr⟩ := ends_lib.1 h₁
    cases hr
    exact ⟨r, tr₂, rfl, h₂⟩
  · obtain ⟨r', _, hr⟩ := ends_lib.1 h₁
    cases hr

theorem ends_putAvList {id : ImageId} {final : Bool} {avList : DhsAvList} {status : DhsStatus}
    {res : Except AdapterAbort DhsStatus} (h : Ends (putAvList id final avList status) tr res) :
    ∃ status', res = .ok status' ∧ PutEnd id final avList status tr status' := by
  obtain ⟨c, tr₁, rfl, h₁⟩ := ends_call.1 h
  obtain ⟨put, tr₂, rfl, h₂⟩ := ends_lib_bind h₁
  obtain ⟨wait, tr₃, rfl, h₃⟩ := ends_lib_bind h₂
  obtain ⟨cmd, tr₄, rfl, h₄⟩ := ends_lib_bind h₃
  obtain ⟨freed, tr₅, rfl, h₅⟩ := ends_lib_bind h₄
  obtain ⟨rfl, rfl⟩ := ends_ret.1 h₅
  refine ⟨_, rfl, ?_⟩
  have hend : PutEnd id final avList status _ _ := .mk c put wait cmd freed
  simpa only [List.append_assoc, List.append_nil] using hend

/-! ## The whole call -/

/-- The list is made, filled and measured. -/
inductive FillEnd (keywords : List Keyword) : List (Act AdapterSig) → DhsAvList → Int → DhsStatus → Prop
  | mk (new : LibCall.dhsAvListNew.Answer) {adds : List (Act AdapterSig)} {status : DhsStatus}
      (hadds : AddsEnd new.ret new.status keywords adds status) (size : (LibCall.dhsAvListSize new.ret).Answer) :
      FillEnd keywords
        (libActs .dhsAvListNew .S_SUCCESS new ++ adds ++ libActs (.dhsAvListSize new.ret) status size)
        new.ret size.ret size.status

/-- A list that is filled in front. -/
theorem ends_fill_bind {α : Type} {keywords : List Keyword} {k : DhsAvList → Int → DhsStatus → Adapter α}
    {res : Except AdapterAbort α}
    (h : Ends (do
      let new ← lib .dhsAvListNew .S_SUCCESS
      let status ← keywords.foldlM (addKeyword new.ret) new.status
      let measured ← lib (.dhsAvListSize new.ret) status
      k new.ret measured.ret measured.status) tr res) :
    ∃ fill tr' avList size status, tr = fill ++ tr' ∧ FillEnd keywords fill avList size status ∧
      Ends (k avList size status) tr' res := by
  obtain ⟨new, tr₁, rfl, h₁⟩ := ends_lib_bind h
  rcases ends_bind.1 h₁ with ⟨status, adds, tr₂, rfl, hadds, h₂⟩ | ⟨e, _, hadds⟩
  · obtain ⟨status', hres, hadds⟩ := ends_addKeywords hadds
    cases hres
    obtain ⟨size, tr₃, rfl, h₃⟩ := ends_lib_bind h₂
    exact ⟨_, tr₃, new.ret, size.ret, size.status, by simp only [List.append_assoc], .mk new hadds size, h₃⟩
  · obtain ⟨status', hres, _⟩ := ends_addKeywords hadds
    cases hres

/-- The list is given back and the lock freed. -/
def releaseActs (avList : DhsAvList) (r : (LibCall.dhsAvListFree avList).Answer) : List (Act AdapterSig) :=
  libActs (.dhsAvListFree avList) .S_SUCCESS r ++ [⟨.unlock, ()⟩]

theorem ends_release {avList : DhsAvList} {status : DhsStatus} {res : Except AdapterAbort DhsStatus}
    (h : Ends (do let _ ← lib (.dhsAvListFree avList) .S_SUCCESS; unlock; return status) tr res) :
    ∃ freed, tr = releaseActs avList freed ∧ res = .ok status := by
  obtain ⟨freed, tr₁, rfl, h₁⟩ := ends_lib_bind h
  obtain ⟨⟨⟩, tr₂, rfl, h₂⟩ := ends_call.1 h₁
  obtain ⟨rfl, rfl⟩ := ends_ret.1 h₂
  exact ⟨freed, rfl, rfl⟩

/-- **How setting keywords ends**: the trace after the connection check, and the status. -/
inductive KeywordsEnd (id : ImageId) (keywords : List Keyword) (final : Bool) :
    Bool → List (Act AdapterSig) → DhsStatus → Prop
  | unconnected : KeywordsEnd id keywords final false [] .E_CTL_CMD
  | nothing (hk : keywords = []) : KeywordsEnd id keywords final true [] .S_SUCCESS
  | busy (hk : keywords ≠ []) : KeywordsEnd id keywords final true [⟨.timedLock, false⟩] .E_CTL_CMD
  | unsized (hk : keywords ≠ []) {fill : List (Act AdapterSig)} {avList : DhsAvList} {size : Int} {status : DhsStatus}
      (hfill : FillEnd keywords fill avList size status) (hsize : size ≤ 0)
      (freed : (LibCall.dhsAvListFree avList).Answer) :
      KeywordsEnd id keywords final true (⟨.timedLock, true⟩ :: (fill ++ releaseActs avList freed)) status
  | put (hk : keywords ≠ []) {fill acts : List (Act AdapterSig)} {avList : DhsAvList} {size : Int}
      {status status' : DhsStatus} (hfill : FillEnd keywords fill avList size status) (hsize : 0 < size)
      (hput : PutEnd id final avList status acts status') (freed : (LibCall.dhsAvListFree avList).Answer) :
      KeywordsEnd id keywords final true
        (⟨.timedLock, true⟩ :: (fill ++ acts ++ releaseActs avList freed)) status'

theorem ends_setImageKeywords {id : ImageId} {keywords : List Keyword} {final : Bool}
    {res : Except AdapterAbort DhsStatus} (h : Ends (setImageKeywords cfg id keywords final) tr res) :
    ∃ check connected rest status, tr = check ++ rest ∧ Ends (checkConnection cfg) check (.ok connected) ∧
      res = .ok status ∧ KeywordsEnd id keywords final connected rest status := by
  rcases ends_bind.1 h with ⟨connected, check, rest, rfl, hcheck, h⟩ | ⟨e, _, hcheck⟩
  · refine ⟨check, connected, rest, ?_⟩
    suffices hend : ∃ status, res = .ok status ∧ KeywordsEnd id keywords final connected rest status by
      obtain ⟨status, hres, hend⟩ := hend
      exact ⟨status, rfl, hcheck, hres, hend⟩
    cases connected with
    | false =>
      obtain ⟨rfl, rfl⟩ := ends_ret.1 h
      exact ⟨_, rfl, .unconnected⟩
    | true =>
    by_cases hk : keywords = []
    · subst hk
      obtain ⟨rfl, rfl⟩ := ends_ret.1 h
      exact ⟨_, rfl, .nothing rfl⟩
    · have hne : keywords.isEmpty = false := by simpa using hk
      simp only [Bool.not_true, Bool.false_eq_true, if_false, hne] at h
      obtain ⟨locked, tr₁, rfl, h₁⟩ := ends_call.1 h
      cases locked with
      | false =>
        obtain ⟨rfl, rfl⟩ := ends_ret.1 h₁
        exact ⟨_, rfl, .busy hk⟩
      | true =>
        obtain ⟨fill, tr₂, avList, size, status, rfl, hfill, h₂⟩ := ends_fill_bind
          (k := fun avList size status => do
            let status ← if size > 0 then putAvList id final avList status else pure status
            let _ ← lib (.dhsAvListFree avList) .S_SUCCESS
            unlock
            return status) h₁
        by_cases hsize : size > 0
        · rw [if_pos hsize] at h₂
          rcases ends_bind.1 h₂ with ⟨status₂, acts, tr₃, rfl, hput, h₃⟩ | ⟨e, _, hput⟩
          · obtain ⟨status', hres, hput⟩ := ends_putAvList hput
            cases hres
            obtain ⟨freed, rfl, rfl⟩ := ends_release h₃
            refine ⟨_, rfl, ?_⟩
            have hend := KeywordsEnd.put hk hfill hsize hput freed
            simpa only [List.append_assoc] using hend
          · obtain ⟨status', hres, _⟩ := ends_putAvList hput
            cases hres
        · rw [if_neg hsize] at h₂
          obtain ⟨freed, rfl, rfl⟩ := ends_release h₂
          exact ⟨_, rfl, .unsized hk hfill (Int.not_lt.1 hsize) freed⟩
  · obtain ⟨⟨b, hb⟩, _⟩ := check_apart hcheck
    cases hb

/-! ## What a trace shows -/

/-- The functions called, with the status each call left. -/
def lefts (tr : List (Act AdapterSig)) : List (KeywordsFn × DhsStatus) := tr.filterMap left?

def puts (tr : List (Act AdapterSig)) : List (ImageId × Bool × DhsAvList) := tr.filterMap put?

def reports (tr : List (Act AdapterSig)) : List DhsCmdStatus := tr.filterMap reported?

/-- The lengths of lists that were measured with success. -/
def sizes (tr : List (Act AdapterSig)) : List Int := tr.filterMap measured?

section Observations

variable {l : DhsAvList} {id : ImageId} {final : Bool} {keywords : List Keyword} {status status' : DhsStatus}
  {size : Int} {tr' : List (Act AdapterSig)}

@[simp] theorem lefts_append : lefts (tr ++ tr') = lefts tr ++ lefts tr' := List.filterMap_append

@[simp] theorem puts_append : puts (tr ++ tr') = puts tr ++ puts tr' := List.filterMap_append

@[simp] theorem reports_append : reports (tr ++ tr') = reports tr ++ reports tr' := List.filterMap_append

@[simp] theorem sizes_append : sizes (tr ++ tr') = sizes tr ++ sizes tr' := List.filterMap_append

@[simp] theorem entriesOf_append : entriesOf l (tr ++ tr') = entriesOf l tr ++ entriesOf l tr' := List.filterMap_append

theorem Blind.nil {β : Type} {see : Act AdapterSig → Option β} (h : Blind see) (hapart : ∀ a ∈ tr, Apart a.cmd) :
    tr.filterMap see = [] := List.filterMap_eq_nil_iff.2 fun a ha => h a (hapart a ha)

theorem apart_release (freed : (LibCall.dhsAvListFree l).Answer) : ∀ a ∈ releaseActs l freed, Apart a.cmd := by
  simp [releaseActs, libActs, Apart, LibCall.keywordsFn?]

/-- Nothing is seen of the check and of the lock. -/
theorem Blind.unlocked {β : Type} {see : Act AdapterSig → Option β} (h : Blind see) (hcheck : ∀ a ∈ tr, Apart a.cmd)
    (locked : Bool) (acts : List (Act AdapterSig)) :
    (tr ++ ⟨.timedLock, locked⟩ :: acts).filterMap see = acts.filterMap see := by
  have hlock : see ⟨.timedLock, locked⟩ = none := h ⟨.timedLock, locked⟩ trivial
  rw [List.filterMap_append, h.nil hcheck, List.nil_append, List.filterMap_cons_none hlock]

/-- Nor of the release. -/
theorem Blind.locked {β : Type} {see : Act AdapterSig → Option β} (h : Blind see) (hcheck : ∀ a ∈ tr, Apart a.cmd)
    (acts : List (Act AdapterSig)) (freed : (LibCall.dhsAvListFree l).Answer) :
    (tr ++ ⟨.timedLock, true⟩ :: (acts ++ releaseActs l freed)).filterMap see = acts.filterMap see := by
  rw [h.unlocked hcheck, List.filterMap_append, h.nil (apart_release freed), List.append_nil]

theorem AddsEnd.observe (h : AddsEnd l status keywords tr status') : puts tr = [] ∧ reports tr = [] ∧ sizes tr = [] := by
  induction h with
  | nil => exact ⟨rfl, rfl, rfl⟩
  | cons hvalue r h ih => exact ih

theorem FillEnd.observe (h : FillEnd keywords tr l size status) : puts tr = [] ∧ reports tr = [] ∧
    sizes tr = if status = .S_SUCCESS then [size] else [] := by
  cases h with
  | mk new hadds measured =>
    obtain ⟨hputs, hreports, hsizes⟩ := hadds.observe
    have hmeasured : ∀ given, sizes (libActs (.dhsAvListSize new.ret) given measured) =
        if measured.status = .S_SUCCESS then [measured.ret] else [] := by
      intro given
      have hleave : measured? ⟨.leave (.dhsAvListSize new.ret), measured⟩ =
          if measured.status = .S_SUCCESS then some measured.ret else none := rfl
      have henter : measured? ⟨.enter (.dhsAvListSize new.ret) given, ()⟩ = none := rfl
      rw [sizes, libActs, List.filterMap_cons_none henter]
      split_ifs at hleave ⊢ with hs
      · exact List.filterMap_cons_some hleave
      · exact List.filterMap_cons_none hleave
    refine ⟨?_, ?_, ?_⟩
    · rw [puts_append, puts_append, hputs]; rfl
    · rw [reports_append, reports_append, hreports]; rfl
    · rw [sizes_append, sizes_append, hsizes, hmeasured]; rfl

theorem PutEnd.observe (h : PutEnd id final l status tr status') : sizes tr = [] ∧
    ∃ s, reports tr = [s] ∧ (s ≠ .DONE → status' = .E_CTL_CMD) := by
  cases h with
  | mk c put wait cmd freed => exact ⟨rfl, cmd.ret, rfl, fun hne => if_neg hne⟩

end Observations

/-! ## The end of an image -/

/-- A put with the flag set was issued for the image, and reported as done. -/
def Closed (id : ImageId) (tr : List (Act AdapterSig)) : Prop :=
  ∃ (c : DhsConnect) (l : DhsAvList) (status : DhsStatus) (put : (LibCall.dhsBdPut c id true l).Answer)
    (cmd : (LibCall.dhsStatus put.ret).Answer), cmd.ret = .DONE ∧
    [⟨.enter (.dhsBdPut c id true l) status, ()⟩, ⟨.leave (.dhsBdPut c id true l), put⟩,
      ⟨.leave (.dhsStatus put.ret), cmd⟩].Sublist tr

section Closing

variable {id : ImageId} {keywords : List Keyword} {l : DhsAvList} {status : DhsStatus} {res : Except AdapterAbort DhsStatus}

theorem Closed.puts (h : Closed id tr) : puts tr ≠ [] := by
  obtain ⟨c, l, status, put, cmd, _, hsub⟩ := h
  have hmem := hsub.subset List.mem_cons_self
  intro hnil
  have hnone := List.filterMap_eq_nil_iff.1 hnil _ hmem
  cases hnone

theorem Closed.mono {tr' : List (Act AdapterSig)} (h : Closed id tr) (hsub : tr.Sublist tr') : Closed id tr' := by
  obtain ⟨c, l, status, put, cmd, hdone, hs⟩ := h
  exact ⟨c, l, status, put, cmd, hdone, hs.trans hsub⟩

/-- A put that succeeds is done. -/
theorem PutEnd.closed (h : PutEnd id true l status tr .S_SUCCESS) : Closed id tr := by
  generalize hs : DhsStatus.S_SUCCESS = status' at h
  cases h with
  | mk c put wait cmd freed =>
    have hdone : cmd.ret = .DONE := by
      by_contra hne
      rw [if_neg hne] at hs
      cases hs
    refine ⟨c, l, status, put, cmd, hdone, ?_⟩
    refine .cons _ (.cons_cons _ (.cons_cons _ ?_))
    -- the wait and the entry of the status call stand between the put and its report
    exact .cons _ (.cons _ (.cons _ (.cons_cons _ (List.nil_sublist _))))

/-- **Closing an image**: whenever setting the last keywords succeeds the image was closed, iff there are keywords or no
connection, and no list is measured as empty. -/
theorem closed_iff (h : Ends (setImageKeywords cfg id keywords true) tr res) :
    (res = .ok .S_SUCCESS → Closed id tr) ↔
      (keywords = [] → Ends (checkConnection cfg) tr (.ok false)) ∧ ∀ size ∈ sizes tr, 0 < size := by
  obtain ⟨check, connected, rest, status, rfl, hcheck, rfl, hend⟩ := ends_setImageKeywords h
  have hapart := (check_apart hcheck).2
  cases hend with
  | unconnected =>
    refine iff_of_true (fun hres => by cases hres) ⟨fun _ => by simpa using hcheck, ?_⟩
    rw [List.append_nil, sizes, blind_measured.nil hapart]
    exact fun size hsize => absurd hsize List.not_mem_nil
  | nothing hk =>
    refine iff_of_false (fun hclosed => (hclosed rfl).puts ?_) fun hcond => ?_
    · rw [List.append_nil]
      exact blind_put.nil hapart
    · have hfalse := hcheck.unique (by simpa using hcond.1 hk)
      cases hfalse
  | busy hk =>
    refine iff_of_true (fun hres => by cases hres) ⟨fun hnil => absurd hnil hk, ?_⟩
    rw [sizes_append, sizes, blind_measured.nil hapart]
    exact fun size hsize => absurd hsize List.not_mem_nil
  | @unsized hk fill avList size status hfill hsize freed =>
    obtain ⟨hfillPuts, _, hfillSizes⟩ := hfill.observe
    have hmeasured := (blind_measured.locked hapart fill freed).trans hfillSizes
    by_cases hs : status = .S_SUCCESS
    · -- a list that is measured as empty is given back, and the status is success
      refine iff_of_false (fun hclosed => (hclosed (by rw [hs])).puts ?_) fun hcond => ?_
      · exact (blind_put.locked hapart fill freed).trans hfillPuts
      · have hpos := hcond.2 size (by rw [sizes, hmeasured, if_pos hs]; exact List.mem_singleton_self size)
        omega
    · refine iff_of_true (fun hres => absurd (Except.ok.inj hres) hs) ⟨fun hnil => absurd hnil hk, ?_⟩
      rw [sizes, hmeasured, if_neg hs]
      exact fun size hsize => absurd hsize List.not_mem_nil
  | @put hk fill acts avList size status status' hfill hsize hput freed =>
    refine iff_of_true (fun hres => ?_) ⟨fun hnil => absurd hnil hk, fun size' hsize' => ?_⟩
    · cases hres
      -- the put stands between the filling and the release
      have hsub : acts.Sublist (fill ++ acts ++ releaseActs avList freed) :=
        (List.sublist_append_right fill acts).trans (List.sublist_append_left _ _)
      exact hput.closed.mono ((hsub.cons _).trans (List.sublist_append_right check _))
    · rw [sizes, blind_measured.locked hapart, List.filterMap_append] at hsize'
      rcases List.mem_append.1 hsize' with hfilled | hstored
      · have hmem : size' ∈ sizes fill := hfilled
        rw [hfill.observe.2.2] at hmem
        split_ifs at hmem with hs
        · rw [List.mem_singleton.1 hmem]
          exact hsize
        · exact absurd hmem List.not_mem_nil
      · have hmem : size' ∈ sizes acts := hstored
        rw [hput.observe.1] at hmem
        exact absurd hmem List.not_mem_nil

end Closing

/-! ## All keywords or an error -/

/-- What is assumed of the library: a call that is given a failing status leaves one, and the size of a list is the
number of entries that were added to it. -/
structure LibraryLaws (tr : List (Act AdapterSig)) : Prop where
  failing : ∀ (f : LibCall) (status : DhsStatus) (r : f.Answer), libActs f status r <:+: tr → status ≠ .S_SUCCESS →
    r.status ≠ .S_SUCCESS
  size : ∀ (l : DhsAvList) (before after : List (Act AdapterSig)) (status : DhsStatus)
    (r : (LibCall.dhsAvListSize l).Answer), tr = before ++ (libActs (.dhsAvListSize l) status r ++ after) →
    r.status = .S_SUCCESS → r.ret = (entriesOf l before).length

/-- The connection was checked and the lock taken, every function was called, and each call left success. -/
structure AllLeft (cfg : AdapterConfig) (tr : List (Act AdapterSig)) : Prop where
  checked : ∃ check rest, tr = check ++ ⟨.timedLock, true⟩ :: rest ∧ Ends (checkConnection cfg) check (.ok true)
  left : ∀ fn : KeywordsFn, (∃ s, (fn, s) ∈ lefts tr) ∧ ∀ s, (fn, s) ∈ lefts tr → s = .S_SUCCESS
  done : ∀ s ∈ reports tr, s = .DONE

/-- What is passed to the library for a member of the union, by the type of the keyword: an integer is cut to the width
of the type, the others are passed as they are. -/
inductive Passed : DhsDataType → KeywordValue → AvValue → Prop
  | uint8 {w : BitVec 32} {v : UInt8} (h : v.toBitVec = w.setWidth 8) : Passed .UINT8 (.intVal w) (.uint8 v)
  | uint16 {w : BitVec 32} {v : UInt16} (h : v.toBitVec = w.setWidth 16) : Passed .UINT16 (.intVal w) (.uint16 v)
  | uint32 {w : BitVec 32} {v : UInt32} (h : v.toBitVec = w) : Passed .UINT32 (.intVal w) (.uint32 v)
  | int8 {w : BitVec 32} {v : Int8} (h : v.toBitVec = w.setWidth 8) : Passed .INT8 (.intVal w) (.int8 v)
  | int16 {w : BitVec 32} {v : Int16} (h : v.toBitVec = w.setWidth 16) : Passed .INT16 (.intVal w) (.int16 v)
  | int32 {w : BitVec 32} {v : Int32} (h : v.toBitVec = w) : Passed .INT32 (.intVal w) (.int32 v)
  | float (f : CFloat) : Passed .FLOAT (.floatVal f) (.float f)
  | double (d : CDouble) : Passed .DOUBLE (.doubleVal d) (.double d)
  | string (s : String) : Passed .STRING (.stringVal s) (.string s)
  | boolean (b : Bool) : Passed .BOOLEAN (.boolVal b) (.boolean b)

/-- The entry holds the keyword: its name, its type, and the value that belongs to its type. -/
structure Holds (k : Keyword) (entry : AvEntry) : Prop where
  name : entry.1 = k.name
  type : entry.2.1 = k.type
  value : Passed k.type k.value entry.2.2

/-- A single put was issued, with a list that holds the keywords. -/
def OnePut (id : ImageId) (keywords : List Keyword) (final : Bool) (tr : List (Act AdapterSig)) : Prop :=
  ∃ (before after : List (Act AdapterSig)) (c : DhsConnect) (l : DhsAvList) (status : DhsStatus),
    tr = before ++ ⟨.enter (.dhsBdPut c id final l) status, ()⟩ :: after ∧ puts before = [] ∧ puts after = [] ∧
      List.Forall₂ Holds keywords (entriesOf l before)

section Values

/-- The switch over the types passes what belongs to the type. -/
theorem passed_of_avValue {k : Keyword} {v : AvValue} (h : avValue k = .ok v) : Passed k.type k.value v := by
  obtain ⟨name, type, value, tagged⟩ := k
  cases value with
  | intVal w =>
    cases type with
    | UINT8 => cases h; exact .uint8 (BitVec.ofNat_toNat 8 w)
    | UINT16 => cases h; exact .uint16 (BitVec.ofNat_toNat 16 w)
    | UINT32 => cases h; exact .uint32 (BitVec.ofNat_toNat 32 w)
    | INT8 => cases h; exact .int8 (BitVec.signExtend_eq_setWidth_of_le w (by decide))
    | INT16 => cases h; exact .int16 (BitVec.signExtend_eq_setWidth_of_le w (by decide))
    | INT32 => cases h; exact .int32 BitVec.ofInt_toInt
    | _ => cases tagged
  | floatVal f =>
    cases type with
    | FLOAT => cases h; exact .float f
    | _ => cases tagged
  | doubleVal d =>
    cases type with
    | DOUBLE => cases h; exact .double d
    | _ => cases tagged
  | stringVal s =>
    cases type with
    | STRING => cases h; exact .string s
    | _ => cases tagged
  | boolVal b =>
    cases type with
    | BOOLEAN => cases h; exact .boolean b
    | _ => cases tagged

theorem Passed.unique {type : DhsDataType} {value : KeywordValue} {v v' : AvValue} (h : Passed type value v)
    (h' : Passed type value v') : v = v' := by
  cases h <;> cases h' <;> simp_all [← UInt8.toBitVec_inj, ← UInt16.toBitVec_inj, ← UInt32.toBitVec_inj,
    ← Int8.toBitVec_inj, ← Int16.toBitVec_inj, ← Int32.toBitVec_inj]

/-- A C++ type as it is passed to the library. -/
class PassedType (T : Type) [KeywordType T] where
  pass : T → AvValue
  avValue_of (name : String) (v : T) : avValue (Keyword.of name v) = .ok (pass v)

instance : PassedType UInt8 where
  pass := .uint8
  avValue_of name v := congrArg (Except.map AvValue.uint8) (getValue_of name v)

instance : PassedType UInt16 where
  pass := .uint16
  avValue_of name v := congrArg (Except.map AvValue.uint16) (getValue_of name v)

instance : PassedType UInt32 where
  pass := .uint32
  avValue_of name v := congrArg (Except.map AvValue.uint32) (getValue_of name v)

instance : PassedType Int8 where
  pass := .int8
  avValue_of name v := congrArg (Except.map AvValue.int8) (getValue_of name v)

instance : PassedType Int16 where
  pass := .int16
  avValue_of name v := congrArg (Except.map AvValue.int16) (getValue_of name v)

instance : PassedType Int32 where
  pass := .int32
  avValue_of name v := congrArg (Except.map AvValue.int32) (getValue_of name v)

instance : PassedType CFloat where
  pass := .float
  avValue_of name v := congrArg (Except.map AvValue.float) (getValue_of name v)

instance : PassedType CDouble where
  pass := .double
  avValue_of name v := congrArg (Except.map AvValue.double) (getValue_of name v)

instance : PassedType String where
  pass := .string
  avValue_of name v := congrArg (Except.map AvValue.string) (getValue_of name v)

instance : PassedType Bool where
  pass := .boolean
  avValue_of name v := congrArg (Except.map AvValue.boolean) (getValue_of name v)

/-- **A keyword that was made with a value** is held as that value. -/
theorem holds_of_iff {T : Type} [KeywordType T] [PassedType T] {name : String} {v : T} {entry : AvEntry} :
    Holds (Keyword.of name v) entry ↔ entry = (name, KeywordType.dataType T, PassedType.pass v) := by
  constructor
  · intro h
    exact Prod.ext h.name (Prod.ext h.type (h.value.unique (passed_of_avValue (PassedType.avValue_of name v))))
  · rintro rfl
    exact ⟨rfl, rfl, passed_of_avValue (PassedType.avValue_of name v)⟩

end Values

section Storing

variable {id : ImageId} {keywords : List Keyword} {final : Bool} {l : DhsAvList} {size : Int} {status status' : DhsStatus}

/-- A call that leaves success was given success. -/
def Sticky (tr : List (Act AdapterSig)) : Prop :=
  ∀ (f : LibCall) (status : DhsStatus) (r : f.Answer), libActs f status r <:+: tr → r.status = .S_SUCCESS →
    status = .S_SUCCESS

theorem LibraryLaws.sticky (h : LibraryLaws tr) : Sticky tr := by
  intro f status r hr hleft
  by_contra hgiven
  exact h.failing f status r hr hgiven hleft

theorem Sticky.within {tr' : List (Act AdapterSig)} (h : Sticky tr) (hsub : tr' <:+: tr) : Sticky tr' :=
  fun f status r hr => h f status r (hr.trans hsub)

/-- The loop only adds. -/
theorem AddsEnd.lefts_add (h : AddsEnd l status keywords tr status') : ∀ p ∈ lefts tr, p.1 = .avAdd := by
  induction h with
  | nil => exact fun p hp => absurd hp List.not_mem_nil
  | cons hvalue r h ih =>
    intro p hp
    rcases List.mem_cons.1 hp with rfl | hp
    · rfl
    · exact ih p hp

/-- A loop that ends with success started with it, and added every keyword. -/
theorem AddsEnd.success (h : AddsEnd l status keywords tr status') (hsticky : Sticky tr)
    (hok : status' = .S_SUCCESS) :
    status = .S_SUCCESS ∧ (∀ p ∈ lefts tr, p.2 = .S_SUCCESS) ∧ List.Forall₂ Holds keywords (entriesOf l tr) := by
  induction h with
  | nil => exact ⟨hok, fun p hp => absurd hp List.not_mem_nil, .nil⟩
  | @cons k value status status' keywords tr hvalue r h ih =>
    obtain ⟨hr, hlefts, hentries⟩ := ih (hsticky.within (List.suffix_append _ _).isInfix) hok
    refine ⟨hsticky _ _ r (List.prefix_append _ _).isInfix hr, ?_, ?_⟩
    · intro p hp
      rcases List.mem_cons.1 hp with rfl | hp
      · exact hr
      · exact hlefts p hp
    · have hadd : added? l ⟨.leave (.dhsAvAdd l k.name k.type value), r⟩ = some (k.name, k.type, value) :=
        if_pos ⟨rfl, hr⟩
      have hhead : entriesOf l (libActs (.dhsAvAdd l k.name k.type value) status r) = [(k.name, k.type, value)] :=
        List.filterMap_cons_some hadd
      rw [entriesOf_append, hhead]
      exact .cons ⟨rfl, rfl, passed_of_avValue hvalue⟩ hentries

/-- Filling a list puts nothing. -/
theorem FillEnd.not_put (h : FillEnd keywords tr l size status) (s : DhsStatus) : (.bdPut, s) ∉ lefts tr := by
  cases h with
  | mk new hadds measured =>
    rw [lefts_append, lefts_append]
    intro hmem
    rcases List.mem_append.1 hmem with hmem | hmem
    · rcases List.mem_append.1 hmem with hmem | hmem
      · cases List.mem_singleton.1 hmem
      · cases hadds.lefts_add _ hmem
    · cases List.mem_singleton.1 hmem

/-- What a filled list shows, if all of it succeeded. -/
structure Filled (keywords : List Keyword) (l : DhsAvList) (size : Int) (tr : List (Act AdapterSig)) : Prop where
  lefts : ∀ p ∈ lefts tr, p.2 = .S_SUCCESS
  entries : List.Forall₂ Holds keywords (entriesOf l tr)
  size : size = keywords.length

theorem FillEnd.success (h : FillEnd keywords tr l size status) (hsticky : Sticky tr)
    (hsize : ∀ filled given (r : (LibCall.dhsAvListSize l).Answer), tr = filled ++ libActs (.dhsAvListSize l) given r →
      r.status = .S_SUCCESS → r.ret = (entriesOf l filled).length)
    (hok : status = .S_SUCCESS) : Filled keywords l size tr := by
  cases h with
  | @mk new adds given hadds measured =>
    have hgiven : given = .S_SUCCESS := hsticky _ _ measured (List.suffix_append _ _).isInfix hok
    have hmiddle : adds <:+: libActs .dhsAvListNew .S_SUCCESS new ++ adds ++ libActs (.dhsAvListSize new.ret) given measured :=
      ⟨_, _, rfl⟩
    obtain ⟨hnew, hlefts, hentries⟩ := hadds.success (hsticky.within hmiddle) hgiven
    have hall : entriesOf new.ret (libActs .dhsAvListNew .S_SUCCESS new ++ adds) = entriesOf new.ret adds := by
      rw [entriesOf_append]
      rfl
    refine ⟨?_, ?_, ?_⟩
    · intro p hp
      rw [lefts_append, lefts_append] at hp
      rcases List.mem_append.1 hp with hp | hp
      · rcases List.mem_append.1 hp with hp | hp
        · rw [List.mem_singleton.1 hp]
          exact hnew
        · exact hlefts p hp
      · rw [List.mem_singleton.1 hp]
        exact hok
    · rw [entriesOf_append, hall]
      exact (List.append_nil (entriesOf new.ret adds)).symm ▸ hentries
    · rw [hsize _ given measured rfl hok, hall, hentries.length_eq]

/-- Filling and storing a list calls every function. -/
theorem FillEnd.called {acts : List (Act AdapterSig)} {l' : DhsAvList} {given : DhsStatus}
    (h : FillEnd keywords tr l size status) (hput : PutEnd id final l' given acts status') (hk : keywords ≠ [])
    (fn : KeywordsFn) : ∃ s, (fn, s) ∈ lefts tr ++ lefts acts := by
  cases h with
  | @mk new adds _ hadds measured =>
  cases hput with
  | mk c put wait cmd freed =>
    rw [lefts_append, lefts_append]
    cases fn with
    | avListNew =>
      exact ⟨new.status, List.mem_append_left _ (List.mem_append_left _ (List.mem_append_left _ List.mem_cons_self))⟩
    | avAdd =>
      cases hadds with
      | nil => exact absurd rfl hk
      | cons hvalue r hadds =>
        exact ⟨r.status, List.mem_append_left _ (List.mem_append_left _ (List.mem_append_right _ List.mem_cons_self))⟩
    | avListSize => exact ⟨measured.status, List.mem_append_left _ (List.mem_append_right _ List.mem_cons_self)⟩
    | bdPut => exact ⟨put.status, List.mem_append_right _ List.mem_cons_self⟩
    | wait => exact ⟨wait.status, List.mem_append_right _ (List.mem_cons_of_mem _ List.mem_cons_self)⟩
    | status =>
      exact ⟨cmd.status, List.mem_append_right _ (List.mem_cons_of_mem _ (List.mem_cons_of_mem _ List.mem_cons_self))⟩

/-- A put succeeds iff all its calls do and it is done. -/
theorem PutEnd.success_iff (h : PutEnd id final l status tr status') (hsticky : Sticky tr) :
    (status' = .S_SUCCESS ↔ (∀ p ∈ lefts tr, p.2 = .S_SUCCESS) ∧ ∀ s ∈ reports tr, s = .DONE) ∧
      (status' = .S_SUCCESS → status = .S_SUCCESS) := by
  cases h with
  | mk c put wait cmd freed =>
    have hput := hsticky (.dhsBdPut c id final l) status put ⟨[_], _, rfl⟩
    have hwait := hsticky (.dhsWait put.ret) put.status wait ⟨[_, _, _], _, rfl⟩
    have hcmd := hsticky (.dhsStatus put.ret) wait.status cmd ⟨[_, _, _, _, _], _, rfl⟩
    have hsuccess : (if cmd.ret = .DONE then cmd.status else .E_CTL_CMD) = .S_SUCCESS ↔
        cmd.ret = .DONE ∧ cmd.status = .S_SUCCESS := by
      by_cases hdone : cmd.ret = .DONE
      · simp [hdone]
      · simp [hdone]
    rw [hsuccess]
    refine ⟨?_, fun h => hput (hwait (hcmd h.2))⟩
    constructor
    · intro ⟨hdone, hok⟩
      refine ⟨?_, ?_⟩
      · show ∀ p ∈ [(KeywordsFn.bdPut, put.status), (.wait, wait.status), (.status, cmd.status)], p.2 = .S_SUCCESS
        simp [hok, hcmd hok, hwait (hcmd hok)]
      · intro s hs
        rw [List.mem_singleton.1 hs]
        exact hdone
    · intro ⟨hlefts, hreports⟩
      exact ⟨hreports _ (List.mem_singleton_self _),
        hlefts (.status, cmd.status) (List.mem_cons_of_mem _ (List.mem_cons_of_mem _ (List.mem_singleton_self _)))⟩

/-- Without success and without a put there is nothing to show. -/
theorem not_stored (hne : status ≠ .S_SUCCESS) (hnone : ∀ s, (.bdPut, s) ∉ lefts tr) :
    ((Except.ok status : Except AdapterAbort DhsStatus) = .ok .S_SUCCESS ↔ AllLeft cfg tr) ∧
      ((Except.ok status : Except AdapterAbort DhsStatus) = .ok .S_SUCCESS → OnePut id keywords final tr) := by
  refine ⟨iff_of_false (fun hres => hne (Except.ok.inj hres)) fun hall => ?_,
    fun hres => absurd (Except.ok.inj hres) hne⟩
  obtain ⟨s, hs⟩ := (hall.left .bdPut).1
  exact hnone s hs

/-- The size of a list that is filled after the check. -/
theorem LibraryLaws.filled {fill after : List (Act AdapterSig)} (hcheck : ∀ a ∈ tr, Apart a.cmd)
    (h : LibraryLaws (tr ++ ⟨.timedLock, true⟩ :: (fill ++ after))) (filled : List (Act AdapterSig)) (given : DhsStatus)
    (r : (LibCall.dhsAvListSize l).Answer) (hfill : fill = filled ++ libActs (.dhsAvListSize l) given r)
    (hok : r.status = .S_SUCCESS) : r.ret = (entriesOf l filled).length := by
  rw [h.size l (tr ++ ⟨.timedLock, true⟩ :: filled) after given r (by simp [hfill]) hok, entriesOf,
    (blind_added l).unlocked hcheck]
  rfl

/-- A put of a filled list is the one that is shown. -/
theorem PutEnd.onePut {before after : List (Act AdapterSig)} (h : PutEnd id final l status tr status')
    (hbefore : puts before = []) (hafter : puts after = []) (hentries : List.Forall₂ Holds keywords (entriesOf l before)) :
    OnePut id keywords final (before ++ (tr ++ after)) := by
  cases h with
  | mk c put wait cmd freed =>
    refine ⟨before ++ [⟨.getConnection, c⟩], _, c, l, status, by simp [libActs]; rfl, ?_, ?_, ?_⟩
    · rw [puts_append, hbefore]
      rfl
    · exact hafter
    · rw [entriesOf_append]
      exact (List.append_nil (entriesOf l before)).symm ▸ hentries

/-- **All keywords or an error.** -/
theorem stored_iff {res : Except AdapterAbort DhsStatus} (hk : keywords ≠ [])
    (h : Ends (setImageKeywords cfg id keywords final) tr res) (hlib : LibraryLaws tr) :
    (res = .ok .S_SUCCESS ↔ AllLeft cfg tr) ∧ (res = .ok .S_SUCCESS → OnePut id keywords final tr) := by
  obtain ⟨check, connected, rest, result, rfl, hcheck, rfl, hend⟩ := ends_setImageKeywords h
  have hapart := (check_apart hcheck).2
  cases hend with
  | unconnected =>
    refine not_stored (by decide) fun s hs => ?_
    rw [List.append_nil, lefts, blind_left.nil hapart] at hs
    exact absurd hs List.not_mem_nil
  | nothing hk' => exact absurd hk' hk
  | busy =>
    refine not_stored (by decide) fun s hs => ?_
    rw [lefts, blind_left.unlocked hapart] at hs
    exact absurd hs List.not_mem_nil
  | @unsized _ fill avList size _ hfill hsize freed =>
    refine not_stored (fun hok => ?_) fun s hs => ?_
    · have hsticky : Sticky fill :=
        hlib.sticky.within ⟨check ++ [⟨.timedLock, true⟩], releaseActs avList freed, by simp⟩
      have hlen := (hfill.success hsticky (hlib.filled hapart) hok).size
      have hpos := List.length_pos_iff.2 hk
      omega
    · rw [lefts, blind_left.locked hapart] at hs
      exact hfill.not_put s hs
  | @put _ fill acts avList size status _ hfill hsize hput freed =>
    have hstickyFill : Sticky fill :=
      hlib.sticky.within ⟨check ++ [⟨.timedLock, true⟩], acts ++ releaseActs avList freed, by simp⟩
    have hstickyPut : Sticky acts :=
      hlib.sticky.within ⟨check ++ ⟨.timedLock, true⟩ :: fill, releaseActs avList freed, by simp⟩
    obtain ⟨hiff, hgiven⟩ := hput.success_iff hstickyPut
    have hfilled : result = .S_SUCCESS → Filled keywords avList size fill := by
      intro hok
      rw [List.append_assoc] at hlib
      exact hfill.success hstickyFill (hlib.filled hapart) (hgiven hok)
    have hall : lefts (check ++ ⟨.timedLock, true⟩ :: (fill ++ acts ++ releaseActs avList freed)) =
        lefts fill ++ lefts acts := (blind_left.locked hapart _ _).trans lefts_append
    have hreported : reports (check ++ ⟨.timedLock, true⟩ :: (fill ++ acts ++ releaseActs avList freed)) =
        reports acts := by
      refine (blind_reported.locked hapart _ _).trans ?_
      rw [List.filterMap_append]
      exact congrArg (· ++ reports acts) hfill.observe.2.1
    refine ⟨⟨fun hres => ?_, fun hleft => ?_⟩, fun hres => ?_⟩
    · have hok := Except.ok.inj hres
      obtain ⟨hputLefts, hputReports⟩ := hiff.1 hok
      refine ⟨⟨check, _, rfl, hcheck⟩, fun fn => ?_, by rwa [hreported]⟩
      rw [hall]
      refine ⟨hfill.called hput hk fn, fun s hs => ?_⟩
      rcases List.mem_append.1 hs with hs | hs
      · exact (hfilled hok).lefts _ hs
      · exact hputLefts _ hs
    · have hputLefts : ∀ p ∈ lefts acts, p.2 = .S_SUCCESS := fun p hp =>
        (hleft.left p.1).2 p.2 (by rw [hall]; exact List.mem_append_right _ hp)
      have hputReports : ∀ s ∈ reports acts, s = .DONE := hreported ▸ hleft.done
      rw [hiff.2 ⟨hputLefts, hputReports⟩]
    · have hbefore : puts (check ++ ⟨.timedLock, true⟩ :: fill) = [] :=
        (blind_put.unlocked hapart true fill).trans hfill.observe.1
      have hafter : puts (releaseActs avList freed) = [] := blind_put.nil (apart_release freed)
      have hentries : List.Forall₂ Holds keywords (entriesOf avList (check ++ ⟨.timedLock, true⟩ :: fill)) := by
        rw [entriesOf, (blind_added avList).unlocked hapart]
        exact (hfilled (Except.ok.inj hres)).entries
      simpa using hput.onePut hbefore hafter hentries

end Storing

/-- The call is given success. -/
def GivenSuccess : Act AdapterSig → Prop
  | ⟨.enter _ status, _⟩ => status = .S_SUCCESS
  | _ => True

/-- The check of a connection that is there. -/
def connectedTrace : List (Act AdapterSig) :=
  [⟨.timedLock, true⟩, ⟨.getIsConnected, true⟩, ⟨.unlock, ()⟩, ⟨.getIsConnected, true⟩]

/-- Entries that are added. -/
def storedAdds (l : DhsAvList) (entries : List AvEntry) : List (Act AdapterSig) :=
  entries.flatMap fun e => libActs (.dhsAvAdd l e.1 e.2.1 e.2.2) .S_SUCCESS ⟨(), .S_SUCCESS⟩

/-- A list that is made and filled under the lock. -/
def storedFill (l : DhsAvList) (entries : List AvEntry) : List (Act AdapterSig) :=
  ⟨.timedLock, true⟩ :: (libActs .dhsAvListNew .S_SUCCESS ⟨l, .S_SUCCESS⟩ ++ storedAdds l entries)

/-- A list that has its size is put. -/
def storedPut (c : DhsConnect) (l : DhsAvList) (tag : DhsTag) (size : Int) (id : ImageId) (final : Bool) :
    List (Act AdapterSig) :=
  [⟨.leave (.dhsAvListSize l), ⟨size, .S_SUCCESS⟩⟩, ⟨.getConnection, c⟩] ++
    libActs (.dhsBdPut c id final l) .S_SUCCESS ⟨tag, .S_SUCCESS⟩ ++
    libActs (.dhsWait tag) .S_SUCCESS ⟨(), .S_SUCCESS⟩ ++
    libActs (.dhsStatus tag) .S_SUCCESS ⟨.DONE, .S_SUCCESS⟩ ++
    libActs (.dhsTagFree tag) .S_SUCCESS ⟨(), .S_SUCCESS⟩ ++
    releaseActs l ⟨(), .S_SUCCESS⟩

/-- Entries that are stored under the lock. -/
def storedSection (c : DhsConnect) (l : DhsAvList) (tag : DhsTag) (id : ImageId) (entries : List AvEntry) (final : Bool) :
    List (Act AdapterSig) :=
  storedFill l entries ++ ⟨.enter (.dhsAvListSize l) .S_SUCCESS, ()⟩ :: storedPut c l tag entries.length id final

/-- Keywords that are stored as these entries, over a connection that is there. -/
def storedTrace (c : DhsConnect) (l : DhsAvList) (tag : DhsTag) (id : ImageId) (entries : List AvEntry) (final : Bool) :
    List (Act AdapterSig) :=
  connectedTrace ++ storedSection c l tag id entries final

section Stored

variable {entries : List AvEntry}

theorem entriesOf_storedAdds (l : DhsAvList) : ∀ entries, entriesOf l (storedAdds l entries) = entries
  | [] => rfl
  | e :: entries => by
    have hadd : added? l ⟨.leave (.dhsAvAdd l e.1 e.2.1 e.2.2), ⟨(), .S_SUCCESS⟩⟩ = some e := if_pos ⟨rfl, rfl⟩
    have hhead : entriesOf l (libActs (.dhsAvAdd l e.1 e.2.1 e.2.2) .S_SUCCESS ⟨(), .S_SUCCESS⟩) = [e] :=
      List.filterMap_cons_some hadd
    rw [storedAdds, List.flatMap_cons, entriesOf_append, hhead]
    exact congrArg (e :: ·) (entriesOf_storedAdds l entries)

theorem entriesOf_filled (l : DhsAvList) : entriesOf l (connectedTrace ++ storedFill l entries) = entries := by
  have hfill : entriesOf l (storedFill l entries) =
      entriesOf l (libActs .dhsAvListNew .S_SUCCESS ⟨l, .S_SUCCESS⟩ ++ storedAdds l entries) := rfl
  rw [entriesOf_append, hfill, entriesOf_append, entriesOf_storedAdds]
  rfl

theorem libraryLaws_stored (c : DhsConnect) (l : DhsAvList) (tag : DhsTag) (id : ImageId) (final : Bool) :
    LibraryLaws (storedTrace c l tag id entries final) where
  failing f status r hr hne := by
    have hadds : ∀ a ∈ storedAdds l entries, GivenSuccess a := by
      intro a ha
      obtain ⟨e, _, ha⟩ := List.mem_flatMap.1 ha
      rcases List.mem_cons.1 ha with rfl | ha
      · exact rfl
      · rw [List.mem_singleton.1 ha]
        trivial
    have hgiven : ∀ a ∈ storedTrace c l tag id entries final, GivenSuccess a := by
      simpa [storedTrace, connectedTrace, storedSection, storedFill, storedPut, libActs, releaseActs, GivenSuccess, or_imp,
        forall_and] using hadds
    exact absurd (hgiven ⟨.enter f status, ()⟩ (hr.subset List.mem_cons_self)) hne
  size l' before after status r htr hok := by
    rw [storedTrace, storedSection, ← List.append_assoc] at htr
    -- the size is asked for once
    have hstart : (⟨.enter (.dhsAvListSize l') status, ()⟩ : Act AdapterSig) ∉ connectedTrace ++ storedFill l entries := by
      simp [connectedTrace, storedFill, storedAdds, libActs]
    have hrest : (⟨.enter (.dhsAvListSize l') status, ()⟩ : Act AdapterSig) ∉
        storedPut c l tag entries.length id final := by
      simp [storedPut, libActs, releaseActs]
    obtain ⟨rfl, hsize, hafter⟩ := (List.append_cons_inj_of_notMem hstart hrest).1 htr
    cases hsize
    cases hafter
    rw [entriesOf_filled]

/-- Adding the keywords, if every addition leaves success. -/
theorem path_adds {α : Type} {l : DhsAvList} {keywords : List Keyword} {k : DhsStatus → Adapter α}
    {acts : List (Act AdapterSig)} {q : Adapter α} (h : List.Forall₂ Holds keywords entries)
    (hk : Path (k .S_SUCCESS) acts q) :
    Path (keywords.foldlM (addKeyword l) .S_SUCCESS >>= k) (storedAdds l entries ++ acts) q := by
  induction h with
  | nil => exact hk
  | @cons keyword e keywords entries hholds _ ih =>
    obtain ⟨value, hvalue⟩ := avValue_isOk keyword
    obtain ⟨name, type, value'⟩ := e
    obtain ⟨rfl, rfl, hpassed⟩ := hholds
    obtain rfl : value' = value := hpassed.unique (passed_of_avValue hvalue)
    rw [List.foldlM_cons, addKeyword, hvalue]
    exact .cons _ (.cons _ ih)

/-- **Keywords are stored** over a connection that is there. -/
theorem ends_stored (cfg : AdapterConfig) (c : DhsConnect) (l : DhsAvList) (tag : DhsTag) (id : ImageId)
    {keywords : List Keyword} (final : Bool) (hk : keywords ≠ []) (h : List.Forall₂ Holds keywords entries) :
    Ends (setImageKeywords cfg id keywords final) (storedTrace c l tag id entries final) (.ok .S_SUCCESS) := by
  have hsome : keywords.isEmpty = false := by simpa using hk
  have hsize : (entries.length : Int) > 0 := by
    rw [← h.length_eq]
    exact Int.natCast_pos.2 (List.length_pos_iff.2 hk)
  unfold setImageKeywords storedTrace connectedTrace storedSection storedFill
  simp only [hsome, List.cons_append, List.append_assoc]
  -- the check of the connection, the lock and the new list
  iterate 7 apply Path.cons
  refine path_adds h (.cons _ (.cons _ ?_))
  show Path (if (entries.length : Int) > 0 then _ else _) _ _
  rw [if_pos hsize]
  repeat first | exact Path.nil _ | apply Path.cons

end Stored

/-- Keywords of several types. -/
def objectKeywords : List Keyword :=
  [Keyword.of "OBJECT" "M33", Keyword.of "EXPOSED" (-30 : Int16), Keyword.of "GAIN" (200 : UInt8), Keyword.of "DARK" true]

/-- What is stored for them. -/
def objectEntries : List AvEntry :=
  [("OBJECT", .STRING, .string "M33"), ("EXPOSED", .INT16, .int16 (-30)), ("GAIN", .UINT8, .uint8 200),
    ("DARK", .BOOLEAN, .boolean true)]

theorem holds_object : List.Forall₂ Holds objectKeywords objectEntries :=
  .cons (holds_of_iff.2 rfl) (.cons (holds_of_iff.2 rfl) (.cons (holds_of_iff.2 rfl) (.cons (holds_of_iff.2 rfl) .nil)))

/-- The keywords stored for an image. -/
def objectTrace : List (Act AdapterSig) := storedTrace (.handle 0) ⟨0⟩ ⟨0⟩ "GS1" objectEntries true

theorem stored_iff_object :
    ((Except.ok .S_SUCCESS : Except AdapterAbort DhsStatus) = .ok .S_SUCCESS ↔
      AllLeft ⟨"translator", "localhost", "dhs"⟩ objectTrace) ∧
    ((Except.ok .S_SUCCESS : Except AdapterAbort DhsStatus) = .ok .S_SUCCESS →
      OnePut "GS1" objectKeywords true objectTrace) :=
  stored_iff (List.cons_ne_nil _ _) (ends_stored _ _ _ _ "GS1" true (List.cons_ne_nil _ _) holds_object)
    (libraryLaws_stored _ _ _ "GS1" true)

end DhsTranslator
