import DhsTranslator.Adapter.Keywords
import DhsTranslator.Adapter.Safety
import DhsTranslator.Conc.Permitted

/-!
# The lists of the client library

What the library holds for the adapter: attribute value lists, commands under way, and what was put into images. A call
under way owns its list and its command; nobody else can touch them, since library calls are made under the lock.

- `Library`, `librarySem`: what is assumed of the library: a call that is given a failing status leaves one and does
  nothing, and a list has the size of its entries;
- `Draft` is what a call knows of its list, `drafting jobs` the discipline of putting only what is among the `jobs`, and
  `follows_draft_setImageKeywords`: setting keywords follows it, and leaves success only if the keywords were stored;
- `Drafts` ties the drafts of all calls to the library; every step keeps it (`keeps_drafts`);
- `exec_stored`, `library_stores`: what storing entries without a failure does to the adapter and to the library.
-/

namespace DhsTranslator

open Conc DhsAdapter

/-! ## The library -/

/-- A list that is put into an image. -/
structure Put where
  id : ImageId
  final : Bool
  entries : List AvEntry

/-- What the library holds for threads in `ι`. -/
structure Library (ι : Type) where
  /-- the status that the call a thread is inside of was given -/
  given : ι → DhsStatus
  lists : DhsAvList → Option (List AvEntry)
  /-- the puts under way -/
  tags : DhsTag → Option Put
  issued : List Put
  /-- those that were reported as done -/
  done : List Put

section Semantics

variable {ι : Type}

/-- What a call does that leaves success. -/
def Library.did (L : Library ι) : (f : LibCall) → f.Ret → Library ι
  | .dhsAvListNew, l => { L with lists := Function.update L.lists l (some []) }
  | .dhsAvAdd l name type value, _ =>
    { L with lists := Function.update L.lists l ((L.lists l).map (· ++ [(name, type, value)])) }
  | .dhsBdPut _ id final l, tag =>
    { L with
      tags := Function.update L.tags tag ((L.lists l).map (Put.mk id final))
      issued := L.issued ++ ((L.lists l).map (Put.mk id final)).toList }
  | .dhsStatus tag, .DONE => { L with done := L.done ++ (L.tags tag).toList }
  | _, _ => L

/-- What a call does; what is given back is given back in any case. -/
def Library.after (L : Library ι) (f : LibCall) (r : f.Answer) : Library ι :=
  match f with
  | .dhsAvListFree l => { L with lists := Function.update L.lists l none }
  | .dhsTagFree tag => { L with tags := Function.update L.tags tag none }
  | f => if r.status = .S_SUCCESS then L.did f r.ret else L

/-- What a call answers: new lists and tags are not in use, and a list has the size of its entries. -/
def Library.Answers (L : Library ι) : (f : LibCall) → f.Answer → Prop
  | .dhsAvListNew, r => L.lists r.ret = none
  | .dhsAvListSize l, r => ∀ es, L.lists l = some es → r.status = .S_SUCCESS → r.ret = es.length
  | .dhsBdPut _ _ _ _, r => L.tags r.ret = none
  | _, _ => True

/-- What is assumed of the library. -/
def librarySem [DecidableEq ι] : Sem ι (Library ι) AdapterSig
  | i, L, ⟨.enter _ status, _⟩, L' => L' = { L with given := Function.update L.given i status }
  | i, L, ⟨.leave f, r⟩, L' => (r.status = .S_SUCCESS → L.given i = .S_SUCCESS) ∧ L.Answers f r ∧ L' = L.after f r
  | _, L, _, L' => L' = L

end Semantics

/-! ## Drafts -/

/-- What a call under way has in the library; `ok` if all its calls left success so far. -/
inductive Draft where
  | nothing
  | list (l : DhsAvList) (es : List AvEntry) (ok : Bool)
  | put (l : DhsAvList) (tag : DhsTag) (p : Put) (ok : Bool)
  /-- the command is given back, the list is not -/
  | stored (l : DhsAvList)

namespace Draft

/-- The library call is about what the call has, and it is given success only if all of it is well. -/
def Fits (jobs : Put → Prop) (status : DhsStatus) (d : Draft) : LibCall → Prop
  | .dhsAvAdd l _ _ _ | .dhsAvListSize l => ∃ es ok, d = .list l es ok ∧ (status = .S_SUCCESS → ok = true)
  | .dhsBdPut _ id final l =>
    ∃ es ok, d = .list l es ok ∧ (status = .S_SUCCESS → ok = true) ∧ jobs ⟨id, final, es⟩
  | .dhsWait tag | .dhsStatus tag => ∃ l p ok, d = .put l tag p ok ∧ (status = .S_SUCCESS → ok = true)
  | .dhsTagFree tag => ∃ l p ok, d = .put l tag p ok
  | .dhsAvListFree l => (∃ es ok, d = .list l es ok) ∨ d = .stored l
  | _ => d = .nothing

/-- What the call has after a library call. -/
def after : Draft → (f : LibCall) → f.Answer → Draft
  | _, .dhsAvListNew, r => .list r.ret [] (r.status = .S_SUCCESS)
  | .list l es _, .dhsAvAdd _ name type value, r => .list l (es ++ [(name, type, value)]) (r.status = .S_SUCCESS)
  | .list l es _, .dhsAvListSize _, r => .list l es (r.status = .S_SUCCESS)
  | .list l es _, .dhsBdPut _ id final _, r => .put l r.ret ⟨id, final, es⟩ (r.status = .S_SUCCESS)
  | .put l tag p _, .dhsWait _, r => .put l tag p (r.status = .S_SUCCESS)
  | .put l tag p _, .dhsStatus _, r => .put l tag p (r.status = .S_SUCCESS)
  | .put l _ _ _, .dhsTagFree _, _ => .stored l
  | _, .dhsAvListFree _, _ => .nothing
  | d, _, _ => d

/-- The put that is reported as done. -/
def reported : Draft → (f : LibCall) → f.Answer → List Put
  | .put _ _ p _, .dhsStatus _, ⟨.DONE, .S_SUCCESS⟩ => [p]
  | _, _, _ => []

/-- A size that no list with the entries has. -/
def mismeasured : Draft → (f : LibCall) → f.Answer → Bool
  | .list _ es _, .dhsAvListSize _, ⟨n, .S_SUCCESS⟩ => n ≠ es.length
  | _, _, _ => false

end Draft

/-- Where a call is with its list, what it has stored, and whether a size was wrong. -/
structure DraftPhase where
  draft : Draft
  given : DhsStatus
  stored : List Put
  broken : Bool

/-- After a library call. -/
def DraftPhase.left (φ : DraftPhase) (f : LibCall) (r : f.Answer) : DraftPhase :=
  ⟨φ.draft.after f r, φ.given, φ.stored ++ φ.draft.reported f r, φ.broken || φ.draft.mismeasured f r⟩

/-- The discipline: the lock is given back with nothing left, and only jobs are put. -/
def drafting (jobs : Put → Prop) : Discipline AdapterSig DraftPhase where
  may
    | φ, .unlock => φ.draft = .nothing
    | φ, .enter f status => φ.draft.Fits jobs status f
    | φ, .leave f => φ.draft.Fits jobs φ.given f
    | _, _ => True
  next
    | φ, ⟨.enter _ status, _⟩ => { φ with given := status }
    | φ, ⟨.leave f, r⟩ => φ.left f r
    | φ, _ => φ

/-! ## The operations follow it -/

section Commands

variable {jobs : Put → Prop} {φ : DraftPhase}

@[simp] theorem follows_draft_timedLock {Q : Except AdapterAbort Bool → DraftPhase → Prop} :
    Follows (drafting jobs) timedLock φ Q ↔ ∀ b, Q (.ok b) φ := by
  simp [timedLock, drafting]

@[simp] theorem follows_draft_unlock {Q : Except AdapterAbort Unit → DraftPhase → Prop} :
    Follows (drafting jobs) unlock φ Q ↔ φ.draft = .nothing ∧ Q (.ok ()) φ := by
  simp only [unlock, drafting, follows_call, follows_ret]
  exact and_congr_right fun _ => ⟨fun h => h (), fun h _ => h⟩

@[simp] theorem follows_draft_getIsConnected {Q : Except AdapterAbort Bool → DraftPhase → Prop} :
    Follows (drafting jobs) getIsConnected φ Q ↔ ∀ b, Q (.ok b) φ := by
  simp [getIsConnected, drafting]

@[simp] theorem follows_draft_getConnection {Q : Except AdapterAbort DhsConnect → DraftPhase → Prop} :
    Follows (drafting jobs) getConnection φ Q ↔ ∀ c, Q (.ok c) φ := by
  simp [getConnection, drafting]

/-- A library call. -/
theorem follows_draft_lib {d : Draft} {f : LibCall} {status : DhsStatus}
    {Q : Except AdapterAbort f.Answer → DraftPhase → Prop} (hφ : φ.draft = d) (hfits : d.Fits jobs status f)
    (hQ : ∀ r ψ, ψ.draft = d.after f r → ψ.stored = φ.stored ++ d.reported f r →
      ψ.broken = (φ.broken || d.mismeasured f r) → Q (.ok r) ψ) : Follows (drafting jobs) (lib f status) φ Q := by
  subst hφ
  exact ⟨hfits, fun _ => ⟨hfits, fun r => hQ r _ rfl rfl rfl⟩⟩

end Commands

section Operations

variable {α : Type} {jobs : Put → Prop} {φ : DraftPhase} {cfg : AdapterConfig}

theorem follows_draft_check {Q : Except AdapterAbort Bool → DraftPhase → Prop} (hφ : φ.draft = .nothing)
    (h : ∀ b ψ, ψ.draft = .nothing → Q (.ok b) ψ) : Follows (drafting jobs) (checkConnection cfg) φ Q := by
  have hend : ∀ ψ : DraftPhase, ψ.draft = .nothing → Follows (drafting jobs) (do unlock; getIsConnected) ψ Q := by
    intro ψ hψ
    rw [follows_bind, follows_draft_unlock]
    refine ⟨hψ, ?_⟩
    rw [then_ok, follows_draft_getIsConnected]
    exact fun b => h b ψ hψ
  unfold checkConnection
  rw [follows_bind, follows_draft_timedLock]
  intro locked
  cases locked with
  | false => exact h false φ hφ
  | true =>
    simp only [then_ok, Bool.not_true, Bool.false_eq_true, if_false]
    rw [follows_bind, follows_draft_getIsConnected]
    intro connected
    cases connected with
    | true => exact hend φ hφ
    | false =>
      simp only [then_ok, Bool.not_false, if_true]
      rw [follows_bind]
      refine follows_draft_lib hφ rfl fun r ψ hψ _ _ => ?_
      -- the two fields are assigned
      exact ⟨trivial, fun _ => ⟨trivial, fun _ => hend ψ hψ⟩⟩

/-- An operation goes on only with a connection. -/
theorem follows_draft_connected {a : α} {p : Adapter α} {Q : Except AdapterAbort α → DraftPhase → Prop}
    (hφ : φ.draft = .nothing) (ha : ∀ ψ, ψ.draft = .nothing → Q (.ok a) ψ)
    (hp : ∀ ψ, ψ.draft = .nothing → Follows (drafting jobs) p ψ Q) :
    Follows (drafting jobs) (do if !(← checkConnection cfg) then return a else p) φ Q := by
  rw [follows_bind]
  refine follows_draft_check hφ fun b ψ hψ => ?_
  cases b with
  | false => exact ha ψ hψ
  | true => exact hp ψ hψ

/-- And only with the lock. -/
theorem follows_draft_locked {a : α} {p : Adapter α} {Q : Except AdapterAbort α → DraftPhase → Prop}
    (ha : Q (.ok a) φ) (hp : Follows (drafting jobs) p φ Q) :
    Follows (drafting jobs) (do if !(← timedLock) then return a else p) φ Q := by
  rw [follows_bind, follows_draft_timedLock]
  intro locked
  cases locked with
  | false => exact ha
  | true => exact hp

/-- Nothing is left under way. -/
def Clean : Except AdapterAbort α → DraftPhase → Prop := fun _ φ => φ.draft = .nothing

/-- One library call in a critical section. -/
theorem follows_draft_section {a : α} {f : DhsConnect → LibCall} {status : DhsStatus}
    {k : (c : DhsConnect) → (f c).Answer → Adapter α} (hφ : φ.draft = .nothing)
    (hf : ∀ c, Draft.nothing.Fits jobs status (f c)) (hafter : ∀ c r, Draft.nothing.after (f c) r = .nothing)
    (hk : ∀ c r ψ, ψ.draft = .nothing → Follows (drafting jobs) (k c r) ψ Clean) :
    Follows (drafting jobs) (do
      if !(← timedLock) then return a
      else
        let connection ← getConnection
        let answer ← lib (f connection) status
        unlock
        k connection answer) φ Clean := by
  refine follows_draft_locked hφ ?_
  rw [follows_bind, follows_draft_getConnection]
  intro c
  rw [then_ok, follows_bind]
  refine follows_draft_lib hφ (hf c) fun r ψ hψ _ _ => ?_
  rw [hafter] at hψ
  rw [then_ok, follows_bind, follows_draft_unlock]
  exact ⟨hψ, hk c r ψ hψ⟩

theorem follows_draft_createImage (hφ : φ.draft = .nothing) (id : ImageId) :
    Follows (drafting jobs) (createImage cfg id) φ Clean := by
  refine follows_draft_connected hφ (fun _ h => h) fun ψ hψ => ?_
  refine follows_draft_section hψ (fun _ => rfl) (fun _ _ => rfl) fun c r χ hχ => ?_
  obtain ⟨newId, status⟩ := r
  by_cases hs : status = .S_SUCCESS
  · cases newId <;> simp [hs, Clean, hχ]
  · simp [hs, Clean, hχ]

theorem follows_draft_setImageLifeTime (hφ : φ.draft = .nothing) (id : ImageId) (lifeTime : DhsBdLifetime) :
    Follows (drafting jobs) (setImageLifeTime cfg id lifeTime) φ Clean :=
  follows_draft_connected hφ (fun _ h => h) fun _ hψ =>
    follows_draft_section hψ (fun _ => rfl) (fun _ _ => rfl) fun _ _ _ hχ => hχ

theorem follows_draft_setImageContrib (hφ : φ.draft = .nothing) (id : ImageId) (contribs : List String) :
    Follows (drafting jobs) (setImageContrib cfg id contribs) φ Clean := by
  refine follows_draft_connected hφ (fun _ h => h) fun ψ hψ => ?_
  split
  · exact hψ
  · exact follows_draft_section hψ (fun _ => rfl) (fun _ _ => rfl) fun _ _ _ hχ => hχ

/-! ### Setting keywords -/

/-- The loop adds every keyword to the list. -/
theorem follows_draft_addKeywords {l : DhsAvList} {es : List AvEntry} {ok : Bool} {keywords : List Keyword}
    {status : DhsStatus} {Q : Except AdapterAbort DhsStatus → DraftPhase → Prop} (hφ : φ.draft = .list l es ok)
    (hok : status = .S_SUCCESS → ok = true)
    (hQ : ∀ status' ψ es' ok', ψ.draft = .list l (es ++ es') ok' → (status' = .S_SUCCESS → ok' = true) →
      List.Forall₂ Holds keywords es' → Q (.ok status') ψ) :
    Follows (drafting jobs) (keywords.foldlM (addKeyword l) status) φ Q := by
  induction keywords generalizing φ es ok status with
  | nil => exact hQ status φ [] ok (by rw [hφ, List.append_nil]) hok .nil
  | cons k keywords ih =>
    obtain ⟨value, hvalue⟩ := avValue_isOk k
    rw [List.foldlM_cons, follows_bind, addKeyword, hvalue, eval, Prog.ret_bind, follows_bind]
    refine follows_draft_lib hφ ⟨es, ok, rfl, hok⟩ fun r ψ hψ _ _ => ?_
    refine ih hψ (by simp) fun status' χ es' ok' hχ hok' hall => ?_
    refine hQ status' χ ((k.name, k.type, value) :: es') ok' ?_ hok' (.cons ⟨rfl, rfl, passed_of_avValue hvalue⟩ hall)
    rw [hχ, List.append_assoc]
    rfl

/-- A put that succeeds is stored. -/
theorem follows_draft_putAvList {id : ImageId} {final : Bool} {l : DhsAvList} {es : List AvEntry} {ok : Bool}
    {status : DhsStatus} {Q : Except AdapterAbort DhsStatus → DraftPhase → Prop} (hφ : φ.draft = .list l es ok)
    (hok : status = .S_SUCCESS → ok = true) (hjob : jobs ⟨id, final, es⟩)
    (hQ : ∀ status' ψ, ψ.draft = .stored l → (status' = .S_SUCCESS → ⟨id, final, es⟩ ∈ ψ.stored) → Q (.ok status') ψ) :
    Follows (drafting jobs) (putAvList id final l status) φ Q := by
  unfold putAvList
  rw [follows_bind, follows_draft_getConnection]
  intro c
  rw [then_ok, follows_bind]
  refine follows_draft_lib hφ ⟨es, ok, rfl, hok, hjob⟩ fun put ψ₁ h₁ _ _ => ?_
  rw [then_ok, follows_bind]
  refine follows_draft_lib h₁ ⟨l, _, _, rfl, by simp⟩ fun wait ψ₂ h₂ _ _ => ?_
  rw [then_ok, follows_bind]
  refine follows_draft_lib h₂ ⟨l, _, _, rfl, by simp⟩ fun cmd ψ₃ h₃ hstored _ => ?_
  rw [then_ok, follows_bind]
  refine follows_draft_lib h₃ ⟨l, _, _, rfl⟩ fun freed ψ₄ h₄ hkept _ => ?_
  refine hQ _ ψ₄ h₄ fun hsuccess => ?_
  obtain ⟨cmdStatus, status'⟩ := cmd
  rw [hkept, hstored]
  cases cmdStatus with
  | DONE =>
    obtain rfl : status' = .S_SUCCESS := hsuccess
    simp [Draft.reported, Draft.after]
  | other code => cases hsuccess

/-- Nothing is left under way, and after success all keywords are stored, if the sizes were right. -/
def Delivers (id : ImageId) (keywords : List Keyword) (final : Bool) : Except AdapterAbort DhsStatus → DraftPhase → Prop :=
  fun res φ => φ.draft = .nothing ∧ (res = .ok .S_SUCCESS → keywords ≠ [] → φ.broken = true ∨
    ∃ es, List.Forall₂ Holds keywords es ∧ ⟨id, final, es⟩ ∈ φ.stored)

theorem follows_draft_setImageKeywords (hφ : φ.draft = .nothing) {id : ImageId} {keywords : List Keyword} {final : Bool}
    (hjobs : ∀ es, List.Forall₂ Holds keywords es → jobs ⟨id, final, es⟩) :
    Follows (drafting jobs) (setImageKeywords cfg id keywords final) φ (Delivers id keywords final) := by
  have hend : ∀ {l : DhsAvList} {status : DhsStatus} {ψ : DraftPhase},
      (∃ es ok, ψ.draft = .list l es ok) ∨ ψ.draft = .stored l →
      (status = .S_SUCCESS → ψ.broken = true ∨ ∃ es, List.Forall₂ Holds keywords es ∧ ⟨id, final, es⟩ ∈ ψ.stored) →
      Follows (drafting jobs) (do let _ ← lib (.dhsAvListFree l) .S_SUCCESS; unlock; return status) ψ
        (Delivers id keywords final) := by
    intro l status ψ hψ hstored
    rw [follows_bind]
    refine follows_draft_lib (d := ψ.draft) rfl hψ fun r χ hχ hkept hbroken => ?_
    have hnone : χ.draft = .nothing := by
      rw [hχ]
      rcases hψ with ⟨es, ok, hd⟩ | hd <;> rw [hd] <;> rfl
    rw [then_ok, follows_bind, follows_draft_unlock]
    refine ⟨hnone, hnone, fun hres _ => ?_⟩
    rcases hstored (Except.ok.inj hres) with hbad | ⟨es, hall, hes⟩
    · exact Or.inl (by rw [hbroken, hbad]; rfl)
    · exact Or.inr ⟨es, hall, by rw [hkept]; exact List.mem_append_left _ hes⟩
  refine follows_draft_connected hφ (fun ψ hψ => ⟨hψ, by simp⟩) fun ψ hψ => ?_
  split
  · rename_i hnil
    exact ⟨hψ, fun _ hne => absurd (List.isEmpty_iff.1 hnil) hne⟩
  · rename_i hne
    refine follows_draft_locked ⟨hψ, by simp⟩ ?_
    rw [follows_bind]
    refine follows_draft_lib hψ rfl fun new ψ₁ h₁ _ _ => ?_
    rw [then_ok, follows_bind]
    refine follows_draft_addKeywords h₁ (by simp) fun status ψ₂ es ok h₂ hok hall => ?_
    rw [List.nil_append] at h₂
    rw [then_ok, follows_bind]
    refine follows_draft_lib h₂ ⟨es, ok, rfl, hok⟩ fun size ψ₃ h₃ _ hbroken => ?_
    simp only [then_ok]
    split
    · rw [follows_bind]
      refine follows_draft_putAvList h₃ (by simp) (hjobs es hall) fun status' ψ₄ h₄ hstored => ?_
      exact hend (Or.inr h₄) fun hs => Or.inr ⟨es, hall, hstored hs⟩
    · rename_i hsize
      -- a list with entries that is measured as empty
      refine hend (Or.inl ⟨es, _, h₃⟩) fun hs => Or.inl ?_
      obtain ⟨n, s⟩ := size
      obtain rfl : s = .S_SUCCESS := hs
      have hlen : 0 < es.length := by
        rw [← hall.length_eq]
        exact List.length_pos_iff.2 (by simpa using hne)
      have hwrong : n ≠ es.length := by
        rintro rfl
        have hle : (es.length : Int) ≤ 0 := Int.not_lt.1 hsize
        omega
      rw [hbroken]
      simp [Draft.mismeasured, hwrong]

end Operations

/-! ## The invariant -/

/-- What the call has is in the library, and nothing else is that was not there at first. -/
def Draft.Owns {ι : Type} (L₀ L : Library ι) : Draft → Prop
  | .nothing => L.lists = L₀.lists ∧ L.tags = L₀.tags
  | .list l es ok => L₀.lists l = none ∧ L.tags = L₀.tags ∧
      ∃ x, L.lists = Function.update L₀.lists l x ∧ (ok = true → x = some es)
  | .put l tag p ok => L₀.lists l = none ∧ (∃ x, L.lists = Function.update L₀.lists l x) ∧ L₀.tags tag = none ∧
      ∃ x, L.tags = Function.update L₀.tags tag x ∧ (ok = true → x = some p)
  | .stored l => L₀.lists l = none ∧ L.tags = L₀.tags ∧ ∃ x, L.lists = Function.update L₀.lists l x

section Invariant

variable {ι : Type} {jobs : Put → Prop} {L₀ L L' : Library ι} {d : Draft} {status : DhsStatus} {f : LibCall} {r : f.Answer}

theorem Draft.Owns.after (h : d.Owns L₀ L) (hfits : d.Fits jobs status f) (hok : r.status = .S_SUCCESS → status = .S_SUCCESS)
    (hans : L.Answers f r) : (d.after f r).Owns L₀ (L.after f r) := by
  cases f with
  | dhsAvListNew =>
    obtain rfl : d = .nothing := hfits
    obtain ⟨hlists, htags⟩ := h
    have hnew : L₀.lists r.ret = none := hlists ▸ hans
    by_cases hs : r.status = .S_SUCCESS
    · have hafter : L.after .dhsAvListNew r = { L with lists := Function.update L.lists r.ret (some []) } := if_pos hs
      rw [hafter]
      exact ⟨hnew, htags, some [], by rw [hlists], fun _ => rfl⟩
    · have hafter : L.after .dhsAvListNew r = L := if_neg hs
      rw [hafter]
      refine ⟨hnew, htags, none, ?_, by simp [hs]⟩
      rw [hlists, ← hnew, Function.update_eq_self]
  | dhsAvAdd l name type value =>
    obtain ⟨es, ok, rfl, hgood⟩ := hfits
    obtain ⟨hnew, htags, x, hlists, hx⟩ := h
    by_cases hs : r.status = .S_SUCCESS
    · have hafter : L.after (.dhsAvAdd l name type value) r =
          { L with lists := Function.update L.lists l ((L.lists l).map (· ++ [(name, type, value)])) } := if_pos hs
      rw [hafter]
      refine ⟨hnew, htags, (L.lists l).map (· ++ [(name, type, value)]), ?_, fun _ => ?_⟩
      · rw [hlists, Function.update_idem]
      · rw [hlists, Function.update_self, hx (hgood (hok hs))]
        rfl
    · have hafter : L.after (.dhsAvAdd l name type value) r = L := if_neg hs
      rw [hafter]
      exact ⟨hnew, htags, x, hlists, by simp [hs]⟩
  | dhsAvListSize l =>
    obtain ⟨es, ok, rfl, hgood⟩ := hfits
    obtain ⟨hnew, htags, x, hlists, hx⟩ := h
    have hafter : L.after (.dhsAvListSize l) r = L := ite_self L
    rw [hafter]
    exact ⟨hnew, htags, x, hlists, fun hs => hx (hgood (hok (of_decide_eq_true hs)))⟩
  | dhsBdPut c id final l =>
    obtain ⟨es, ok, rfl, hgood, hjob⟩ := hfits
    obtain ⟨hnew, htags, x, hlists, hx⟩ := h
    have htag : L₀.tags r.ret = none := htags ▸ hans
    by_cases hs : r.status = .S_SUCCESS
    · have hafter : L.after (.dhsBdPut c id final l) r = L.did (.dhsBdPut c id final l) r.ret := if_pos hs
      rw [hafter]
      refine ⟨hnew, ⟨x, hlists⟩, htag, (L.lists l).map (Put.mk id final), ?_, fun _ => ?_⟩
      · exact congrArg (fun t => Function.update t r.ret _) htags
      · rw [hlists, Function.update_self, hx (hgood (hok hs))]
        rfl
    · have hafter : L.after (.dhsBdPut c id final l) r = L := if_neg hs
      rw [hafter]
      refine ⟨hnew, ⟨x, hlists⟩, htag, none, ?_, by simp [hs]⟩
      rw [htags, ← htag, Function.update_eq_self]
  | dhsWait tag =>
    obtain ⟨l, p, ok, rfl, hgood⟩ := hfits
    obtain ⟨hnew, hlists, htag, x, htags, hx⟩ := h
    have hafter : L.after (.dhsWait tag) r = L := ite_self L
    rw [hafter]
    exact ⟨hnew, hlists, htag, x, htags, fun hs => hx (hgood (hok (of_decide_eq_true hs)))⟩
  | dhsStatus tag =>
    obtain ⟨l, p, ok, rfl, hgood⟩ := hfits
    obtain ⟨hnew, hlists, htag, x, htags, hx⟩ := h
    have hafter : (L.after (.dhsStatus tag) r).lists = L.lists ∧ (L.after (.dhsStatus tag) r).tags = L.tags := by
      obtain ⟨_ | code, _ | _ | other⟩ := r <;> exact ⟨rfl, rfl⟩
    exact ⟨hnew, by rw [hafter.1]; exact hlists, htag, x, by rw [hafter.2]; exact htags,
      fun hs => hx (hgood (hok (of_decide_eq_true hs)))⟩
  | dhsTagFree tag =>
    obtain ⟨l, p, ok, rfl⟩ := hfits
    obtain ⟨hnew, hlists, htag, x, htags, _⟩ := h
    refine ⟨hnew, ?_, hlists⟩
    show Function.update L.tags tag none = L₀.tags
    rw [htags, Function.update_idem, ← htag, Function.update_eq_self]
  | dhsAvListFree l =>
    have hback : L₀.lists l = none → ∀ x, L.lists = Function.update L₀.lists l x →
        Function.update L.lists l none = L₀.lists := by
      intro hnew x hx
      rw [hx, Function.update_idem, ← hnew, Function.update_eq_self]
    rcases hfits with ⟨es, ok, rfl⟩ | rfl
    · obtain ⟨hnew, htags, x, hlists, _⟩ := h
      exact ⟨hback hnew x hlists, htags⟩
    · obtain ⟨hnew, htags, x, hlists⟩ := h
      exact ⟨hback hnew x hlists, htags⟩
  | _ =>
    obtain rfl : d = .nothing := hfits
    have hafter : L.after _ r = L := ite_self L
    rw [hafter]
    exact h

/-- What else a library call does: a put that is reported is done, the size is right, and only jobs are issued. -/
structure Faithful (jobs : Put → Prop) (d : Draft) (f : LibCall) (r : f.Answer) (L L' : Library ι) : Prop where
  given : L'.given = L.given
  right : d.mismeasured f r = false
  done : ∀ p, p ∈ L.done ∨ p ∈ d.reported f r → p ∈ L'.done
  issued : ∀ p ∈ L'.issued, p ∈ L.issued ∨ jobs p

theorem Draft.Owns.faithful (h : d.Owns L₀ L) (hfits : d.Fits jobs status f)
    (hok : r.status = .S_SUCCESS → status = .S_SUCCESS) (hans : L.Answers f r) :
    Faithful jobs d f r L (L.after f r) := by
  have hquiet : ∀ {L' : Library ι}, L'.given = L.given → L'.done = L.done → L'.issued = L.issued →
      d.reported f r = [] → d.mismeasured f r = false → Faithful jobs d f r L L' := by
    intro L' hgiven hdone hissued hreported hright
    refine ⟨hgiven, hright, fun p hp => ?_, fun p hp => Or.inl (hissued ▸ hp)⟩
    rw [hreported] at hp
    exact hdone ▸ hp.resolve_right List.not_mem_nil
  cases f with
  | dhsAvListNew =>
    obtain rfl : d = .nothing := hfits
    obtain ⟨l, _ | _ | other⟩ := r <;> exact hquiet rfl rfl rfl rfl rfl
  | dhsAvAdd l name type value =>
    obtain ⟨es, ok, rfl, _⟩ := hfits
    obtain ⟨_, _ | _ | other⟩ := r <;> exact hquiet rfl rfl rfl rfl rfl
  | dhsAvListSize l =>
    obtain ⟨es, ok, rfl, hgood⟩ := hfits
    obtain ⟨_, _, x, hlists, hx⟩ := h
    obtain ⟨n, _ | _ | other⟩ := r
    · -- a size that is measured with success is that of the entries
      have hentries : L.lists l = some es := by
        rw [hlists, Function.update_self]
        exact hx (hgood (hok rfl))
      have hn : n = es.length := hans es hentries rfl
      exact hquiet rfl rfl rfl rfl (by simp [Draft.mismeasured, hn])
    · exact hquiet rfl rfl rfl rfl rfl
    · exact hquiet rfl rfl rfl rfl rfl
  | dhsBdPut c id final l =>
    obtain ⟨es, ok, rfl, hgood, hjob⟩ := hfits
    obtain ⟨_, _, x, hlists, hx⟩ := h
    obtain ⟨tag, _ | _ | other⟩ := r
    · have hentries : L.lists l = some es := by
        rw [hlists, Function.update_self]
        exact hx (hgood (hok rfl))
      refine ⟨rfl, rfl, fun p hp => hp.resolve_right List.not_mem_nil, fun p hp => ?_⟩
      rcases List.mem_append.1 hp with hp | hp
      · exact Or.inl hp
      · rw [hentries] at hp
        rw [List.mem_singleton.1 hp]
        exact Or.inr hjob
    · exact hquiet rfl rfl rfl rfl rfl
    · exact hquiet rfl rfl rfl rfl rfl
  | dhsWait tag =>
    obtain ⟨l, p, ok, rfl, _⟩ := hfits
    obtain ⟨_, _ | _ | other⟩ := r <;> exact hquiet rfl rfl rfl rfl rfl
  | dhsStatus tag =>
    obtain ⟨l, p, ok, rfl, hgood⟩ := hfits
    obtain ⟨_, _, _, x, htags, hx⟩ := h
    obtain ⟨_ | code, _ | _ | other⟩ := r
    · have htag : L.tags tag = some p := by
        rw [htags, Function.update_self]
        exact hx (hgood (hok rfl))
      refine ⟨rfl, rfl, fun q hq => ?_, fun q hq => Or.inl hq⟩
      refine List.mem_append.2 (hq.imp_right fun hq => ?_)
      rw [htag]
      exact hq
    all_goals exact hquiet rfl rfl rfl rfl rfl
  | dhsTagFree tag =>
    obtain ⟨l, p, ok, rfl⟩ := hfits
    exact hquiet rfl rfl rfl rfl rfl
  | dhsAvListFree l =>
    rcases hfits with ⟨es, ok, rfl⟩ | rfl <;> exact hquiet rfl rfl rfl rfl rfl
  | _ =>
    obtain rfl : d = .nothing := hfits
    have hafter : L.after _ r = L := ite_self L
    rw [hafter]
    exact hquiet rfl rfl rfl rfl rfl

/-- The library is as the drafts of all calls say; a call without the lock has none. -/
structure Drafts (jobs : Put → Prop) (L₀ L : Library ι) (φ : ι → Phase × DraftPhase) : Prop where
  given : ∀ i, L.given i = (φ i).2.given
  outside : ∀ i, (φ i).1.holds = false → (φ i).2.draft = .nothing
  owns : ∀ i, (φ i).1.holds = true → (φ i).2.draft.Owns L₀ L
  rest : (∀ i, (φ i).1.holds = false) → Draft.nothing.Owns L₀ L
  right : ∀ i, (φ i).2.broken = false
  stored : ∀ i, ∀ p ∈ (φ i).2.stored, p ∈ L.done
  issued : ∀ p ∈ L.issued, p ∈ L₀.issued ∨ jobs p

/-- Only the lock decides who holds it. -/
theorem Phase.next_holds {φ : Phase} {a : Act AdapterSig} (h : φ.May a.cmd) (hlock : a.cmd ≠ .timedLock)
    (hunlock : a.cmd ≠ .unlock) : (φ.next a).holds = φ.holds := by
  obtain ⟨c, r⟩ := a
  cases c with
  | timedLock => exact absurd rfl hlock
  | unlock => exact absurd rfl hunlock
  | getIsConnected =>
    rcases h with ⟨up, rfl⟩ | ⟨l, rfl, _⟩
    · rfl
    · cases l <;> rfl
  | setIsConnected b =>
    obtain ⟨c, rfl⟩ := h
    rfl
  | getConnection =>
    obtain ⟨l, rfl, _⟩ := h
    cases l <;> rfl
  | setConnection c =>
    obtain ⟨ok, rfl⟩ := h
    rfl
  | enter f status =>
    obtain ⟨l, rfl, _⟩ := h
    cases l <;> rfl
  | leave f =>
    obtain ⟨l, rfl, _⟩ := h
    rfl

variable {φ : ι → Phase × DraftPhase} {i : ι} [DecidableEq ι]

/-- A step that leaves the lists and the puts alone, and the lock too. -/
theorem Drafts.quiet (h : Drafts jobs L₀ L φ) {ψ : Phase} {given : ι → DhsStatus} {status : DhsStatus}
    (hholds : ψ.holds = (φ i).1.holds)
    (hgiven : ∀ j, given j = (Function.update φ i (ψ, { (φ i).2 with given := status }) j).2.given) :
    Drafts jobs L₀ { L with given } (Function.update φ i (ψ, { (φ i).2 with given := status })) where
  given := hgiven
  outside j := by
    by_cases hj : j = i
    · subst hj
      simpa [hholds] using h.outside j
    · simpa [hj] using h.outside j
  owns j hlock := by
    have howns : ∀ {d : Draft}, d.Owns L₀ L → d.Owns L₀ { L with given } := by
      intro d hd
      cases d <;> exact hd
    by_cases hj : j = i
    · subst hj
      rw [Function.update_self] at hlock ⊢
      exact howns (h.owns j (hholds ▸ hlock))
    · rw [Function.update_of_ne hj] at hlock ⊢
      exact howns (h.owns j hlock)
  rest hfree := by
    refine h.rest fun j => ?_
    have hj := hfree j
    by_cases hji : j = i
    · subst hji
      simpa [hholds] using hj
    · simpa [hji] using hj
  right j := by
    by_cases hj : j = i
    · subst hj
      simpa using h.right j
    · simpa [hj] using h.right j
  stored j := by
    by_cases hj : j = i
    · subst hj
      simpa using h.stored j
    · simpa [hj] using h.stored j
  issued := h.issued

theorem Drafts.still (h : Drafts jobs L₀ L φ) {ψ : Phase} (hholds : ψ.holds = (φ i).1.holds) :
    Drafts jobs L₀ L (Function.update φ i (ψ, (φ i).2)) := by
  have hgiven : ∀ j, L.given j = (Function.update φ i (ψ, { (φ i).2 with given := (φ i).2.given }) j).2.given := by
    intro j
    by_cases hj : j = i
    · subst hj
      simpa using h.given j
    · simpa [hj] using h.given j
  exact h.quiet hholds hgiven

/-- A step of a call that has the lock afterwards, if it is the only one. -/
theorem Drafts.owned (h : Drafts jobs L₀ L φ) {p : Phase × DraftPhase} (hother : ∀ j ≠ i, (φ j).1.holds = false)
    (hholds : p.1.holds = true) (howns : p.2.draft.Owns L₀ L') (hgiven : L'.given = L.given)
    (hsame : p.2.given = (φ i).2.given) (hright : p.2.broken = false) (hstored : ∀ q ∈ p.2.stored, q ∈ L'.done)
    (hdone : ∀ q ∈ L.done, q ∈ L'.done) (hissued : ∀ q ∈ L'.issued, q ∈ L.issued ∨ jobs q) :
    Drafts jobs L₀ L' (Function.update φ i p) where
  given j := by
    rw [hgiven]
    by_cases hj : j = i
    · subst hj
      simpa [hsame] using h.given j
    · simpa [hj] using h.given j
  outside j := by
    by_cases hj : j = i
    · subst hj
      simp [hholds]
    · simpa [hj] using h.outside j
  owns j := by
    by_cases hj : j = i
    · subst hj
      simpa using fun _ => howns
    · simp [hj, hother j hj]
  rest hfree := by
    have hi := hfree i
    rw [Function.update_self, hholds] at hi
    cases hi
  right j := by
    by_cases hj : j = i
    · subst hj
      simpa using hright
    · simpa [hj] using h.right j
  stored j := by
    by_cases hj : j = i
    · subst hj
      simpa using hstored
    · simpa [hj] using fun q hq => hdone q (h.stored j q hq)
  issued q hq := (hissued q hq).elim (h.issued q) Or.inr

/-- The lock is given back, and nothing is left. -/
theorem Drafts.released (h : Drafts jobs L₀ L φ) {ψ : Phase} (hi : (φ i).1.holds = true) (hψ : ψ.holds = false)
    (hdraft : (φ i).2.draft = .nothing) : Drafts jobs L₀ L (Function.update φ i (ψ, (φ i).2)) where
  given j := by
    by_cases hj : j = i
    · subst hj
      simpa using h.given j
    · simpa [hj] using h.given j
  outside j := by
    by_cases hj : j = i
    · subst hj
      simp [hdraft]
    · simpa [hj] using h.outside j
  owns j := by
    by_cases hj : j = i
    · subst hj
      simp [hψ]
    · simpa [hj] using h.owns j
  rest _ := hdraft ▸ h.owns i hi
  right j := by
    by_cases hj : j = i
    · subst hj
      simpa using h.right j
    · simpa [hj] using h.right j
  stored j := by
    by_cases hj : j = i
    · subst hj
      simpa using h.stored j
    · simpa [hj] using h.stored j
  issued := h.issued

end Invariant

/-! ### Steps -/

section Steps

variable {ι : Type} {jobs : Put → Prop} {L₀ : Library ι} [DecidableEq ι]

omit [DecidableEq ι] in
/-- Who has the lock is the only one. -/
theorem Safe.alone {tr : List (Event ι AdapterSig)} {s : AdapterState ι} {φ : ι → Phase} (h : Safe tr s φ) {i : ι}
    (hi : (φ i).holds = true) {j : ι} (hj : j ≠ i) : (φ j).holds = false := by
  cases hholds : (φ j).holds with
  | false => rfl
  | true => exact absurd (Option.some.inj (((h.lock j).1 hholds).symm.trans ((h.lock i).1 hi))) hj

omit [DecidableEq ι] in
/-- With the lock free, the library has back what it gave. -/
theorem Drafts.returned {tr : List (Event ι AdapterSig)} {s : AdapterState ι} {L : Library ι}
    {φ : ι → Phase × DraftPhase} (h : Drafts jobs L₀ L φ) (hsafe : Safe tr s fun i => (φ i).1) (hfree : s.owner = none) :
    Draft.nothing.Owns L₀ L := by
  refine h.rest fun i => ?_
  cases hholds : (φ i).1.holds with
  | false => rfl
  | true => cases hfree.symm.trans ((hsafe.lock i).1 hholds)

/-- **Every step keeps the drafts.** -/
theorem keeps_drafts : Keeps (connectOnce.both (drafting jobs)) (adapterSem.both librarySem)
    fun tr (s : AdapterState ι × Library ι) φ => Safe tr s.1 (fun j => (φ j).1) ∧ Drafts jobs L₀ s.2 φ := by
  refine keeps_safe.both ?_
  rintro tr s s' L L' φ i ⟨c, r⟩ hsafe h ⟨hmay, hdraft⟩ hsem hlib
  cases c with
  | timedLock =>
    obtain ⟨up, hφ⟩ := hmay
    cases r with
    | false =>
      obtain rfl : L' = L := hlib
      refine h.still ?_
      rw [hφ]
      rfl
    | true =>
      obtain rfl : L' = L := hlib
      have hfree : ∀ j, (φ j).1.holds = false := by
        intro j
        cases hholds : (φ j).1.holds with
        | false => rfl
        | true => cases ((hsafe.lock j).1 hholds).symm.trans hsem.1
      have hnone := h.outside i (hfree i)
      refine h.owned (fun j _ => hfree j) ?_ ?_ rfl rfl (h.right i) (h.stored i) (fun _ hq => hq) fun _ hq => Or.inl hq
      · simp only [Discipline.both, connectOnce, hφ]
        rfl
      · have hdraft' : ((connectOnce.both (drafting jobs)).next (φ i) ⟨.timedLock, true⟩).2.draft = .nothing := hnone
        rw [hdraft']
        exact h.rest hfree
  | unlock =>
    obtain ⟨l, hφ, _⟩ := hmay
    obtain rfl : L' = L := hlib
    refine h.released ?_ ?_ hdraft
    · rw [hφ]
      rfl
    · rw [hφ]
      rfl
  | enter f status =>
    obtain rfl : L' = { L with given := Function.update L.given i status } := hlib
    refine h.quiet (Phase.next_holds hmay (by simp) (by simp)) fun j => ?_
    by_cases hj : j = i
    · subst hj
      simp
    · simpa [hj] using h.given j
  | leave f =>
    obtain ⟨hgiven, hans, rfl⟩ := hlib
    have hholds : (φ i).1.holds = true := by
      obtain ⟨l, hφ, _⟩ := hmay
      rw [hφ]
      rfl
    have howns := h.owns i hholds
    rw [h.given i] at hgiven
    have hfaithful := howns.faithful hdraft hgiven hans
    refine h.owned (fun j hj => hsafe.alone hholds hj) ?_ (howns.after hdraft hgiven hans) hfaithful.given rfl ?_ ?_
      (fun q hq => hfaithful.done q (Or.inl hq)) hfaithful.issued
    · exact (Phase.next_holds (a := ⟨.leave f, r⟩) hmay (by simp) (by simp)).trans hholds
    · show ((φ i).2.broken || (φ i).2.draft.mismeasured f r) = false
      rw [h.right i, hfaithful.right]
      rfl
    · intro q hq
      have hq' : q ∈ (φ i).2.stored ++ (φ i).2.draft.reported f r := hq
      refine hfaithful.done q ((List.mem_append.1 hq').imp_left (h.stored i q))
  | _ =>
    obtain rfl : L' = L := hlib
    exact h.still (Phase.next_holds hmay (by simp) (by simp))

end Steps

/-! ## Storing entries -/

section Storing

variable {ι : Type} [DecidableEq ι] {i : ι} {entries : List AvEntry}

/-! ### The adapter -/

section Adapters

variable {s : AdapterState ι}

/-- A library call of a thread that is in none leaves the adapter as it is. -/
theorem exec_lib (h : s.inside i = none) (f : LibCall) (status : DhsStatus) (r : f.Answer) :
    Exec adapterSem s ((libActs f status r).map (Event.mk i)) s := by
  refine ⟨_, rfl, _, rfl, ?_⟩
  show s = { s with inside := Function.update (Function.update s.inside i (some f)) i none }
  rw [Function.update_idem, ← h, Function.update_eq_self]

theorem exec_adds (h : s.inside i = none) (l : DhsAvList) :
    Exec adapterSem s ((storedAdds l entries).map (Event.mk i)) s := by
  induction entries with
  | nil => exact exec_nil.2 rfl
  | cons e entries ih =>
    rw [storedAdds, List.flatMap_cons, List.map_append, exec_append]
    exact ⟨s, exec_lib h _ _ _, ih⟩

/-- **A thread that finds the lock free** may store a list, and leaves the adapter as it was. -/
theorem exec_stored (hfree : s.owner = none) (h : s.inside i = none) (l : DhsAvList) (tag : DhsTag) (id : ImageId)
    (final : Bool) :
    Exec adapterSem s ((storedSection s.connection l tag id entries final).map (Event.mk i)) s := by
  let locked : AdapterState ι := { s with owner := some i }
  have hlib : ∀ f status r, Exec adapterSem locked ((libActs f status r).map (Event.mk i)) locked := fun f status r =>
    exec_lib (s := locked) h f status r
  have hlist : storedSection s.connection l tag id entries final =
      [⟨.timedLock, true⟩] ++ (libActs .dhsAvListNew .S_SUCCESS ⟨l, .S_SUCCESS⟩ ++ (storedAdds l entries ++
        (libActs (.dhsAvListSize l) .S_SUCCESS ⟨entries.length, .S_SUCCESS⟩ ++ ([⟨.getConnection, s.connection⟩] ++
        (libActs (.dhsBdPut s.connection id final l) .S_SUCCESS ⟨tag, .S_SUCCESS⟩ ++
        (libActs (.dhsWait tag) .S_SUCCESS ⟨(), .S_SUCCESS⟩ ++ (libActs (.dhsStatus tag) .S_SUCCESS ⟨.DONE, .S_SUCCESS⟩ ++
        (libActs (.dhsTagFree tag) .S_SUCCESS ⟨(), .S_SUCCESS⟩ ++
        (libActs (.dhsAvListFree l) .S_SUCCESS ⟨(), .S_SUCCESS⟩ ++ [⟨.unlock, ()⟩]))))))))) := by
    simp [storedSection, storedFill, storedPut, libActs, releaseActs]
  have hunlocked : Exec adapterSem locked [⟨i, ⟨.unlock, ()⟩⟩] s := by
    refine ⟨_, rfl, ?_⟩
    show s = { s with owner := none }
    rw [← hfree]
  rw [hlist]
  simp only [List.map_append]
  refine exec_append.2 ⟨locked, ⟨_, ⟨hfree, rfl⟩, rfl⟩, ?_⟩
  refine exec_append.2 ⟨locked, hlib _ _ _, ?_⟩
  refine exec_append.2 ⟨locked, exec_adds (s := locked) h l, ?_⟩
  refine exec_append.2 ⟨locked, hlib _ _ _, ?_⟩
  refine exec_append.2 ⟨locked, ⟨_, ⟨rfl, rfl⟩, rfl⟩, ?_⟩
  refine exec_append.2 ⟨locked, hlib _ _ _, ?_⟩
  refine exec_append.2 ⟨locked, hlib _ _ _, ?_⟩
  refine exec_append.2 ⟨locked, hlib _ _ _, ?_⟩
  refine exec_append.2 ⟨locked, hlib _ _ _, ?_⟩
  exact exec_append.2 ⟨locked, hlib _ _ _, hunlocked⟩

theorem exec_connected (hfree : s.owner = none) (hup : s.isConnected = true) :
    Exec adapterSem s (connectedTrace.map (Event.mk i)) s := by
  obtain ⟨owner, isConnected, connection, inside⟩ := s
  obtain rfl : owner = none := hfree
  obtain rfl : isConnected = true := hup
  exact ⟨_, ⟨rfl, rfl⟩, _, ⟨rfl, rfl⟩, _, rfl, _, ⟨rfl, rfl⟩, rfl⟩

end Adapters

section Libraries

variable {L : Library ι}

/-- A library call that is given success and leaves it. -/
theorem library_success (hgiven : L.given i = .S_SUCCESS) (f : LibCall) (r : f.Answer) (hans : L.Answers f r) :
    Exec librarySem L ((libActs f .S_SUCCESS r).map (Event.mk i)) (L.after f r) := by
  refine ⟨L, ?_, L.after f r, ⟨fun _ => hgiven, hans, rfl⟩, rfl⟩
  show L = { L with given := Function.update L.given i .S_SUCCESS }
  rw [← hgiven, Function.update_eq_self]

/-- Calls that are given success, one after the other. -/
theorem library_next (hgiven : L.given i = .S_SUCCESS) (f : LibCall) (r : f.Answer) (hans : L.Answers f r)
    {m L' : Library ι} {tr : List (Act AdapterSig)} (hafter : L.after f r = m) (hx : Exec librarySem m (tr.map (Event.mk i)) L') :
    Exec librarySem L ((libActs f .S_SUCCESS r ++ tr).map (Event.mk i)) L' := by
  rw [List.map_append]
  exact exec_append.2 ⟨_, library_success hgiven f r hans, hafter ▸ hx⟩

/-- The entries are added to the list. -/
theorem library_adds (hgiven : L.given i = .S_SUCCESS) {l : DhsAvList} (es : List AvEntry) {L' : Library ι}
    {tr : List (Act AdapterSig)} (hx : Exec librarySem
      { L with lists := Function.update L.lists l (some (es ++ entries)) } (tr.map (Event.mk i)) L') :
    Exec librarySem { L with lists := Function.update L.lists l (some es) }
      ((storedAdds l entries ++ tr).map (Event.mk i)) L' := by
  induction entries generalizing es with
  | nil => rwa [List.append_nil] at hx
  | cons e entries ih =>
    rw [storedAdds, List.flatMap_cons, List.append_assoc]
    have hrest := ih (es ++ [e]) (by rwa [List.append_assoc])
    refine library_next (L := { L with lists := Function.update L.lists l (some es) }) hgiven
      (.dhsAvAdd l e.1 e.2.1 e.2.2) _ trivial ?_ hrest
    simp [Library.after, Library.did]

/-- **The library stores the entries.** -/
theorem library_stores (hgiven : L.given i = .S_SUCCESS) {l : DhsAvList} (hl : L.lists l = none) {tag : DhsTag}
    (htag : L.tags tag = none) (c : DhsConnect) (id : ImageId) (final : Bool) :
    Exec librarySem L ((storedSection c l tag id entries final).map (Event.mk i))
      { L with issued := L.issued ++ [⟨id, final, entries⟩], done := L.done ++ [⟨id, final, entries⟩] } := by
  let p : Put := ⟨id, final, entries⟩
  let filled : Library ι := { L with lists := Function.update L.lists l (some entries) }
  let put : Library ι := { filled with tags := Function.update L.tags tag (some p), issued := L.issued ++ [p] }
  let reported : Library ι := { put with done := L.done ++ [p] }
  let freed : Library ι := { filled with issued := L.issued ++ [p], done := L.done ++ [p] }
  have hlist : storedSection c l tag id entries final =
      ⟨.timedLock, true⟩ :: (libActs .dhsAvListNew .S_SUCCESS ⟨l, .S_SUCCESS⟩ ++ (storedAdds l entries ++
        (libActs (.dhsAvListSize l) .S_SUCCESS ⟨entries.length, .S_SUCCESS⟩ ++ (⟨.getConnection, c⟩ ::
        (libActs (.dhsBdPut c id final l) .S_SUCCESS ⟨tag, .S_SUCCESS⟩ ++
        (libActs (.dhsWait tag) .S_SUCCESS ⟨(), .S_SUCCESS⟩ ++ (libActs (.dhsStatus tag) .S_SUCCESS ⟨.DONE, .S_SUCCESS⟩ ++
        (libActs (.dhsTagFree tag) .S_SUCCESS ⟨(), .S_SUCCESS⟩ ++
        (libActs (.dhsAvListFree l) .S_SUCCESS ⟨(), .S_SUCCESS⟩ ++ [⟨.unlock, ()⟩]))))))))) := by
    simp [storedSection, storedFill, storedPut, libActs, releaseActs]
  have hsize : filled.Answers (.dhsAvListSize l) ⟨entries.length, .S_SUCCESS⟩ := by
    intro es hes _
    obtain rfl : entries = es := by simpa [filled] using hes
    rfl
  have hput : filled.after (.dhsBdPut c id final l) ⟨tag, .S_SUCCESS⟩ = put := by
    simp [Library.after, Library.did, filled, put, p]
  have hreported : put.after (.dhsStatus tag) ⟨.DONE, .S_SUCCESS⟩ = reported := by
    simp [Library.after, Library.did, filled, put, reported, p]
  have htags : Function.update (Function.update L.tags tag (some p)) tag none = L.tags := by
    rw [Function.update_idem, ← htag, Function.update_eq_self]
  have hlists : Function.update (Function.update L.lists l (some entries)) l none = L.lists := by
    rw [Function.update_idem, ← hl, Function.update_eq_self]
  have hfreed : reported.after (.dhsTagFree tag) ⟨(), .S_SUCCESS⟩ = freed := by
    simp [Library.after, reported, put, filled, freed, htags]
  have hback : freed.after (.dhsAvListFree l) ⟨(), .S_SUCCESS⟩ = { L with issued := L.issued ++ [p], done := L.done ++ [p] } := by
    simp [Library.after, freed, filled, hlists]
  rw [hlist]
  refine ⟨L, rfl, library_next hgiven .dhsAvListNew ⟨l, .S_SUCCESS⟩ hl rfl (library_adds hgiven [] ?_)⟩
  refine library_next (L := filled) hgiven (.dhsAvListSize l) _ hsize rfl ⟨filled, rfl, ?_⟩
  refine library_next (L := filled) hgiven (.dhsBdPut c id final l) ⟨tag, .S_SUCCESS⟩ htag hput ?_
  refine library_next (L := put) hgiven (.dhsWait tag) _ trivial rfl ?_
  refine library_next (L := put) hgiven (.dhsStatus tag) _ trivial hreported ?_
  refine library_next (L := reported) hgiven (.dhsTagFree tag) _ trivial hfreed ?_
  exact library_next (L := freed) hgiven (.dhsAvListFree l) _ trivial hback ⟨_, rfl, rfl⟩

end Libraries

end Storing

end DhsTranslator
