import DhsTranslator.Adapter.Library

/-!
# Handles of the client library

A list and a command are used through handles, and given back by the call that got them.

- `handles`: what a thread has from the library, by what it did;
- `Draft.handles_after`: it is what the draft of the call says;
- `HandlesUsed`: a call that is about a list or a command is about those of its thread, and they are alive when it has
  something to do (`Draft.Owns.handles_used`).
-/

namespace DhsTranslator

open Conc DhsAdapter

/-- The list a library call is about. -/
def LibCall.list? : LibCall → Option DhsAvList
  | .dhsAvAdd l _ _ _ | .dhsAvListSize l | .dhsBdPut _ _ _ l | .dhsAvListFree l => some l
  | _ => none

/-- The command it is about. -/
def LibCall.tag? : LibCall → Option DhsTag
  | .dhsWait tag | .dhsStatus tag | .dhsTagFree tag => some tag
  | _ => none

/-- A call that gives its handle back. Its status says nothing of the calls before it. -/
def LibCall.Frees : LibCall → Prop
  | .dhsAvListFree _ | .dhsTagFree _ => True
  | _ => False

/-- A list and a command. -/
abbrev Handles := Option DhsAvList × Option DhsTag

/-- What a thread has after an action. -/
def handlesAfter (h : Handles) : Act AdapterSig → Handles
  | ⟨.leave .dhsAvListNew, r⟩ => (some r.ret, h.2)
  | ⟨.leave (.dhsAvListFree _), _⟩ => (none, h.2)
  | ⟨.leave (.dhsBdPut _ _ _ _), r⟩ => (h.1, some r.ret)
  | ⟨.leave (.dhsTagFree _), _⟩ => (h.1, none)
  | _ => h

/-- What a thread has got and not given back. -/
def handles (acts : List (Act AdapterSig)) : Handles := acts.foldl handlesAfter (none, none)

/-- What the draft of a call has. -/
def Draft.handles : Draft → Handles
  | .nothing => (none, none)
  | .list l _ _ | .stored l => (some l, none)
  | .put l tag _ _ => (some l, some tag)

section Steps

variable {jobs : Put → Prop} {φ : DraftPhase} {a : Act AdapterSig}

theorem Draft.handles_after (h : (drafting jobs).may φ a.cmd) :
    ((drafting jobs).next φ a).draft.handles = handlesAfter φ.draft.handles a := by
  obtain ⟨c, r⟩ := a
  obtain ⟨d, given, stored, broken⟩ := φ
  cases c with
  | leave f =>
    have hfits : d.Fits jobs given f := h
    show (d.after f r).handles = _
    cases f with
    | dhsAvListNew =>
      obtain rfl : d = .nothing := hfits
      rfl
    | dhsAvAdd l name type value =>
      obtain ⟨es, ok, rfl, _⟩ := hfits
      rfl
    | dhsAvListSize l =>
      obtain ⟨es, ok, rfl, _⟩ := hfits
      rfl
    | dhsBdPut c id final l =>
      obtain ⟨es, ok, rfl, _⟩ := hfits
      rfl
    | dhsWait tag =>
      obtain ⟨l, p, ok, rfl, _⟩ := hfits
      rfl
    | dhsStatus tag =>
      obtain ⟨l, p, ok, rfl, _⟩ := hfits
      rfl
    | dhsTagFree tag =>
      obtain ⟨l, p, ok, rfl⟩ := hfits
      rfl
    | dhsAvListFree l => rcases hfits with ⟨es, ok, rfl⟩ | rfl <;> rfl
    | _ =>
      obtain rfl : d = .nothing := hfits
      rfl
  | _ => rfl

/-- The drafts of all calls, by what their threads did. -/
theorem draft_handles {ι Φ : Type} [DecidableEq ι] {D : Discipline AdapterSig Φ} {φ : ι → Φ × DraftPhase}
    {T : List (Event ι AdapterSig)} (h : Permitted (D.both (drafting jobs)) φ T) {j : ι} (hj : (φ j).2.draft = .nothing) :
    (phases (D.both (drafting jobs)) φ T j).2.draft.handles = DhsTranslator.handles (actsOf j T) := by
  have hview := h.view (v := fun φ => φ.2.draft.handles) (fun hmay => Draft.handles_after hmay.2) j
  rw [hview, hj]
  rfl

end Steps

/-- The handles that a call uses. -/
structure HandlesUsed {ι : Type} (L : Library ι) (mine : Handles) (f : LibCall) (status : DhsStatus) : Prop where
  list : ∀ l, f.list? = some l → mine.1 = some l
  tag : ∀ tag, f.tag? = some tag → mine.2 = some tag
  listAlive : ∀ l, f.list? = some l → status = .S_SUCCESS → ¬f.Frees → L.lists l ≠ none
  tagAlive : ∀ tag, f.tag? = some tag → status = .S_SUCCESS → ¬f.Frees → L.tags tag ≠ none

section Runs

variable {ι : Type} {jobs : Put → Prop} {L₀ L : Library ι} {d : Draft} {f : LibCall} {status : DhsStatus}

/-- What a call is about is what its draft has. -/
theorem Draft.Fits.list (hfits : d.Fits jobs status f) {l : DhsAvList} (hl : f.list? = some l) : d.handles.1 = some l := by
  cases f with
  | dhsAvAdd l name type value =>
    obtain ⟨es, ok, rfl, _⟩ := hfits
    exact hl
  | dhsAvListSize l =>
    obtain ⟨es, ok, rfl, _⟩ := hfits
    exact hl
  | dhsBdPut c id final l =>
    obtain ⟨es, ok, rfl, _⟩ := hfits
    exact hl
  | dhsAvListFree l => rcases hfits with ⟨es, ok, rfl⟩ | rfl <;> exact hl
  | _ => cases hl

theorem Draft.Fits.tag (hfits : d.Fits jobs status f) {tag : DhsTag} (htag : f.tag? = some tag) :
    d.handles.2 = some tag := by
  cases f with
  | dhsWait tag =>
    obtain ⟨l, p, ok, rfl, _⟩ := hfits
    exact htag
  | dhsStatus tag =>
    obtain ⟨l, p, ok, rfl, _⟩ := hfits
    exact htag
  | dhsTagFree tag =>
    obtain ⟨l, p, ok, rfl⟩ := hfits
    exact htag
  | _ => cases htag

/-- A list that is all right is alive. -/
theorem Draft.Owns.list_alive {l : DhsAvList} {es : List AvEntry} {ok : Bool} (h : (Draft.list l es ok).Owns L₀ L)
    (hok : ok = true) : L.lists l ≠ none := by
  obtain ⟨_, _, x, hlists, hx⟩ := h
  rw [hlists, Function.update_self, hx hok]
  exact Option.some_ne_none es

/-- So is a command. -/
theorem Draft.Owns.tag_alive {l : DhsAvList} {tag : DhsTag} {p : Put} {ok : Bool} (h : (Draft.put l tag p ok).Owns L₀ L)
    (hok : ok = true) : L.tags tag ≠ none := by
  obtain ⟨_, _, _, x, htags, hx⟩ := h
  rw [htags, Function.update_self, hx hok]
  exact Option.some_ne_none p

theorem Draft.Owns.handles_used (h : d.Owns L₀ L) (hfits : d.Fits jobs status f) :
    HandlesUsed L d.handles f status where
  list _ hl := hfits.list hl
  tag _ htag := hfits.tag htag
  listAlive l hl hs hfrees := by
    cases f with
    | dhsAvAdd l name type value =>
      cases hl
      obtain ⟨es, ok, rfl, hok⟩ := hfits
      exact h.list_alive (hok hs)
    | dhsAvListSize l =>
      cases hl
      obtain ⟨es, ok, rfl, hok⟩ := hfits
      exact h.list_alive (hok hs)
    | dhsBdPut c id final l =>
      cases hl
      obtain ⟨es, ok, rfl, hok, _⟩ := hfits
      exact h.list_alive (hok hs)
    | dhsAvListFree l => exact absurd trivial hfrees
    | _ => cases hl
  tagAlive tag htag hs hfrees := by
    cases f with
    | dhsWait tag =>
      cases htag
      obtain ⟨l, p, ok, rfl, hok⟩ := hfits
      exact h.tag_alive (hok hs)
    | dhsStatus tag =>
      cases htag
      obtain ⟨l, p, ok, rfl, hok⟩ := hfits
      exact h.tag_alive (hok hs)
    | dhsTagFree tag => exact absurd trivial hfrees
    | _ => cases htag

end Runs

end DhsTranslator
