import DhsTranslator.Cache.MessageCache
import DhsTranslator.Conc.Monitor

/-!
# The message cache with its lock and its pointers

The member functions of `MessageCache` as they are written: programs over the lock, the map of lists of pointers, its
iterators, and the messages on the heap. Other threads may act between any two of their steps.

- An access that C++ leaves undefined (an iterator that is not in the map, the front of an empty list, a message that is
  deleted) may do anything to the map, the heap and what it returns (`accessEff`).
- A loop has a number of rounds to go, and a loop that has none left stops there for ever (`spin`).
- `accessFp`: what every access needs.
-/

namespace DhsTranslator

open Conc Memory

/-! ## Accesses -/

/-- `Message *`. -/
structure MessagePtr where
  addr : Nat
  deriving DecidableEq

/-- `std::map<ImageId, std::list<Message *>>`; an image occurs once. -/
abbrev PtrMap := List (ImageId × List MessagePtr)

/-- An iterator of the map: the image it is at, or `end()`. -/
abbrev MapIter := Option ImageId

inductive CacheAccess where
  | begin
  | next (it : ImageId)
  | erase (it : ImageId)
  | find (id : ImageId)
  /-- `cache[id]`, without what is done with the list -/
  | subscript (id : ImageId)
  | clearMap
  | empty (it : ImageId)
  | front (it : ImageId)
  | popFront (it : ImageId)
  | pushBack (it : ImageId) (m : MessagePtr)
  | clear (it : ImageId)
  /-- the pointer at a place of the list, or `end()` of the list -/
  | item (it : ImageId) (n : Nat)
  | new
  | setHash (m : MessagePtr) (hash : UInt32)
  | setTimestamp (m : MessagePtr) (timestamp : Int)
  | setData (m : MessagePtr) (data : String)
  | load (m : MessagePtr)
  | delete (m : MessagePtr)
  | spin

abbrev CacheAccess.Resp : CacheAccess → Type
  | .begin | .next _ | .find _ => MapIter
  | .empty _ => Bool
  | .front _ | .new => MessagePtr
  | .item _ _ => Option MessagePtr
  | .load _ => Message
  | .spin => Empty
  | _ => Unit

abbrev CacheAccessSig : Sig := ⟨CacheAccess, CacheAccess.Resp⟩

abbrev CacheProg := Prog CacheAccessSig.locked Empty

/-! ## The map -/

namespace PtrMap

/-- The list of an image. -/
def entry (id : ImageId) : PtrMap → Option (List MessagePtr)
  | [] => none
  | (k, l) :: g => if k = id then some l else entry id g

/-- The image that follows in the iteration. -/
def next (id : ImageId) : PtrMap → MapIter
  | [] => none
  | (k, _) :: g => if k = id then g.head?.map Prod.fst else next id g

/-- Replace the list of an image. -/
def set (id : ImageId) (l : List MessagePtr) : PtrMap → PtrMap
  | [] => []
  | (k, l') :: g => if k = id then (k, l) :: g else (k, l') :: set id l g

def erase (id : ImageId) : PtrMap → PtrMap
  | [] => []
  | (k, l) :: g => if k = id then g else (k, l) :: erase id g

end PtrMap

/-! ## What an access does -/

section Semantics

variable (g : PtrMap) (h : Cells MessagePtr Message)

/-- What C++ asks of an access. -/
def Defined : CacheAccess → Prop
  | .begin | .find _ | .subscript _ | .clearMap | .new | .spin => True
  | .next it | .erase it | .empty it | .pushBack it _ | .clear it => (g.entry it).isSome
  | .front it | .popFront it => ∃ m l, g.entry it = some (m :: l)
  | .item it n => ∃ l, g.entry it = some l ∧ n ≤ l.length
  | .setHash m _ | .setTimestamp m _ | .setData m _ | .load m | .delete m => (h m).isSome

/-- The list an iterator is at. -/
def PtrMap.at (it : ImageId) : List MessagePtr := (g.entry it).getD []

/-- What a defined access does. The storage of a new message holds anything, but for its string. -/
def AccessDone : Act CacheAccessSig → PtrMap → Cells MessagePtr Message → Prop
  | ⟨.begin, it⟩, g', h' => it = g.head?.map Prod.fst ∧ g' = g ∧ h' = h
  | ⟨.next it, it'⟩, g', h' => it' = g.next it ∧ g' = g ∧ h' = h
  | ⟨.erase it, _⟩, g', h' => g' = g.erase it ∧ h' = h
  | ⟨.find id, it⟩, g', h' => it = (g.entry id).map (fun _ => id) ∧ g' = g ∧ h' = h
  | ⟨.subscript id, _⟩, g', h' => g' = (if (g.entry id).isSome then g else g ++ [(id, [])]) ∧ h' = h
  | ⟨.clearMap, _⟩, g', h' => g' = [] ∧ h' = h
  | ⟨.empty it, b⟩, g', h' => b = (g.at it).isEmpty ∧ g' = g ∧ h' = h
  | ⟨.front it, m⟩, g', h' => (g.at it).head? = some m ∧ g' = g ∧ h' = h
  | ⟨.popFront it, _⟩, g', h' => g' = g.set it (g.at it).tail ∧ h' = h
  | ⟨.pushBack it m, _⟩, g', h' => g' = g.set it (g.at it ++ [m]) ∧ h' = h
  | ⟨.clear it, _⟩, g', h' => g' = g.set it [] ∧ h' = h
  | ⟨.item it n, m⟩, g', h' => m = (g.at it)[n]? ∧ g' = g ∧ h' = h
  | ⟨.new, m⟩, g', h' => h m = none ∧ g' = g ∧ ∃ hash timestamp, h' = h.new m ⟨hash, timestamp, ""⟩
  | ⟨.setHash m hash, _⟩, g', h' => g' = g ∧ ∃ v, h m = some v ∧ h' = h.new m { v with hash := hash }
  | ⟨.setTimestamp m t, _⟩, g', h' => g' = g ∧ ∃ v, h m = some v ∧ h' = h.new m { v with timestamp := t }
  | ⟨.setData m data, _⟩, g', h' => g' = g ∧ ∃ v, h m = some v ∧ h' = h.new m { v with data := data }
  | ⟨.load m, v⟩, g', h' => h m = some v ∧ g' = g ∧ h' = h
  | ⟨.delete m, _⟩, g', h' => g' = g ∧ h' = h.delete m
  | ⟨.spin, r⟩, _, _ => r.elim

end Semantics

/-- An access does what it is to do if it is defined, and anything if it is not. -/
def accessEff : Effect CacheAccessSig PtrMap MessagePtr Message := fun g h a g' h' =>
  Defined g h a.cmd → AccessDone g h a g' h'

/-! ## The member functions -/

namespace LockedCache

def lock : CacheProg Unit := .call (S := CacheAccessSig.locked) .lock .ret

def unlock : CacheProg Unit := .call (S := CacheAccessSig.locked) .unlock .ret

def access (c : CacheAccess) : CacheProg c.Resp := .call (S := CacheAccessSig.locked) (.access c) .ret

/-- A loop without rounds to go. -/
def spin {α : Type} : CacheProg α := .call (S := CacheAccessSig.locked) (.access .spin) fun r => r.elim

variable (hasher : String → UInt32) (validAge : Int) (rounds : Nat)

/-- `PurgeList::operator()`. -/
def purgeList (currentT : Int) (it : ImageId) : Nat → CacheProg Unit
  | 0 => spin
  | n + 1 => do
    if ← access (.empty it) then
      return
    let front ← access (.front it)
    let message ← access (.load front)
    if currentT - message.timestamp > validAge then
      let m ← access (.front it)
      access (.popFront it)
      access (.delete m)
      purgeList currentT it n

/-- The loop of `purgeOldMessages`. -/
def purgeLoop (currentTime : Int) : Nat → MapIter → CacheProg Unit
  | _, none => return
  | 0, some _ => spin
  | n + 1, some it => do
    purgeList validAge currentTime it rounds
    if ← access (.empty it) then
      let it' ← access (.next it)
      access (.erase it)
      purgeLoop currentTime n it'
    else
      let it' ← access (.next it)
      purgeLoop currentTime n it'

def purgeOldMessages (currentTime : Int) : CacheProg Unit := do
  lock
  let it ← access .begin
  purgeLoop validAge rounds currentTime rounds it
  unlock

/-- The loop of `exists` from a place of the list on, and the end of the function. -/
def search (h : UInt32) (data : String) (it : ImageId) : Nat → Nat → CacheProg Bool
  | 0, _ => spin
  | fuel + 1, n => do
    match ← access (.item it n) with
    | none =>
      unlock
      return false
    | some m =>
      let message ← access (.load m)
      if message.hash = h ∧ message.data = data then
        unlock
        return true
      search h data it fuel (n + 1)

def «exists» (id : ImageId) (data : String) : CacheProg Bool := do
  lock
  match ← access (.find id) with
  | some l => search (hasher data) data l rounds 0
  | none =>
    unlock
    return false

def add (id : ImageId) (timestamp : Int) (data : String) : CacheProg Unit := do
  let msg ← access .new
  access (.setData msg data)
  access (.setHash msg (hasher data))
  access (.setTimestamp msg timestamp)
  lock
  access (.subscript id)
  access (.pushBack id msg)
  unlock

/-- The inner loop of the destructor, from a place of the list on. -/
def deleteList (it : ImageId) : Nat → Nat → CacheProg Unit
  | 0, _ => spin
  | fuel + 1, n => do
    match ← access (.item it n) with
    | none => return
    | some m =>
      access (.delete m)
      deleteList it fuel (n + 1)

/-- The outer loop of the destructor. -/
def destroyLoop : Nat → MapIter → CacheProg Unit
  | _, none => return
  | 0, some _ => spin
  | n + 1, some it => do
    deleteList it rounds 0
    access (.clear it)
    let it' ← access (.next it)
    destroyLoop n it'

/-- The destructor. -/
def destroy : CacheProg Unit := do
  lock
  let it ← access .begin
  destroyLoop rounds rounds it
  access .clearMap
  unlock

end LockedCache

/-! ## The calls -/

/-- The calls of the public member functions. -/
inductive CacheCall where
  | purgeOldMessages (currentTime : Int)
  | exists (id : ImageId) (data : String)
  | add (id : ImageId) (timestamp : Int) (data : String)
  deriving DecidableEq, Repr

abbrev CacheCall.Resp : CacheCall → Type
  | .purgeOldMessages _ => Unit
  | .exists _ _ => Bool
  | .add _ _ _ => Unit

abbrev CacheCallSig : Sig := ⟨CacheCall, CacheCall.Resp⟩

/-- What the calls are to do, each at once. -/
def callSem {ι : Type} : Sem ι MessageCache CacheCallSig
  | _, c, ⟨.purgeOldMessages t, _⟩, c' => c' = c.purgeOldMessages t
  | _, c, ⟨.exists id data, found⟩, c' => found = c.exists id data ∧ c' = c
  | _, c, ⟨.add id timestamp data, _⟩, c' => c' = c.add id timestamp data

/-- The program of each call. -/
def cacheImpl (hasher : String → UInt32) (validAge : Int) (rounds : Nat) : Impl CacheCallSig CacheAccessSig.locked
  | .purgeOldMessages t => LockedCache.purgeOldMessages validAge rounds t
  | .exists id data => LockedCache.exists hasher rounds id data
  | .add id timestamp data => LockedCache.add hasher id timestamp data

/-! ## What an access needs -/

/-- The number of messages. -/
def MessageCache.size (c : MessageCache) : Nat := (c.cache.flatMap Prod.snd).length

/-- Accesses to new messages, before they are in the map. -/
def CacheAccess.Private (h : Cells MessagePtr Message) : CacheAccess → Prop
  | .new => True
  | .setHash m _ | .setTimestamp m _ | .setData m _ | .load m | .delete m => (h m).isSome
  | _ => False

section Footprint

variable {g g' : PtrMap} {h h' h₁ h₂ : Cells MessagePtr Message}

theorem Joins.isSome (hj : Joins h h₁ h₂) {m : MessagePtr} (hm : (h₁ m).isSome) : (h m).isSome := by
  obtain ⟨v, hv⟩ := Option.isSome_iff_exists.1 hm
  simp [hj.some hv]

theorem Defined.join {c : CacheAccess} (hc : Defined g h₁ c) (hj : Joins h h₁ h₂) : Defined g h c := by
  cases c with
  | setHash m x => exact Joins.isSome hj hc
  | setTimestamp m x => exact Joins.isSome hj hc
  | setData m x => exact Joins.isSome hj hc
  | load m => exact Joins.isSome hj hc
  | delete m => exact Joins.isSome hj hc
  | _ => exact hc

/-- Writing to a message of one part. -/
theorem written_part (hj : Joins h h₁ h₂) {m : MessagePtr} (hm : (h₁ m).isSome) {f : Message → Message}
    (hw : ∃ v, h m = some v ∧ h' = h.new m (f v)) :
    ∃ h₁', (∃ v, h₁ m = some v ∧ h₁' = h₁.new m (f v)) ∧ Joins h' h₁' h₂ := by
  obtain ⟨v, hv, rfl⟩ := hw
  have hne : h₁ m ≠ none := Option.isSome_iff_ne_none.1 hm
  exact ⟨_, ⟨v, by rw [← (hj.left hne).1, hv], rfl⟩, hj.set hne _⟩

/-- What is done to a heap is done to the part that has what it needs. -/
theorem done_part {c : CacheAccess} {r : c.Resp} (hc : Defined g h₁ c) (hj : Joins h h₁ h₂)
    (hdone : AccessDone g h ⟨c, r⟩ g' h') : ∃ h₁', AccessDone g h₁ ⟨c, r⟩ g' h₁' ∧ Joins h' h₁' h₂ := by
  cases c with
  | new =>
    obtain ⟨hfresh, hg, x, t, rfl⟩ := hdone
    exact ⟨_, ⟨(hj.fresh hfresh).1, hg, x, t, rfl⟩, hj.new hfresh _⟩
  | setHash m x =>
    obtain ⟨h₁', hpart, hjoins⟩ := written_part hj hc hdone.2
    exact ⟨h₁', ⟨hdone.1, hpart⟩, hjoins⟩
  | setTimestamp m x =>
    obtain ⟨h₁', hpart, hjoins⟩ := written_part hj hc hdone.2
    exact ⟨h₁', ⟨hdone.1, hpart⟩, hjoins⟩
  | setData m x =>
    obtain ⟨h₁', hpart, hjoins⟩ := written_part hj hc hdone.2
    exact ⟨h₁', ⟨hdone.1, hpart⟩, hjoins⟩
  | load m =>
    obtain ⟨hv, hg, rfl⟩ := hdone
    exact ⟨h₁, ⟨by rw [← (hj.left (Option.isSome_iff_ne_none.1 hc)).1, hv], hg, rfl⟩, hj⟩
  | delete m =>
    obtain ⟨hg, rfl⟩ := hdone
    exact ⟨_, ⟨hg, rfl⟩, hj.delete (Option.isSome_iff_ne_none.1 hc)⟩
  | spin => exact r.elim
  | erase it => obtain ⟨hg, rfl⟩ := hdone; exact ⟨h₁, ⟨hg, rfl⟩, hj⟩
  | subscript id => obtain ⟨hg, rfl⟩ := hdone; exact ⟨h₁, ⟨hg, rfl⟩, hj⟩
  | clearMap => obtain ⟨hg, rfl⟩ := hdone; exact ⟨h₁, ⟨hg, rfl⟩, hj⟩
  | popFront it => obtain ⟨hg, rfl⟩ := hdone; exact ⟨h₁, ⟨hg, rfl⟩, hj⟩
  | pushBack it m => obtain ⟨hg, rfl⟩ := hdone; exact ⟨h₁, ⟨hg, rfl⟩, hj⟩
  | clear it => obtain ⟨hg, rfl⟩ := hdone; exact ⟨h₁, ⟨hg, rfl⟩, hj⟩
  | _ => obtain ⟨hr, hg, rfl⟩ := hdone; exact ⟨h₁, ⟨hr, hg, rfl⟩, hj⟩

theorem Private.defined {c : CacheAccess} (hc : c.Private h) (g : PtrMap) : Defined g h c := by
  cases c <;> trivial

/-- What is done to a message does not depend on the map. -/
theorem Private.done {c : CacheAccess} {r : c.Resp} (hc : c.Private h₁) (hdone : AccessDone g h ⟨c, r⟩ g' h') :
    g' = g ∧ ∀ g₀, AccessDone g₀ h ⟨c, r⟩ g₀ h' := by
  cases c with
  | new => exact ⟨hdone.2.1, fun g₀ => ⟨hdone.1, rfl, hdone.2.2⟩⟩
  | load m => exact ⟨hdone.2.1, fun g₀ => ⟨hdone.1, rfl, hdone.2.2⟩⟩
  | setHash m x => exact ⟨hdone.1, fun g₀ => ⟨rfl, hdone.2⟩⟩
  | setTimestamp m x => exact ⟨hdone.1, fun g₀ => ⟨rfl, hdone.2⟩⟩
  | setData m x => exact ⟨hdone.1, fun g₀ => ⟨rfl, hdone.2⟩⟩
  | delete m => exact ⟨hdone.1, fun g₀ => ⟨rfl, hdone.2⟩⟩
  | _ => exact hc.elim

/-- **What every access needs**: under the lock it is to be defined, and a loop has rounds to go for all messages;
without it, it is to be one to a message of its own. -/
def accessFp (rounds : Nat) : Footprint accessEff MessageCache where
  safe u g h c := Defined g h c ∧ (c = .spin → rounds ≤ u.size)
  own h c := c.Private h
  frame hsafe hj heff := by
    obtain ⟨h₁', hdone, hjoins⟩ := done_part hsafe.1 hj (heff (hsafe.1.join hj))
    exact ⟨h₁', fun _ => hdone, hjoins⟩
  alone {g h h₁ h₂ c r g' h'} hown hj heff := by
    have hc := Private.defined hown g
    obtain ⟨h₁', hdone, hjoins⟩ := done_part hc hj (heff (hc.join hj))
    obtain ⟨hg, halone⟩ := Private.done hown hdone
    exact ⟨hg, h₁', fun g₀ _ => halone g₀, hjoins⟩

end Footprint

end DhsTranslator
