import DhsTranslator.Aging.Window
import DhsTranslator.Keyword
import Mathlib.Algebra.Order.Group.Int

/-!
# The message cache

`MessageCache` remembers, for each image, the messages that were processed. The map is a list of the images in it,
each with its list of messages; that every image occurs once, that no list is empty and that every stored hash is the
hash of its message are part of the type (`MessageCache.keys_nodup`, `nonempty`, `hashed`), and the operations
re-establish them.

The times are of any type with a difference and an order. `CTime` is that of the machine; `Int`, the one that is meant
where none is given, is for clocks whose differences do not overflow.

- `entries_purge`, `entries_add`: what the operations do to the messages of an image;
- `exists_iff`: the search by hash finds exactly the equal messages;
- `live`: the messages of the cache with their times, as a set; `live_purge_subset`, `live_purge`, `live_add`;
- `purge_fresh_iff`: a purge leaves nothing expired iff in every list the expired messages stand first.
-/

namespace DhsTranslator

open Aging

/-- A `time_t`: 32 bits, and a difference that does not fit wraps around. -/
abbrev CTime := Int32

/-- `struct Message`. -/
structure Message (T : Type := Int) where
  hash : UInt32
  timestamp : T
  data : String
  deriving DecidableEq, Repr

/-- The map from image ids to lists of messages. -/
abbrev CacheMap (T : Type := Int) := List (ImageId × List (Message T))

/-! ## The loops -/

section Loops

variable {T : Type}

/-- `PurgeList::operator()`. -/
def purgeList [Sub T] [LT T] [DecidableLT T] (validAge currentT : T) : List (Message T) → List (Message T)
  | [] => []
  | m :: mm => if currentT - m.timestamp > validAge then purgeList validAge currentT mm else m :: mm

/-- The loop of `purgeOldMessages` over the map, erasing the images left without messages. -/
def purgeMap (purgeOld : List (Message T) → List (Message T)) : CacheMap T → CacheMap T
  | [] => []
  | (id, mm) :: rest =>
    if (purgeOld mm).isEmpty then purgeMap purgeOld rest else (id, purgeOld mm) :: purgeMap purgeOld rest

/-- `cache.find(id)`. -/
def findList (id : ImageId) : CacheMap T → Option (List (Message T))
  | [] => none
  | (k, mm) :: rest => if k = id then some mm else findList id rest

/-- The loop of `exists` over the messages of an image. -/
def searchList (h : UInt32) (data : String) : List (Message T) → Bool
  | [] => false
  | m :: mm => if m.hash = h ∧ m.data = data then true else searchList h data mm

/-- `cache[id].push_back(msg)`. -/
def pushBack (id : ImageId) (msg : Message T) : CacheMap T → CacheMap T
  | [] => [(id, [msg])]
  | (k, mm) :: rest => if k = id then (k, mm ++ [msg]) :: rest else (k, mm) :: pushBack id msg rest

/-- The messages of an image, none if it is not in the map. -/
def listOf (id : ImageId) (c : CacheMap T) : List (Message T) := (findList id c).getD []

theorem purgeList_eq_dropWhile [Sub T] [LT T] [DecidableLT T] (validAge t : T) (mm : List (Message T)) :
    purgeList validAge t mm = mm.dropWhile fun m => decide (Expired validAge t m.timestamp) := by
  induction mm with
  | nil => rfl
  | cons m mm ih =>
    unfold purgeList
    by_cases h : Expired validAge t m.timestamp
    · rw [List.dropWhile_cons_of_pos (by simpa using h), ← ih]; exact if_pos h
    · rw [List.dropWhile_cons_of_neg (by simpa using h)]; exact if_neg h

theorem searchList_iff {h : UInt32} {data : String} {mm : List (Message T)} :
    searchList h data mm = true ↔ ∃ m ∈ mm, m.hash = h ∧ m.data = data := by
  induction mm with
  | nil => simp [searchList]
  | cons m mm ih =>
    unfold searchList
    split
    · rename_i hm; simp [hm]
    · rename_i hm; simp [ih, hm]

theorem findList_eq_none {id : ImageId} {c : CacheMap T} : findList id c = none ↔ id ∉ c.map Prod.fst := by
  induction c with
  | nil => simp [findList]
  | cons p c ih =>
    obtain ⟨k, mm⟩ := p
    unfold findList
    split
    · rename_i h; simp [h]
    · rename_i h; simp [ih, Ne.symm h]

theorem mem_of_findList {id : ImageId} {mm : List (Message T)} {c : CacheMap T} (h : findList id c = some mm) :
    (id, mm) ∈ c := by
  induction c with
  | nil => cases h
  | cons p c ih =>
    obtain ⟨k, l⟩ := p
    unfold findList at h
    split at h
    · rename_i hk; subst hk; cases h; exact List.mem_cons_self
    · exact List.mem_cons_of_mem _ (ih h)

theorem purgeMap_keys (f : List (Message T) → List (Message T)) (c : CacheMap T) :
    ((purgeMap f c).map Prod.fst).Sublist (c.map Prod.fst) := by
  induction c with
  | nil => exact List.Sublist.refl _
  | cons p c ih =>
    obtain ⟨k, mm⟩ := p
    unfold purgeMap
    split
    · exact ih.cons _
    · exact ih.cons_cons _

theorem mem_purgeMap {f : List (Message T) → List (Message T)} {p : ImageId × List (Message T)} {c : CacheMap T}
    (h : p ∈ purgeMap f c) : p.2 ≠ [] ∧ ∃ mm, (p.1, mm) ∈ c ∧ p.2 = f mm := by
  induction c with
  | nil => cases h
  | cons q c ih =>
    obtain ⟨k, mm⟩ := q
    unfold purgeMap at h
    split at h
    · obtain ⟨hne, l, hl, he⟩ := ih h
      exact ⟨hne, l, List.mem_cons_of_mem _ hl, he⟩
    · rename_i hf
      rcases List.mem_cons.1 h with rfl | h
      · exact ⟨by simpa using hf, mm, List.mem_cons_self, rfl⟩
      · obtain ⟨hne, l, hl, he⟩ := ih h
        exact ⟨hne, l, List.mem_cons_of_mem _ hl, he⟩

theorem listOf_purgeMap {f : List (Message T) → List (Message T)} (hf : f [] = []) (id : ImageId) {c : CacheMap T}
    (hc : (c.map Prod.fst).Nodup) : listOf id (purgeMap f c) = f (listOf id c) := by
  induction c with
  | nil => simp [purgeMap, listOf, findList, hf]
  | cons p c ih =>
    obtain ⟨k, mm⟩ := p
    rw [List.map_cons, List.nodup_cons] at hc
    by_cases hk : k = id
    · subst hk
      -- the image occurs nowhere else, so nothing is found behind an erased entry
      have hrest : findList k (purgeMap f c) = none :=
        findList_eq_none.2 fun h => hc.1 ((purgeMap_keys f c).subset h)
      cases he : (f mm).isEmpty with
      | true => simpa [purgeMap, listOf, findList, he, hrest] using (List.isEmpty_iff.1 he).symm
      | false => simp [purgeMap, listOf, findList, he]
    · have ih' := ih hc.2
      unfold listOf at ih'
      cases he : (f mm).isEmpty <;> simp [purgeMap, listOf, findList, he, hk, ih']

theorem pushBack_keys (id : ImageId) (msg : Message T) (c : CacheMap T) :
    (pushBack id msg c).map Prod.fst = if id ∈ c.map Prod.fst then c.map Prod.fst else c.map Prod.fst ++ [id] := by
  induction c with
  | nil => simp [pushBack]
  | cons p c ih =>
    obtain ⟨k, mm⟩ := p
    unfold pushBack
    by_cases hk : k = id
    · simp [hk]
    · rw [if_neg hk, List.map_cons, ih]
      by_cases hm : id ∈ c.map Prod.fst
      · rw [if_pos hm, if_pos (by simp only [List.map_cons]; exact List.mem_cons_of_mem _ hm), List.map_cons]
      · rw [if_neg hm, if_neg (by simp only [List.map_cons, List.mem_cons]; exact not_or.2 ⟨Ne.symm hk, hm⟩)]; rfl

theorem mem_pushBack {id : ImageId} {msg : Message T} {p : ImageId × List (Message T)} {c : CacheMap T}
    (h : p ∈ pushBack id msg c) :
    p ∈ c ∨ p = (id, [msg]) ∨ ∃ mm, (id, mm) ∈ c ∧ p = (id, mm ++ [msg]) := by
  induction c with
  | nil => exact Or.inr (Or.inl (List.mem_singleton.1 h))
  | cons q c ih =>
    obtain ⟨k, mm⟩ := q
    unfold pushBack at h
    split at h
    · rename_i hk
      subst hk
      rcases List.mem_cons.1 h with rfl | h
      · exact Or.inr (Or.inr ⟨mm, List.mem_cons_self, rfl⟩)
      · exact Or.inl (List.mem_cons_of_mem _ h)
    · rcases List.mem_cons.1 h with rfl | h
      · exact Or.inl List.mem_cons_self
      · rcases ih h with h | h | ⟨l, hl, he⟩
        · exact Or.inl (List.mem_cons_of_mem _ h)
        · exact Or.inr (Or.inl h)
        · exact Or.inr (Or.inr ⟨l, List.mem_cons_of_mem _ hl, he⟩)

theorem listOf_pushBack (id id' : ImageId) (msg : Message T) (c : CacheMap T) :
    listOf id' (pushBack id msg c) = if id' = id then listOf id' c ++ [msg] else listOf id' c := by
  induction c with
  | nil =>
    by_cases h : id' = id
    · simp [pushBack, listOf, findList, h]
    · simp [pushBack, listOf, findList, h, Ne.symm h]
  | cons p c ih =>
    obtain ⟨k, mm⟩ := p
    unfold listOf at ih
    by_cases hk : k = id
    · by_cases h : id' = id
      · simp [pushBack, listOf, findList, hk, h]
      · simp [pushBack, listOf, findList, hk, h, Ne.symm h]
    · by_cases hk' : k = id'
      · subst hk'; simp [pushBack, listOf, findList, hk]
      · simp only [pushBack, listOf, findList, hk, hk', if_false, ih]

end Loops

/-! ## The cache -/

/-- `MessageCache`. -/
structure MessageCache (T : Type := Int) where
  hasher : String → UInt32
  validAge : T
  cache : CacheMap T
  keys_nodup : (cache.map Prod.fst).Nodup
  nonempty : ∀ p ∈ cache, p.2 ≠ []
  hashed : ∀ p ∈ cache, ∀ m ∈ p.2, m.hash = hasher m.data

namespace MessageCache

section Operations

variable {T : Type}

/-- The constructor. -/
def new (hasher : String → UInt32) (deltat : T) : MessageCache T :=
  ⟨hasher, deltat, [], List.nodup_nil, by simp, by simp⟩

def purgeOldMessages [Sub T] [LT T] [DecidableLT T] (c : MessageCache T) (currentTime : T) : MessageCache T where
  hasher := c.hasher
  validAge := c.validAge
  cache := purgeMap (purgeList c.validAge currentTime) c.cache
  keys_nodup := (purgeMap_keys _ _).nodup c.keys_nodup
  nonempty _ h := (mem_purgeMap h).1
  hashed p h m hm := by
    obtain ⟨_, mm, hmm, he⟩ := mem_purgeMap h
    rw [he, purgeList_eq_dropWhile] at hm
    exact c.hashed _ hmm m (List.dropWhile_subset _ hm)

def «exists» (c : MessageCache T) (id : ImageId) (data : String) : Bool :=
  match findList id c.cache with
  | some l => searchList (c.hasher data) data l
  | none => false

def add (c : MessageCache T) (id : ImageId) (timestamp : T) (data : String) : MessageCache T where
  hasher := c.hasher
  validAge := c.validAge
  cache := pushBack id ⟨c.hasher data, timestamp, data⟩ c.cache
  keys_nodup := by
    rw [pushBack_keys]
    split
    · exact c.keys_nodup
    · rename_i h
      exact List.nodup_append.2 ⟨c.keys_nodup, by simp, by simpa using fun a b hb e => h (by simpa [← e] using ⟨b, hb⟩)⟩
  nonempty p h := by
    rcases mem_pushBack h with h | rfl | ⟨mm, _, rfl⟩
    · exact c.nonempty p h
    · simp
    · simp
  hashed p h m hm := by
    rcases mem_pushBack h with h | rfl | ⟨mm, hmm, rfl⟩
    · exact c.hashed p h m hm
    · rw [List.mem_singleton.1 hm]
    · rcases List.mem_append.1 hm with hm | hm
      · exact c.hashed _ hmm m hm
      · rw [List.mem_singleton.1 hm]

/-- The messages of an image, oldest entry first. -/
def entries (c : MessageCache T) (id : ImageId) : List (Message T) := listOf id c.cache

variable {c : MessageCache T}

@[simp] theorem entries_new (hasher : String → UInt32) (w : T) (id : ImageId) : (new hasher w).entries id = [] := rfl

@[simp] theorem validAge_new (hasher : String → UInt32) (w : T) : (new hasher w).validAge = w := rfl

@[simp] theorem validAge_purge [Sub T] [LT T] [DecidableLT T] (t : T) :
    (c.purgeOldMessages t).validAge = c.validAge := rfl

@[simp] theorem validAge_add (id : ImageId) (t : T) (d : String) : (c.add id t d).validAge = c.validAge := rfl

/-- **Purge**: every list loses its expired front. -/
theorem entries_purge [Sub T] [LT T] [DecidableLT T] (t : T) (id : ImageId) : (c.purgeOldMessages t).entries id =
    (c.entries id).dropWhile fun m => decide (Expired c.validAge t m.timestamp) := by
  unfold entries purgeOldMessages
  rw [listOf_purgeMap rfl id c.keys_nodup, purgeList_eq_dropWhile]

/-- **Add**: one message at the end of one list. -/
theorem entries_add (id id' : ImageId) (t : T) (d : String) : (c.add id t d).entries id' =
    if id' = id then c.entries id' ++ [⟨c.hasher d, t, d⟩] else c.entries id' := listOf_pushBack _ _ _ _

/-- **Exists**: the test of the hash never changes the answer. -/
theorem exists_iff {id : ImageId} {d : String} : c.exists id d = true ↔ ∃ m ∈ c.entries id, m.data = d := by
  unfold «exists» entries listOf
  cases hf : findList id c.cache with
  | none => simp
  | some l =>
    simp only [searchList_iff, Option.getD_some]
    constructor
    · rintro ⟨m, hm, _, hd⟩; exact ⟨m, hm, hd⟩
    · rintro ⟨m, hm, rfl⟩; exact ⟨m, hm, c.hashed _ (mem_of_findList hf) m hm, rfl⟩

end Operations

/-! ## The messages as a set -/

variable {c : MessageCache}

/-- The image, text and time of every message in the cache. -/
def live (c : MessageCache) : Set ((ImageId × String) × Int) :=
  {x | ∃ m ∈ c.entries x.1.1, m.data = x.1.2 ∧ m.timestamp = x.2}

@[simp] theorem live_new (hasher : String → UInt32) (w : Int) : (new hasher w).live = ∅ := by
  ext x; simp [live]

theorem exists_iff_live {id : ImageId} {d : String} : c.exists id d = true ↔ ∃ t, ((id, d), t) ∈ c.live := by
  rw [exists_iff]
  constructor
  · rintro ⟨m, hm, hd⟩; exact ⟨m.timestamp, m, hm, hd, rfl⟩
  · rintro ⟨_, m, hm, hd, _⟩; exact ⟨m, hm, hd⟩

theorem live_purge_subset (t : Int) : (c.purgeOldMessages t).live ⊆ c.live := by
  rintro ⟨⟨id, d⟩, s⟩ ⟨m, hm, hd, hs⟩
  rw [entries_purge] at hm
  exact ⟨m, List.dropWhile_subset _ hm, hd, hs⟩

/-- A purge takes only what is expired. -/
theorem live_purge {t s : Int} {k : ImageId × String} (h : (k, s) ∈ c.live) (hs : ¬Expired c.validAge t s) :
    (k, s) ∈ (c.purgeOldMessages t).live := by
  obtain ⟨m, hm, hd, rfl⟩ := h
  refine ⟨m, ?_, hd, rfl⟩
  rw [entries_purge]
  exact mem_dropWhile_of_false hm (by simpa using hs)

theorem live_add (id : ImageId) (t : Int) (d : String) : (c.add id t d).live = insert ((id, d), t) c.live := by
  ext ⟨⟨id', d'⟩, s⟩
  simp only [live, Set.mem_ofPred_eq, entries_add, Set.mem_insert_iff, Prod.mk.injEq]
  by_cases h : id' = id
  · subst h
    simp only [if_true, List.mem_append, List.mem_singleton]
    constructor
    · rintro ⟨m, hm | rfl, rfl, rfl⟩
      · exact Or.inr ⟨m, hm, rfl, rfl⟩
      · exact Or.inl ⟨⟨trivial, rfl⟩, rfl⟩
    · rintro (⟨⟨_, rfl⟩, rfl⟩ | ⟨m, hm, rfl, rfl⟩)
      · exact ⟨_, Or.inr rfl, rfl, rfl⟩
      · exact ⟨m, Or.inl hm, rfl, rfl⟩
  · simp [h]

/-- No message in the cache is older than the window at `t`. -/
def Fresh (c : MessageCache) (t : Int) : Prop := ∀ id, ∀ m ∈ c.entries id, ¬Expired c.validAge t m.timestamp

/-- In every list the messages expired at `t` stand before the others. -/
def ExpiredFirst (c : MessageCache) (t : Int) : Prop :=
  ∀ id, (c.entries id).Pairwise fun a b => Expired c.validAge t b.timestamp → Expired c.validAge t a.timestamp

/-- Every list is in the order of the times. -/
def InOrder (c : MessageCache) : Prop := ∀ id, (c.entries id).Pairwise fun a b => a.timestamp ≤ b.timestamp

/-- **When a purge is complete.** -/
theorem purge_fresh_iff {t : Int} : (c.purgeOldMessages t).Fresh t ↔ c.ExpiredFirst t := by
  refine forall_congr' fun id => ?_
  rw [entries_purge, validAge_purge]
  have h := dropWhile_clean_iff (p := fun m => decide (Expired c.validAge t m.timestamp)) (l := c.entries id)
  simpa using h

theorem InOrder.expiredFirst (h : c.InOrder) (t : Int) : c.ExpiredFirst t :=
  fun id => (h id).imp fun hab hb => hb.anti hab

theorem inOrder_new (hasher : String → UInt32) (w : Int) : (new hasher w).InOrder := fun _ => List.Pairwise.nil

theorem InOrder.purge (h : c.InOrder) (t : Int) : (c.purgeOldMessages t).InOrder := fun id => by
  rw [entries_purge]; exact (h id).sublist (List.dropWhile_sublist _)

/-- Adding at the end keeps the order iff nothing in the list is later. -/
theorem InOrder.add (h : c.InOrder) {id : ImageId} {t : Int} (ht : ∀ m ∈ c.entries id, m.timestamp ≤ t) (d : String) :
    (c.add id t d).InOrder := fun id' => by
  rw [entries_add]
  split
  · rename_i hid
    subst hid
    exact List.pairwise_append.2 ⟨h id', List.pairwise_singleton _ _, fun a ha b hb => by
      rw [List.mem_singleton.1 hb]; exact ht a ha⟩
  · exact h id'

end MessageCache

end DhsTranslator
