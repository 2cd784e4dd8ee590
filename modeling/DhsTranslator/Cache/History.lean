import Mathlib.Data.List.Forall2
import DhsTranslator.Aging.Queue
import DhsTranslator.Cache.MessageCache

/-!
# Histories of the message cache

The message cache after any sequence of `add` and `purgeOldMessages`, with any clock and any hash function. The list
of each image is a queue (`entries_run`), so an entry is known by the position of the `add` that made it.

- `survivors`: the positions of the entries that an image still has;
- `laws`: what holds of them after every sequence, for any type of times; `cache_laws`: what that says with the times of
  the machine, and `young_forgotten`: a difference that overflows takes a young entry;
- `entries_widen`, `exists_widen`: where no difference overflows, the cache is the one with times in `Int`.
-/

namespace DhsTranslator

open Aging

/-- The operations that change the cache. -/
inductive CacheOp (T : Type) where
  | add (id : ImageId) (timestamp : T) (data : String)
  | purgeOldMessages (currentTime : T)
  deriving DecidableEq, Repr

variable {T : Type} [Sub T] [LT T] [DecidableLT T]

namespace CacheOp

def apply : CacheOp T → MessageCache T → MessageCache T
  | add id timestamp data, c => c.add id timestamp data
  | purgeOldMessages t, c => c.purgeOldMessages t

/-- What the operation does to the list of an image. -/
def onList (hasher : String → UInt32) (validAge : T) (id : ImageId) : CacheOp T → QueueOp (Message T)
  | add id' timestamp data => if id = id' then .push ⟨hasher data, timestamp, data⟩ else .skip
  | purgeOldMessages t => .purge fun m => decide (Expired validAge t m.timestamp)

end CacheOp

/-- The cache after a sequence of operations. -/
def runCache (hasher : String → UInt32) (validAge : T) (ops : List (CacheOp T)) : MessageCache T :=
  ops.foldl (fun c op => op.apply c) (.new hasher validAge)

/-- The positions of the additions whose entries the image still has, oldest entry first. -/
def survivors (hasher : String → UInt32) (validAge : T) (ops : List (CacheOp T)) (id : ImageId) : List Nat :=
  (held (ops.map (CacheOp.onList hasher validAge id))).map Prod.fst

section Histories

variable {hasher : String → UInt32} {validAge : T} {ops : List (CacheOp T)} {id : ImageId} {i : Nat}

theorem runCache_concat (ops : List (CacheOp T)) (op : CacheOp T) :
    runCache hasher validAge (ops ++ [op]) = op.apply (runCache hasher validAge ops) := by
  rw [runCache, List.foldl_append]
  rfl

/-- The hash function and the age stay. -/
theorem runCache_constants (ops : List (CacheOp T)) :
    (runCache hasher validAge ops).hasher = hasher ∧ (runCache hasher validAge ops).validAge = validAge := by
  induction ops using List.reverseRecOn with
  | nil => exact ⟨rfl, rfl⟩
  | append_singleton ops op ih =>
    rw [runCache_concat]
    cases op with
    | add id timestamp data => exact ih
    | purgeOldMessages t => exact ih

/-- **The list of each image is a queue.** -/
theorem entries_run (ops : List (CacheOp T)) (id : ImageId) :
    (runCache hasher validAge ops).entries id = queue (ops.map (CacheOp.onList hasher validAge id)) := by
  induction ops using List.reverseRecOn with
  | nil => rfl
  | append_singleton ops op ih =>
    obtain ⟨hhasher, hage⟩ : (runCache hasher validAge ops).hasher = hasher ∧ _ := runCache_constants ops
    rw [runCache_concat, List.map_append, List.map_singleton, queue_concat, ← ih]
    cases op with
    | add id' timestamp data =>
      rw [CacheOp.apply, MessageCache.entries_add, hhasher, CacheOp.onList]
      by_cases hid : id = id'
      · rw [if_pos hid, if_pos hid]
        rfl
      · rw [if_neg hid, if_neg hid]
        rfl
    | purgeOldMessages t =>
      rw [CacheOp.apply, MessageCache.entries_purge, hage]
      rfl

theorem onList_push {op : CacheOp T} {m : Message T} (h : op.onList hasher validAge id = .push m) :
    op = .add id m.timestamp m.data := by
  cases op with
  | add id' timestamp data =>
    rw [CacheOp.onList] at h
    split_ifs at h with hid
    cases h
    rw [hid]
  | purgeOldMessages t => cases h

theorem onList_purge {op : CacheOp T} {p : Message T → Bool} (h : op.onList hasher validAge id = .purge p) :
    ∃ t, op = .purgeOldMessages t ∧ p = fun m => decide (Expired validAge t m.timestamp) := by
  cases op with
  | add id' timestamp data =>
    rw [CacheOp.onList] at h
    split_ifs at h
  | purgeOldMessages t =>
    cases h
    exact ⟨t, rfl, rfl⟩

/-- An entry was added at its position. -/
theorem add_of_held {m : Message T} (h : (i, m) ∈ held (ops.map (CacheOp.onList hasher validAge id))) :
    ops[i]? = some (.add id m.timestamp m.data) := by
  have hpush := getElem?_of_held h
  rw [List.getElem?_map, Option.map_eq_some_iff] at hpush
  obtain ⟨op, hop, hpush⟩ := hpush
  rw [hop, onList_push hpush]

theorem mem_survivors : i ∈ survivors hasher validAge ops id ↔
    ∃ m, (i, m) ∈ held (ops.map (CacheOp.onList hasher validAge id)) := by
  simp [survivors]

/-- **The survivors are the entries**, in order. -/
theorem forall₂_survivors (ops : List (CacheOp T)) (id : ImageId) :
    List.Forall₂ (fun i m => ops[i]? = some (.add id m.timestamp m.data)) (survivors hasher validAge ops id)
      ((runCache hasher validAge ops).entries id) := by
  rw [entries_run, ← map_held, survivors, List.forall₂_map_left_iff, List.forall₂_map_right_iff, List.forall₂_same]
  exact fun x hx => add_of_held hx

/-- **An entry leaves** at a purge for which it is too old. -/
theorem survivor_removed {op : CacheOp T} (h : i ∈ survivors hasher validAge ops id)
    (hgone : i ∉ survivors hasher validAge (ops ++ [op]) id) : ∃ t timestamp data, op = .purgeOldMessages t ∧
      ops[i]? = some (.add id timestamp data) ∧ Expired validAge t timestamp := by
  obtain ⟨m, hm⟩ := mem_survivors.1 h
  have hm' : (i, m) ∉ held (ops.map (CacheOp.onList hasher validAge id) ++ [op.onList hasher validAge id]) := by
    intro hheld
    exact hgone (mem_survivors.2 ⟨m, by rw [List.map_append, List.map_singleton]; exact hheld⟩)
  obtain ⟨p, hop, hp⟩ := removed hm hm'
  obtain ⟨t, rfl, rfl⟩ := onList_purge hop
  exact ⟨t, m.timestamp, m.data, rfl, add_of_held hm, of_decide_eq_true hp⟩

/-- An addition survives, or a purge after it came too late for it. -/
theorem survives_or_removed {timestamp : T} {data : String} (h : ops[i]? = some (.add id timestamp data)) :
    i ∈ survivors hasher validAge ops id ∨
      ∃ j t, i < j ∧ ops[j]? = some (.purgeOldMessages t) ∧ Expired validAge t timestamp := by
  have hpush : (ops.map (CacheOp.onList hasher validAge id))[i]? = some (.push ⟨hasher data, timestamp, data⟩) := by
    rw [List.getElem?_map, h]
    exact congrArg some (if_pos rfl)
  rcases held_or_removed hpush with hheld | ⟨j, p, hij, hj, hp⟩
  · exact Or.inl (mem_survivors.2 ⟨_, hheld⟩)
  · rw [List.getElem?_map, Option.map_eq_some_iff] at hj
    obtain ⟨op, hop, hpurge⟩ := hj
    obtain ⟨t, rfl, rfl⟩ := onList_purge hpurge
    exact Or.inr ⟨j, t, hij, hop, of_decide_eq_true hp⟩

/-- What holds of the cache after a sequence of operations; `TooOld t s` is asked of a purge at `t` that takes an entry
stamped `s`. -/
structure CacheLaws (hasher : String → UInt32) (validAge : T) (ops : List (CacheOp T)) (TooOld : T → T → Prop) :
    Prop where
  nonempty : ∀ p ∈ (runCache hasher validAge ops).cache, p.2 ≠ []
  exists_iff : ∀ id data, (runCache hasher validAge ops).exists id data = true ↔
    ∃ i ∈ survivors hasher validAge ops id, ∃ timestamp, ops[i]? = some (.add id timestamp data)
  removed : ∀ pre op post, ops = pre ++ op :: post → ∀ id, ∀ i ∈ survivors hasher validAge pre id,
    i ∉ survivors hasher validAge (pre ++ [op]) id → ∃ t timestamp data, op = .purgeOldMessages t ∧
      pre[i]? = some (.add id timestamp data) ∧ TooOld t timestamp
  forgotten : ∀ i id timestamp data, ops[i]? = some (.add id timestamp data) →
    i ∈ survivors hasher validAge ops id ∨
      ∃ j t, i < j ∧ ops[j]? = some (.purgeOldMessages t) ∧ TooOld t timestamp
  order : ∀ id, (survivors hasher validAge ops id).Pairwise (· < ·) ∧
    List.Forall₂ (fun i m => ops[i]? = some (.add id m.timestamp m.data)) (survivors hasher validAge ops id)
      ((runCache hasher validAge ops).entries id)

/-- **The laws**, for every hash function, age and sequence of operations, and every type of times. -/
theorem laws (hasher : String → UInt32) (validAge : T) (ops : List (CacheOp T)) :
    CacheLaws hasher validAge ops (Expired validAge) where
  nonempty := (runCache hasher validAge ops).nonempty
  exists_iff id data := by
    rw [MessageCache.exists_iff, entries_run, ← map_held]
    simp only [mem_survivors, List.mem_map]
    constructor
    · rintro ⟨m, ⟨x, hx, rfl⟩, rfl⟩
      exact ⟨x.1, ⟨x.2, hx⟩, x.2.timestamp, add_of_held hx⟩
    · rintro ⟨i, ⟨m, hm⟩, timestamp, hadd⟩
      have hm' := add_of_held hm
      rw [hadd] at hm'
      cases hm'
      exact ⟨m, ⟨(i, m), hm, rfl⟩, rfl⟩
  removed pre op post _ id i hi hgone := survivor_removed hi hgone
  forgotten i id timestamp data h := survives_or_removed h
  order id := ⟨List.pairwise_map.2 (pairwise_held _), forall₂_survivors ops id⟩

/-- Another word for too old, that follows from being expired. -/
theorem CacheLaws.mono {TooOld TooOld' : T → T → Prop} (h : CacheLaws hasher validAge ops TooOld)
    (himp : ∀ t s, TooOld t s → TooOld' t s) : CacheLaws hasher validAge ops TooOld' where
  nonempty := h.nonempty
  exists_iff := h.exists_iff
  removed pre op post hops id i hi hgone := by
    obtain ⟨t, timestamp, data, hop, hadd, hold⟩ := h.removed pre op post hops id i hi hgone
    exact ⟨t, timestamp, data, hop, hadd, himp _ _ hold⟩
  forgotten i id timestamp data hadd := by
    rcases h.forgotten i id timestamp data hadd with hsurvives | ⟨j, t, hij, hj, hold⟩
    · exact Or.inl hsurvives
    · exact Or.inr ⟨j, t, hij, hj, himp _ _ hold⟩
  order := h.order

end Histories

/-! ## The times of the machine -/

/-- The difference of the times is a `time_t`. -/
def CTime.Fits (t s : CTime) : Prop := -2 ^ 31 ≤ t.toInt - s.toInt ∧ t.toInt - s.toInt < 2 ^ 31

/-- The difference of the times exceeds the age, as a `time_t`, and as a number where it is one. -/
def Outlived (validAge t s : CTime) : Prop :=
  validAge < t - s ∧ (t.Fits s → validAge.toInt < t.toInt - s.toInt)

section Machine

variable {hasher : String → UInt32} {validAge t s : CTime} {ops : List (CacheOp CTime)} {id : ImageId}

theorem toInt_sub_of_fits (h : t.Fits s) : (t - s).toInt = t.toInt - s.toInt := by
  rw [Int32.toInt_sub]
  exact Int.bmod_eq_of_le (by have := h.1; omega) (by have := h.2; omega)

/-- Times that are not negative have a difference that fits. -/
theorem fits_of_nonneg (ht : 0 ≤ t.toInt) (hs : 0 ≤ s.toInt) : t.Fits s := by
  have hlo := s.toInt_lt
  have hhi := t.toInt_lt
  exact ⟨by omega, by omega⟩

/-- Where the difference fits, being expired is a matter of numbers. -/
theorem expired_toInt (h : t.Fits s) : Expired validAge t s ↔ Expired validAge.toInt t.toInt s.toInt := by
  unfold Expired
  rw [Int32.lt_iff_toInt_lt, toInt_sub_of_fits h]

theorem outlived_of_expired (h : Expired validAge t s) : Outlived validAge t s :=
  ⟨h, fun hfits => (expired_toInt hfits).1 h⟩

/-- **The laws of the message cache**, for every hash function, age and sequence of operations. -/
theorem cache_laws (hasher : String → UInt32) (validAge : CTime) (ops : List (CacheOp CTime)) :
    CacheLaws hasher validAge ops (Outlived validAge) :=
  (laws hasher validAge ops).mono fun _ _ h => outlived_of_expired h

/-- **A young entry is forgotten** when the difference overflows. -/
theorem young_forgotten : ¬∀ (hasher : String → UInt32) (validAge : CTime) (ops : List (CacheOp CTime)),
    CacheLaws hasher validAge ops fun t s => validAge.toInt < t.toInt - s.toInt := by
  intro hall
  have hlaws := hall (fun _ => 0) 90 [.add "GS1" 1 "OBJECT", .purgeOldMessages (-2147483648)]
  obtain ⟨t, timestamp, data, hop, hadd, hold⟩ := hlaws.removed [.add "GS1" 1 "OBJECT"] _ [] rfl "GS1" 0 (by decide)
    (by decide)
  cases hop
  cases hadd
  exact absurd hold (by decide)

/-! ## Clocks that do not overflow -/

/-- The message with its time as a number. -/
def Message.widen (m : Message CTime) : Message := ⟨m.hash, m.timestamp.toInt, m.data⟩

def CacheOp.widen : CacheOp CTime → CacheOp Int
  | add id timestamp data => add id timestamp.toInt data
  | purgeOldMessages t => purgeOldMessages t.toInt

/-- No purge is so far from an addition that the difference overflows. -/
def NoOverflow (ops : List (CacheOp CTime)) : Prop :=
  ∀ t id s data, .purgeOldMessages t ∈ ops → .add id s data ∈ ops → t.Fits s

/-- The time an operation is given. -/
def CacheOp.clock : CacheOp CTime → CTime
  | add _ timestamp _ => timestamp
  | purgeOldMessages t => t

/-- Of a clock that is never negative, as the machine's, no differences overflow. -/
theorem noOverflow_of_nonneg (h : ∀ op ∈ ops, 0 ≤ op.clock.toInt) : NoOverflow ops :=
  fun _ _ _ _ ht hs => fits_of_nonneg (h _ ht) (h _ hs)

/-- An entry was added. -/
theorem add_of_entry {m : Message CTime} (h : m ∈ (runCache hasher validAge ops).entries id) :
    .add id m.timestamp m.data ∈ ops := by
  rw [entries_run, ← map_held, List.mem_map] at h
  obtain ⟨⟨i, m⟩, hm, rfl⟩ := h
  exact List.mem_of_getElem? (add_of_held hm)

/-- **Where no difference overflows**, the entries are those of the cache with times in `Int`. -/
theorem entries_widen (h : NoOverflow ops) (id : ImageId) :
    (runCache hasher validAge.toInt (ops.map CacheOp.widen)).entries id =
      ((runCache hasher validAge ops).entries id).map Message.widen := by
  induction ops using List.reverseRecOn with
  | nil => rfl
  | append_singleton ops op ih =>
    have hpre : NoOverflow ops := fun t id s data ht hs =>
      h t id s data (List.mem_append_left _ ht) (List.mem_append_left _ hs)
    have ih := ih hpre
    obtain ⟨hhasher, hage⟩ : (runCache hasher validAge ops).hasher = hasher ∧ _ := runCache_constants ops
    obtain ⟨hhasher', hage'⟩ : (runCache hasher validAge.toInt (ops.map CacheOp.widen)).hasher = hasher ∧ _ :=
      runCache_constants _
    rw [List.map_append, List.map_singleton, runCache_concat, runCache_concat]
    cases op with
    | add id' timestamp data =>
      simp only [CacheOp.widen, CacheOp.apply, MessageCache.entries_add, hhasher, hhasher', ih]
      by_cases hid : id = id'
      · rw [if_pos hid, if_pos hid, List.map_append, List.map_singleton]
        rfl
      · rw [if_neg hid, if_neg hid]
    | purgeOldMessages t =>
      simp only [CacheOp.widen, CacheOp.apply, MessageCache.entries_purge, hage, hage', ih, List.dropWhile_map]
      -- the tests agree on the entries, since all of them were added
      refine congrArg _ (dropWhile_congr fun m hm => ?_)
      have hfits := h t id m.timestamp m.data (List.mem_append_right _ (List.mem_singleton_self _))
        (List.mem_append_left _ (add_of_entry hm))
      exact decide_eq_decide.2 (expired_toInt hfits).symm

/-- So are the answers. -/
theorem exists_widen (h : NoOverflow ops) (id : ImageId) (data : String) :
    (runCache hasher validAge.toInt (ops.map CacheOp.widen)).exists id data =
      (runCache hasher validAge ops).exists id data := by
  rw [Bool.eq_iff_iff, MessageCache.exists_iff, MessageCache.exists_iff, entries_widen h]
  constructor
  · rintro ⟨_, hwide, hdata⟩
    obtain ⟨m, hm, rfl⟩ := List.mem_map.1 hwide
    exact ⟨m, hm, hdata⟩
  · rintro ⟨m, hm, hdata⟩
    exact ⟨m.widen, List.mem_map_of_mem hm, hdata⟩

end Machine

end DhsTranslator
