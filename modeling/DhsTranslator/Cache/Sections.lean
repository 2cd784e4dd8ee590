import DhsTranslator.Cache.Locked

/-!
# What the member functions do under the lock

A view of the cache is its map with the messages next to their pointers. `Stands x v g h`: the map is that of the view,
and the heap has the messages of the view, those of `x`, and nothing else. Every access takes a view to a view, and every
member function, from the moment it has the lock, takes the cache of the view to the cache that the function of
`MessageCache.lean` gives: `outside_purge`, `outside_exists`, `outside_add`.
-/

namespace DhsTranslator

open Conc Memory LockedCache

/-! ## The map -/

namespace PtrMap

variable {pre post : PtrMap} {k : ImageId} {l l' : List MessagePtr}

theorem entry_mid (hk : k ∉ pre.map Prod.fst) : (pre ++ (k, l) :: post).entry k = some l := by
  induction pre with
  | nil => simp [entry]
  | cons p pre ih =>
    have hne := List.ne_of_not_mem_cons hk
    have hrest := List.not_mem_of_not_mem_cons hk
    simp only [List.cons_append, entry, if_neg (Ne.symm hne)]
    exact ih hrest

theorem set_mid (hk : k ∉ pre.map Prod.fst) : (pre ++ (k, l) :: post).set k l' = pre ++ (k, l') :: post := by
  induction pre with
  | nil => simp [set]
  | cons p pre ih =>
    have hne := List.ne_of_not_mem_cons hk
    have hrest := List.not_mem_of_not_mem_cons hk
    simp only [List.cons_append, set, if_neg (Ne.symm hne)]
    rw [ih hrest]

theorem erase_mid (hk : k ∉ pre.map Prod.fst) : (pre ++ (k, l) :: post).erase k = pre ++ post := by
  induction pre with
  | nil => simp [erase]
  | cons p pre ih =>
    have hne := List.ne_of_not_mem_cons hk
    have hrest := List.not_mem_of_not_mem_cons hk
    simp only [List.cons_append, erase, if_neg (Ne.symm hne)]
    rw [ih hrest]

theorem next_mid (hk : k ∉ pre.map Prod.fst) : (pre ++ (k, l) :: post).next k = post.head?.map Prod.fst := by
  induction pre with
  | nil => simp [next]
  | cons p pre ih =>
    have hne := List.ne_of_not_mem_cons hk
    have hrest := List.not_mem_of_not_mem_cons hk
    simp only [List.cons_append, next, if_neg (Ne.symm hne)]
    exact ih hrest

theorem entry_eq_none {g : PtrMap} (hk : k ∉ g.map Prod.fst) : g.entry k = none := by
  induction g with
  | nil => rfl
  | cons p g ih =>
    have hne := List.ne_of_not_mem_cons hk
    have hrest := List.not_mem_of_not_mem_cons hk
    simp only [entry, if_neg (Ne.symm hne)]
    exact ih hrest

end PtrMap

/-! ## Views -/

/-- The map with the messages next to their pointers. -/
abbrev CacheView := List (ImageId × List (MessagePtr × Message))

namespace CacheView

def ptrs (v : CacheView) : PtrMap := v.map fun e => (e.1, e.2.map Prod.fst)

def msgs (v : CacheView) : CacheMap := v.map fun e => (e.1, e.2.map Prod.snd)

def cells (v : CacheView) : List (MessagePtr × Message) := v.flatMap Prod.snd

variable {v v' : CacheView} {k : ImageId} {l : List (MessagePtr × Message)}

@[simp] theorem ptrs_append : ptrs (v ++ v') = v.ptrs ++ v'.ptrs := List.map_append

@[simp] theorem ptrs_cons : ptrs ((k, l) :: v) = (k, l.map Prod.fst) :: v.ptrs := rfl

@[simp] theorem ptrs_nil : ptrs [] = [] := rfl

@[simp] theorem msgs_append : msgs (v ++ v') = v.msgs ++ v'.msgs := List.map_append

@[simp] theorem msgs_cons : msgs ((k, l) :: v) = (k, l.map Prod.snd) :: v.msgs := rfl

@[simp] theorem msgs_nil : msgs [] = [] := rfl

@[simp] theorem cells_append : cells (v ++ v') = v.cells ++ v'.cells := List.flatMap_append

@[simp] theorem cells_cons : cells ((k, l) :: v) = l ++ v.cells := rfl

@[simp] theorem cells_nil : cells [] = [] := rfl

theorem keys_ptrs : v.ptrs.map Prod.fst = v.map Prod.fst := by simp [ptrs]

theorem keys_msgs : v.msgs.map Prod.fst = v.map Prod.fst := by simp [msgs]

end CacheView

/-- The map is that of the view, and on the heap are the messages of the view and those of `x`. -/
structure Stands (x : List (MessagePtr × Message)) (v : CacheView) (g : PtrMap) (h : Cells MessagePtr Message) : Prop where
  map : g = v.ptrs
  heap : ∀ m y, h m = some y ↔ (m, y) ∈ x ++ v.cells
  keys : (v.map Prod.fst).Nodup
  distinct : ((x ++ v.cells).map Prod.fst).Nodup

section Stands

variable {x : List (MessagePtr × Message)} {v pre post : CacheView} {k : ImageId} {l : List (MessagePtr × Message)}
  {g : PtrMap} {h : Cells MessagePtr Message} {m : MessagePtr} {y : Message}

theorem Stands.not_before (hs : Stands x (pre ++ (k, l) :: post) g h) : k ∉ pre.ptrs.map Prod.fst := by
  have hkeys := hs.keys
  rw [List.map_append, List.map_cons] at hkeys
  rw [CacheView.keys_ptrs]
  intro hk
  exact (List.nodup_append.1 hkeys).2.2 k hk k List.mem_cons_self rfl

theorem Stands.entry (hs : Stands x (pre ++ (k, l) :: post) g h) : g.entry k = some (l.map Prod.fst) := by
  rw [hs.map, CacheView.ptrs_append, CacheView.ptrs_cons]
  exact PtrMap.entry_mid hs.not_before

theorem Stands.next (hs : Stands x (pre ++ (k, l) :: post) g h) : g.next k = post.head?.map Prod.fst := by
  rw [hs.map, CacheView.ptrs_append, CacheView.ptrs_cons, PtrMap.next_mid hs.not_before]
  cases post <;> rfl

/-- Other cells, other places of them. -/
theorem Stands.rearrange {x' : List (MessagePtr × Message)} {v' : CacheView} (hs : Stands x v g h)
    (hperm : (x' ++ v'.cells).Perm (x ++ v.cells)) (hkeys : (v'.map Prod.fst).Nodup) : Stands x' v' v'.ptrs h :=
  ⟨rfl, fun m y => (hs.heap m y).trans hperm.mem_iff.symm, hkeys, (hperm.map Prod.fst).nodup_iff.2 hs.distinct⟩

/-- The list of an image is changed. -/
theorem Stands.set {x' l' : List (MessagePtr × Message)} (hs : Stands x (pre ++ (k, l) :: post) g h)
    (hperm : (x' ++ l').Perm (x ++ l)) : Stands x' (pre ++ (k, l') :: post) (g.set k (l'.map Prod.fst)) h := by
  have hmap : g.set k (l'.map Prod.fst) = CacheView.ptrs (pre ++ (k, l') :: post) := by
    rw [hs.map, CacheView.ptrs_append, CacheView.ptrs_cons, PtrMap.set_mid hs.not_before]
    simp
  rw [hmap]
  refine hs.rearrange ?_ (by simpa using hs.keys)
  have hmid : ∀ a b c d : List (MessagePtr × Message), (a ++ (c ++ (b ++ d))).Perm (c ++ ((a ++ b) ++ d)) := by
    intro a b c d
    rw [← List.append_assoc, ← List.append_assoc c, ← List.append_assoc, ← List.append_assoc]
    exact (List.perm_append_comm.append_right b).append_right d |>.trans (by simp)
  simp only [CacheView.cells_append, CacheView.cells_cons]
  refine (hmid x' l' pre.cells post.cells).trans (List.Perm.trans ?_ (hmid x l pre.cells post.cells).symm)
  exact (hperm.append_right post.cells).append_left pre.cells

/-- A cell that is not in the map is deleted. -/
theorem Stands.delete (hs : Stands ((m, y) :: x) v g h) : Stands x v g (h.delete m) := by
  have hdistinct := hs.distinct
  rw [List.cons_append, List.map_cons, List.nodup_cons] at hdistinct
  refine ⟨hs.map, fun m' y' => ?_, hs.keys, hdistinct.2⟩
  by_cases hm : m' = m
  · subst hm
    rw [Cells.delete, Function.update_self]
    refine iff_of_false (by simp) fun hmem => hdistinct.1 ?_
    exact List.mem_map.2 ⟨_, hmem, rfl⟩
  · rw [Cells.delete_of_ne hm, hs.heap, List.cons_append, List.mem_cons]
    refine or_iff_right fun heq => hm ?_
    cases heq
    rfl

end Stands

/-! ## Accesses under the lock -/

section Accesses

variable {rounds : Nat} {u : MessageCache} {x : List (MessagePtr × Message)} {v pre post : CacheView} {k id : ImageId}
  {l : List (MessagePtr × Message)} {g : PtrMap} {h : Cells MessagePtr Message} {m : MessagePtr} {y : Message}

theorem part_done {c : CacheAccess} {Q : c.Resp → PtrMap → Cells MessagePtr Message → Prop} (hdef : Defined g h c)
    (hc : c ≠ .spin) (hQ : ∀ r g' h', AccessDone g h ⟨c, r⟩ g' h' → Q r g' h') :
    Part (accessFp rounds) u Q (access c) g h :=
  ⟨⟨hdef, fun hspin => absurd hspin hc⟩, fun r g' h' heff => hQ r g' h' (heff hdef)⟩

theorem part_begin {Q : MapIter → PtrMap → Cells MessagePtr Message → Prop} (hs : Stands x v g h)
    (hQ : Q (v.head?.map Prod.fst) g h) : Part (accessFp rounds) u Q (access .begin) g h := by
  refine part_done trivial nofun fun r g' h' hdone => ?_
  obtain ⟨rfl, rfl, rfl⟩ := hdone
  have hhead : g'.head?.map Prod.fst = v.head?.map Prod.fst := by
    rw [hs.map]
    cases v <;> rfl
  rw [hhead]
  exact hQ

theorem part_next {Q : MapIter → PtrMap → Cells MessagePtr Message → Prop} (hs : Stands x (pre ++ (k, l) :: post) g h)
    (hQ : Q (post.head?.map Prod.fst) g h) : Part (accessFp rounds) u Q (access (.next k)) g h := by
  refine part_done (by simp [Defined, hs.entry]) nofun fun r g' h' hdone => ?_
  obtain ⟨rfl, rfl, rfl⟩ := hdone
  rw [hs.next]
  exact hQ

theorem part_erase {Q : Unit → PtrMap → Cells MessagePtr Message → Prop} (hs : Stands x (pre ++ (k, []) :: post) g h)
    (hQ : ∀ g', Stands x (pre ++ post) g' h → Q () g' h) : Part (accessFp rounds) u Q (access (.erase k)) g h := by
  refine part_done (by simp [Defined, hs.entry]) nofun fun r g' h' hdone => ?_
  obtain ⟨rfl, rfl⟩ := hdone
  refine hQ _ ?_
  have hmap : g.erase k = CacheView.ptrs (pre ++ post) := by
    rw [hs.map, CacheView.ptrs_append, CacheView.ptrs_cons, PtrMap.erase_mid hs.not_before, CacheView.ptrs_append]
  rw [hmap]
  refine hs.rearrange (by simp) ?_
  have hkeys := hs.keys
  rw [List.map_append, List.map_cons] at hkeys
  rw [List.map_append]
  exact hkeys.sublist (List.Sublist.append_left (List.sublist_cons_self _ _) _)

theorem part_find_some {Q : MapIter → PtrMap → Cells MessagePtr Message → Prop}
    (hs : Stands x (pre ++ (k, l) :: post) g h) (hQ : Q (some k) g h) :
    Part (accessFp rounds) u Q (access (.find k)) g h := by
  refine part_done trivial nofun fun r g' h' hdone => ?_
  obtain ⟨rfl, rfl, rfl⟩ := hdone
  rw [hs.entry]
  exact hQ

theorem part_find_none {Q : MapIter → PtrMap → Cells MessagePtr Message → Prop} (hs : Stands x v g h)
    (hid : id ∉ v.map Prod.fst) (hQ : Q none g h) : Part (accessFp rounds) u Q (access (.find id)) g h := by
  refine part_done trivial nofun fun r g' h' hdone => ?_
  obtain ⟨rfl, rfl, rfl⟩ := hdone
  rw [PtrMap.entry_eq_none (by rwa [hs.map, CacheView.keys_ptrs])]
  exact hQ

theorem part_subscript_some {Q : Unit → PtrMap → Cells MessagePtr Message → Prop}
    (hs : Stands x (pre ++ (k, l) :: post) g h) (hQ : Q () g h) :
    Part (accessFp rounds) u Q (access (.subscript k)) g h := by
  refine part_done trivial nofun fun r g' h' hdone => ?_
  obtain ⟨rfl, rfl⟩ := hdone
  rw [hs.entry]
  exact hQ

theorem part_subscript_none {Q : Unit → PtrMap → Cells MessagePtr Message → Prop} (hs : Stands x v g h)
    (hid : id ∉ v.map Prod.fst) (hQ : ∀ g', Stands x (v ++ [(id, [])]) g' h → Q () g' h) :
    Part (accessFp rounds) u Q (access (.subscript id)) g h := by
  refine part_done trivial nofun fun r g' h' hdone => ?_
  obtain ⟨rfl, rfl⟩ := hdone
  refine hQ _ ?_
  have hmap : (if (g.entry id).isSome then g else g ++ [(id, [])]) = CacheView.ptrs (v ++ [(id, [])]) := by
    rw [PtrMap.entry_eq_none (by rwa [hs.map, CacheView.keys_ptrs]), hs.map]
    simp
  rw [hmap]
  refine hs.rearrange (by simp) ?_
  rw [List.map_append]
  exact List.nodup_append.2 ⟨hs.keys, by simp, by simpa using fun a l hl heq => hid (by simpa [← heq] using ⟨l, hl⟩)⟩

theorem part_empty {Q : Bool → PtrMap → Cells MessagePtr Message → Prop} (hs : Stands x (pre ++ (k, l) :: post) g h)
    (hQ : Q l.isEmpty g h) : Part (accessFp rounds) u Q (access (.empty k)) g h := by
  refine part_done (by simp [Defined, hs.entry]) nofun fun r g' h' hdone => ?_
  obtain ⟨rfl, rfl, rfl⟩ := hdone
  rw [PtrMap.at, hs.entry]
  simpa using hQ

theorem part_front {Q : MessagePtr → PtrMap → Cells MessagePtr Message → Prop}
    (hs : Stands x (pre ++ (k, (m, y) :: l) :: post) g h) (hQ : Q m g h) :
    Part (accessFp rounds) u Q (access (.front k)) g h := by
  refine part_done (by simp [Defined, hs.entry]) nofun fun r g' h' hdone => ?_
  obtain ⟨hr, rfl, rfl⟩ := hdone
  rw [PtrMap.at, hs.entry] at hr
  cases hr
  exact hQ

theorem part_popFront {Q : Unit → PtrMap → Cells MessagePtr Message → Prop}
    (hs : Stands x (pre ++ (k, (m, y) :: l) :: post) g h)
    (hQ : ∀ g', Stands ((m, y) :: x) (pre ++ (k, l) :: post) g' h → Q () g' h) :
    Part (accessFp rounds) u Q (access (.popFront k)) g h := by
  refine part_done (by simp [Defined, hs.entry]) nofun fun r g' h' hdone => ?_
  obtain ⟨rfl, rfl⟩ := hdone
  refine hQ _ ?_
  rw [PtrMap.at, hs.entry]
  refine hs.set ?_
  exact List.perm_middle.symm

theorem part_pushBack {Q : Unit → PtrMap → Cells MessagePtr Message → Prop}
    (hs : Stands ((m, y) :: x) (pre ++ (k, l) :: post) g h)
    (hQ : ∀ g', Stands x (pre ++ (k, l ++ [(m, y)]) :: post) g' h → Q () g' h) :
    Part (accessFp rounds) u Q (access (.pushBack k m)) g h := by
  refine part_done (by simp [Defined, hs.entry]) nofun fun r g' h' hdone => ?_
  obtain ⟨rfl, rfl⟩ := hdone
  refine hQ _ ?_
  rw [PtrMap.at, hs.entry]
  have hlist : (some (l.map Prod.fst)).getD [] ++ [m] = (l ++ [(m, y)]).map Prod.fst := by simp
  rw [hlist]
  refine hs.set ?_
  rw [← List.append_assoc]
  exact List.perm_append_comm.trans (by simp)

theorem part_item {Q : Option MessagePtr → PtrMap → Cells MessagePtr Message → Prop} {n : Nat}
    (hs : Stands x (pre ++ (k, l) :: post) g h) (hn : n ≤ l.length) (hQ : Q (l[n]?.map Prod.fst) g h) :
    Part (accessFp rounds) u Q (access (.item k n)) g h := by
  refine part_done ⟨_, hs.entry, by simpa using hn⟩ nofun fun r g' h' hdone => ?_
  obtain ⟨rfl, rfl, rfl⟩ := hdone
  rw [PtrMap.at, hs.entry]
  simpa using hQ

theorem part_load {Q : Message → PtrMap → Cells MessagePtr Message → Prop} (hs : Stands x v g h)
    (hm : (m, y) ∈ x ++ v.cells) (hQ : Q y g h) : Part (accessFp rounds) u Q (access (.load m)) g h := by
  have hval := (hs.heap m y).2 hm
  refine part_done (by simp [Defined, hval]) nofun fun r g' h' hdone => ?_
  obtain ⟨hr, rfl, rfl⟩ := hdone
  cases hval.symm.trans hr
  exact hQ

theorem part_delete {Q : Unit → PtrMap → Cells MessagePtr Message → Prop} (hs : Stands ((m, y) :: x) v g h)
    (hQ : ∀ h', Stands x v g h' → Q () g h') : Part (accessFp rounds) u Q (access (.delete m)) g h := by
  have hval := (hs.heap m y).2 List.mem_cons_self
  refine part_done (by simp [Defined, hval]) nofun fun r g' h' hdone => ?_
  obtain ⟨rfl, rfl⟩ := hdone
  exact hQ _ hs.delete

theorem part_spin {α : Type} {Q : α → PtrMap → Cells MessagePtr Message → Prop} (hspin : rounds ≤ u.size) :
    Part (accessFp rounds) u Q spin g h := ⟨⟨trivial, fun _ => hspin⟩, fun r => r.elim⟩

end Accesses

/-! ## The loops -/

section Loops

variable {rounds fuel : Nat} {u : MessageCache} {x : List (MessagePtr × Message)} {v pre rest : CacheView} {k id : ImageId}
  {l : List (MessagePtr × Message)} {g : PtrMap} {h : Cells MessagePtr Message} {age t : Int}

/-- A list is purged. -/
theorem part_purgeList {Q : Unit → PtrMap → Cells MessagePtr Message → Prop} (hs : Stands x (pre ++ (k, l) :: rest) g h)
    (hfuel : l.length < fuel ∨ rounds ≤ u.size)
    (hQ : ∀ l' g' h', l'.map Prod.snd = DhsTranslator.purgeList age t (l.map Prod.snd) →
      Stands x (pre ++ (k, l') :: rest) g' h' → Q () g' h') :
    Part (accessFp rounds) u Q (LockedCache.purgeList age t k fuel) g h := by
  induction fuel generalizing l g h with
  | zero => exact part_spin (hfuel.resolve_left (Nat.not_lt_zero _))
  | succ fuel ih =>
    rw [LockedCache.purgeList, part_bind]
    refine part_empty hs ?_
    cases l with
    | nil => exact hQ [] g h rfl hs
    | cons e l =>
      obtain ⟨m, y⟩ := e
      simp only [List.isEmpty_cons, Bool.false_eq_true, if_false]
      rw [part_bind]
      refine part_front hs ?_
      rw [part_bind]
      refine part_load (y := y) hs (by simp) ?_
      by_cases hold : t - y.timestamp > age
      · rw [if_pos hold, part_bind]
        refine part_front hs ?_
        rw [part_bind]
        refine part_popFront hs fun g₁ hs₁ => ?_
        rw [part_bind]
        refine part_delete hs₁ fun h₂ hs₂ => ?_
        refine ih hs₂ (hfuel.imp_left fun hlt => Nat.lt_of_succ_lt_succ hlt) fun l' g' h' hl' hs' => hQ l' g' h' ?_ hs'
        rw [hl', List.map_cons, DhsTranslator.purgeList, if_pos hold]
      · rw [if_neg hold]
        refine hQ _ g h ?_ hs
        rw [List.map_cons, DhsTranslator.purgeList, if_neg hold]

/-- The map is purged from an iterator on. -/
theorem part_purgeLoop {Q : Unit → PtrMap → Cells MessagePtr Message → Prop} (hs : Stands x (pre ++ rest) g h)
    (hfuel : rest.length ≤ fuel ∨ rounds ≤ u.size)
    (hlists : (∀ e ∈ rest, e.2.length < rounds) ∨ rounds ≤ u.size)
    (hQ : ∀ rest' g' h', rest'.msgs = purgeMap (DhsTranslator.purgeList age t) rest.msgs →
      Stands x (pre ++ rest') g' h' → Q () g' h') :
    Part (accessFp rounds) u Q (purgeLoop age rounds t fuel (rest.head?.map Prod.fst)) g h := by
  induction rest generalizing pre fuel g h with
  | nil =>
    have hend : purgeLoop age rounds t fuel none = .ret () := by cases fuel <;> rfl
    rw [List.head?_nil, Option.map_none, hend, part_ret]
    exact hQ [] g h rfl hs
  | cons e rest ih =>
    obtain ⟨k, l⟩ := e
    cases fuel with
    | zero => exact part_spin (hfuel.resolve_left (Nat.not_succ_le_zero _))
    | succ fuel =>
      have hfuel' : rest.length ≤ fuel ∨ rounds ≤ u.size := hfuel.imp_left fun hle => Nat.le_of_succ_le_succ hle
      have hlists' : (∀ e ∈ rest, e.2.length < rounds) ∨ rounds ≤ u.size :=
        hlists.imp_left fun hall e he => hall e (List.mem_cons_of_mem _ he)
      rw [List.head?_cons, Option.map_some, purgeLoop, part_bind]
      refine part_purgeList hs (hlists.imp_left fun hall => hall (k, l) List.mem_cons_self) fun l' g₁ h₁ hl' hs₁ => ?_
      rw [part_bind]
      refine part_empty hs₁ ?_
      cases l' with
      | nil =>
        -- the image is left without messages
        simp only [List.isEmpty_nil, if_true]
        rw [part_bind]
        refine part_next hs₁ ?_
        rw [part_bind]
        refine part_erase hs₁ fun g₂ hs₂ => ?_
        refine ih hs₂ hfuel' hlists' fun rest' g' h' hrest hs' => hQ rest' g' h' ?_ hs'
        rw [hrest, CacheView.msgs_cons, purgeMap, ← hl']
        rfl
      | cons e' l' =>
        simp only [List.isEmpty_cons, Bool.false_eq_true, if_false]
        rw [part_bind]
        refine part_next hs₁ ?_
        have hs₂ : Stands x ((pre ++ [(k, e' :: l')]) ++ rest) g₁ h₁ := by simpa using hs₁
        refine ih hs₂ hfuel' hlists' fun rest' g' h' hrest hs' => hQ ((k, e' :: l') :: rest') g' h' ?_ (by simpa using hs')
        rw [CacheView.msgs_cons, hrest, CacheView.msgs_cons, purgeMap, ← hl']
        rfl

/-- What the lock guards. -/
def CacheGuarded (hasher : String → UInt32) (age : Int) (u : MessageCache) (g : PtrMap)
    (h : Cells MessagePtr Message) : Prop :=
  u.hasher = hasher ∧ u.validAge = age ∧ ∃ v, Stands [] v g h ∧ v.msgs = u.cache

variable {hasher : String → UInt32} {hash : UInt32} {data : String}

/-- The list is searched from a place on. -/
theorem inside_search {n : Nat} {post : Bool → MessageCache → Prop} (hs : Stands [] (pre ++ (k, l) :: rest) g h)
    (hfuel : l.length < n + fuel ∨ rounds ≤ u.size) (hn : n ≤ l.length) (hg : CacheGuarded hasher age u g h)
    (hpost : post (searchList hash data ((l.drop n).map Prod.snd)) u) :
    Inside (accessFp rounds) (CacheGuarded hasher age) u post (search hash data k fuel n) g h := by
  induction fuel generalizing n with
  | zero =>
    have hspin := hfuel.resolve_left (Nat.not_lt.2 hn)
    exact ⟨⟨trivial, fun _ => hspin⟩, fun r => r.elim⟩
  | succ fuel ih =>
    rw [search]
    refine inside_bind (part_item hs hn ?_)
    by_cases hend : n = l.length
    · subst hend
      rw [List.getElem?_eq_none (Nat.le_refl _), Option.map_none]
      rw [List.drop_length] at hpost
      exact ⟨false, u, rfl, hg, hpost⟩
    · have hlt : n < l.length := by omega
      rw [List.getElem?_eq_getElem hlt, Option.map_some]
      rw [List.drop_eq_getElem_cons hlt, List.map_cons] at hpost
      refine inside_bind (part_load (y := (l[n]).2) hs ?_ ?_)
      · simp [List.getElem_mem hlt]
      · by_cases hfound : (l[n]).2.hash = hash ∧ (l[n]).2.data = data
        · rw [if_pos hfound]
          rw [searchList, if_pos hfound] at hpost
          exact ⟨true, u, rfl, hg, hpost⟩
        · rw [if_neg hfound]
          rw [searchList, if_neg hfound] at hpost
          exact ih (hfuel.imp_left fun hlt' => by omega) hlt hpost

end Loops

/-! ## The member functions -/

section Functions

variable {rounds : Nat} {hasher : String → UInt32} {age : Int} {u : MessageCache}

/-- An image is in the map, or it is not. -/
theorem view_cases (id : ImageId) (v : CacheView) :
    id ∉ v.map Prod.fst ∨ ∃ pre l rest, v = pre ++ (id, l) :: rest ∧ id ∉ pre.map Prod.fst := by
  induction v with
  | nil => exact Or.inl List.not_mem_nil
  | cons e v ih =>
    obtain ⟨k, l⟩ := e
    by_cases hk : k = id
    · subst hk
      exact Or.inr ⟨[], l, v, rfl, List.not_mem_nil⟩
    · rcases ih with hid | ⟨pre, l', rest, rfl, hid⟩
      · exact Or.inl (by simpa [Ne.symm hk] using hid)
      · exact Or.inr ⟨(k, l) :: pre, l', rest, rfl, by simpa [Ne.symm hk] using hid⟩

theorem findList_mid {pre rest : CacheMap} {id : ImageId} {mm : List Message} (hid : id ∉ pre.map Prod.fst) :
    findList id (pre ++ (id, mm) :: rest) = some mm := by
  induction pre with
  | nil => simp [findList]
  | cons p pre ih =>
    have hne := List.ne_of_not_mem_cons hid
    simp only [List.cons_append, findList, if_neg (Ne.symm hne)]
    exact ih (List.not_mem_of_not_mem_cons hid)

/-- What the map refers to is live. -/
theorem MessageCache.mem_live {c : MessageCache} {id : ImageId} {mm : List Message} {y : Message}
    (hmem : (id, mm) ∈ c.cache) (hy : y ∈ mm) : ((id, y.data), y.timestamp) ∈ c.live := by
  obtain ⟨pre, rest, hsplit⟩ := List.append_of_mem hmem
  have hkeys := c.keys_nodup
  rw [hsplit, List.map_append, List.map_cons] at hkeys
  have hid : id ∉ pre.map Prod.fst := fun h => (List.nodup_append.1 hkeys).2.2 id h id List.mem_cons_self rfl
  have hentries : c.entries id = mm := by
    unfold MessageCache.entries listOf
    rw [hsplit, findList_mid hid]
    rfl
  exact ⟨y, hentries ▸ hy, rfl, rfl⟩

theorem pushBack_mid {pre rest : CacheMap} {id : ImageId} {mm : List Message} {msg : Message}
    (hid : id ∉ pre.map Prod.fst) :
    pushBack id msg (pre ++ (id, mm) :: rest) = pre ++ (id, mm ++ [msg]) :: rest := by
  induction pre with
  | nil => simp [pushBack]
  | cons p pre ih =>
    have hne := List.ne_of_not_mem_cons hid
    simp only [List.cons_append, pushBack, if_neg (Ne.symm hne)]
    rw [ih (List.not_mem_of_not_mem_cons hid)]

theorem pushBack_end {c : CacheMap} {id : ImageId} {msg : Message} (hid : id ∉ c.map Prod.fst) :
    pushBack id msg c = c ++ [(id, [msg])] := by
  induction c with
  | nil => rfl
  | cons p c ih =>
    have hne := List.ne_of_not_mem_cons hid
    simp only [List.cons_append, pushBack, if_neg (Ne.symm hne)]
    rw [ih (List.not_mem_of_not_mem_cons hid)]

/-- No list is longer than the cache is large, and there are no more images than messages. -/
theorem view_size {v : CacheView} (hv : v.msgs = u.cache) :
    v.length ≤ u.size ∧ ∀ e ∈ v, e.2.length ≤ u.size := by
  have hsize : u.size = (v.flatMap Prod.snd).length := by
    rw [MessageCache.size, ← hv, CacheView.msgs, List.flatMap_map, ← List.map_flatMap]
    exact List.length_map _
  have hne : ∀ e ∈ v, 0 < e.2.length := by
    intro e he
    have hmem : (e.1, e.2.map Prod.snd) ∈ u.cache := by
      rw [← hv]
      exact List.mem_map_of_mem he
    exact List.length_pos_iff.2 fun hnil => u.nonempty _ hmem (by simp [hnil])
  rw [hsize]
  clear hsize hv
  induction v with
  | nil => exact ⟨Nat.le_refl _, nofun⟩
  | cons e v ih =>
    obtain ⟨hlen, hlists⟩ := ih fun e' he' => hne e' (List.mem_cons_of_mem _ he')
    have hpos := hne e List.mem_cons_self
    rw [List.flatMap_cons, List.length_append, List.length_cons]
    refine ⟨by omega, fun e' he' => ?_⟩
    rcases List.mem_cons.1 he' with rfl | he'
    · omega
    · have hle := hlists e' he'
      omega

theorem size_lt_or (rounds : Nat) (u : MessageCache) : u.size < rounds ∨ rounds ≤ u.size := Nat.lt_or_ge _ _

theorem outside_locked {R : Type} {post : MessageCache → R → MessageCache → Prop} {f : Unit → CacheProg R}
    {h : Cells MessagePtr Message} :
    Outside (accessFp rounds) (CacheGuarded hasher age) post (lock >>= f) h ↔
      ∀ u g shared, CacheGuarded hasher age u g shared → (∀ a, h a ≠ none → shared a = none) →
        Inside (accessFp rounds) (CacheGuarded hasher age) u (post u) (f ()) g (shared.join h) := Iff.rfl

/-- **`purgeOldMessages`.** -/
theorem outside_purge (t : Int) :
    Outside (accessFp rounds) (CacheGuarded hasher age) (fun u _ u' => u' = u.purgeOldMessages t)
      (LockedCache.purgeOldMessages age rounds t) .none := by
  rw [LockedCache.purgeOldMessages, outside_locked]
  rintro u g shared ⟨hhasher, hage, v, hs, hv⟩ -
  rw [Cells.join_none]
  obtain ⟨hlen, hlists⟩ := view_size hv
  refine inside_bind (part_begin hs ?_)
  have hs₀ : Stands [] ([] ++ v) g shared := hs
  refine inside_bind (part_purgeLoop hs₀ ?_ ?_ ?_)
  · exact (size_lt_or rounds u).imp_left fun hlt => (Nat.le_of_lt (Nat.lt_of_le_of_lt hlen hlt))
  · exact (size_lt_or rounds u).imp_left fun hlt e he => Nat.lt_of_le_of_lt (hlists e he) hlt
  · intro rest' g' h' hrest hs'
    exact ⟨(), u.purgeOldMessages t, rfl, ⟨hhasher, hage, rest', hs', by rw [hrest, hv, ← hage]; rfl⟩, rfl⟩

/-- **`exists`.** -/
theorem outside_exists (id : ImageId) (data : String) :
    Outside (accessFp rounds) (CacheGuarded hasher age) (fun u found u' => found = u.exists id data ∧ u' = u)
      (LockedCache.exists hasher rounds id data) .none := by
  rw [LockedCache.exists, outside_locked]
  rintro u g shared ⟨hhasher, hage, v, hs, hv⟩ -
  rw [Cells.join_none]
  have hg : CacheGuarded hasher age u g shared := ⟨hhasher, hage, v, hs, hv⟩
  rcases view_cases id v with hid | ⟨pre, l, rest, rfl, hid⟩
  · refine inside_bind (part_find_none hs hid ?_)
    have hnone : findList id u.cache = none := findList_eq_none.2 (by rwa [← hv, CacheView.keys_msgs])
    exact ⟨false, u, rfl, hg, by rw [MessageCache.exists, hnone], rfl⟩
  · refine inside_bind (part_find_some hs ?_)
    have hsome : findList id u.cache = some (l.map Prod.snd) := by
      rw [← hv, CacheView.msgs_append, CacheView.msgs_cons]
      exact findList_mid (by rwa [CacheView.keys_msgs])
    have hl := (view_size hv).2 (id, l) (by simp)
    refine inside_search hs ?_ (Nat.zero_le _) hg ⟨?_, rfl⟩
    · rw [Nat.zero_add]
      exact (size_lt_or rounds u).imp_left fun hlt => Nat.lt_of_le_of_lt hl hlt
    · rw [List.drop_zero, MessageCache.exists, hsome, ← hhasher]

/-- The map and the heap with one more message. -/
theorem stands_with {v : CacheView} {g : PtrMap} {shared : Cells MessagePtr Message} {m : MessagePtr} {y : Message}
    (hs : Stands [] v g shared) (hm : shared m = none) : Stands [(m, y)] v g (shared.join (Cells.none.new m y)) := by
  refine ⟨hs.map, fun m' y' => ?_, hs.keys, ?_⟩
  · by_cases hm' : m' = m
    · subst hm'
      have hnot : ∀ y', (m', y') ∉ v.cells := fun y' hmem => by
        have hsome := (hs.heap m' y').2 (by simpa using hmem)
        rw [hm] at hsome
        cases hsome
      simp [Cells.join, hm, hnot, eq_comm]
    · have hjoin : (shared.join (Cells.none.new m y)) m' = shared m' := by
        simp [Cells.join, Cells.new_of_ne hm']
      rw [hjoin, hs.heap]
      simp [hm']
  · have hnot : m ∉ v.cells.map Prod.fst := by
      intro hmem
      obtain ⟨⟨m', y'⟩, he, rfl⟩ := List.mem_map.1 hmem
      have hsome := (hs.heap m' y').2 (by simpa using he)
      rw [hm] at hsome
      cases hsome
    rw [List.singleton_append, List.map_cons, List.nodup_cons]
    exact ⟨hnot, by simpa using hs.distinct⟩

/-- **`add`.** -/
theorem outside_add (id : ImageId) (t : Int) (data : String) :
    Outside (accessFp rounds) (CacheGuarded hasher age) (fun u _ u' => u' = u.add id t data)
      (LockedCache.add hasher id t data) .none := by
  -- what the new message holds at first is overwritten
  refine ⟨trivial, fun m h₁ hnew => ?_⟩
  obtain ⟨-, -, x, y, rfl⟩ := hnew [] trivial
  refine ⟨by simp [accessFp, CacheAccess.Private], fun _ h₂ hdata => ?_⟩
  obtain ⟨-, _, hv₁, rfl⟩ := hdata [] (by simp [Defined])
  rw [Cells.new_self, Option.some.injEq] at hv₁
  refine ⟨by simp [accessFp, CacheAccess.Private], fun _ h₃ hhash => ?_⟩
  obtain ⟨-, _, hv₂, rfl⟩ := hhash [] (by simp [Defined])
  rw [Cells.new_self, Option.some.injEq] at hv₂
  refine ⟨by simp [accessFp, CacheAccess.Private], fun _ h₄ htime => ?_⟩
  obtain ⟨-, _, hv₃, rfl⟩ := htime [] (by simp [Defined])
  rw [Cells.new_self, Option.some.injEq] at hv₃
  subst hv₁ hv₂ hv₃
  simp only [Cells.new, Function.update_idem]
  rintro u g shared ⟨hhasher, hage, v, hs, hv⟩ hapart
  have hm : shared m = none := hapart m (by simp)
  have hs' := stands_with (y := ⟨hasher data, t, data⟩) hs hm
  have hend : ∀ {v' : CacheView} {g' : PtrMap}, v'.msgs = pushBack id ⟨hasher data, t, data⟩ v.msgs →
      Stands [] v' g' (shared.join (Cells.none.new m ⟨hasher data, t, data⟩)) →
      CacheGuarded hasher age (u.add id t data) g' (shared.join (Cells.none.new m ⟨hasher data, t, data⟩)) := by
    intro v' g' hv' hs'
    exact ⟨hhasher, hage, v', hs', by rw [hv', hv, ← hhasher]; rfl⟩
  rcases view_cases id v with hid | ⟨pre, l, rest, rfl, hid⟩
  · refine inside_bind (part_subscript_none hs' hid fun g₁ hs₁ => ?_)
    refine inside_bind (part_pushBack hs₁ fun g₂ hs₂ => ?_)
    refine ⟨(), u.add id t data, rfl, hend ?_ hs₂, rfl⟩
    rw [pushBack_end (by rwa [CacheView.keys_msgs])]
    simp
  · refine inside_bind (part_subscript_some hs' ?_)
    refine inside_bind (part_pushBack hs' fun g₂ hs₂ => ?_)
    refine ⟨(), u.add id t data, rfl, hend ?_ hs₂, rfl⟩
    rw [CacheView.msgs_append, CacheView.msgs_cons, CacheView.msgs_append, CacheView.msgs_cons,
      pushBack_mid (by rwa [CacheView.keys_msgs])]
    simp

end Functions

/-! ## The destructor -/

section Destructor

variable {rounds fuel : Nat} {u : MessageCache} {v pre rest : CacheView} {k : ImageId} {l : List (MessagePtr × Message)}
  {g g₀ : PtrMap} {h : Cells MessagePtr Message}

/-- The messages of a list are deleted, from a place on; the pointers stay in the list. -/
theorem part_deleteList {n : Nat} {Q : Unit → PtrMap → Cells MessagePtr Message → Prop}
    (hg : g = CacheView.ptrs (pre ++ (k, l) :: rest)) (hs : Stands [] (pre ++ (k, l.drop n) :: rest) g₀ h)
    (hn : n ≤ l.length) (hfuel : l.length < n + fuel ∨ rounds ≤ u.size)
    (hQ : ∀ g₁ h', Stands [] (pre ++ (k, []) :: rest) g₁ h' → Q () g h') :
    Part (accessFp rounds) u Q (deleteList k fuel n) g h := by
  induction fuel generalizing n g₀ h with
  | zero => exact part_spin (hfuel.resolve_left (Nat.not_lt.2 hn))
  | succ fuel ih =>
    have hentry : g.entry k = some (l.map Prod.fst) := by
      rw [hg, CacheView.ptrs_append, CacheView.ptrs_cons]
      exact PtrMap.entry_mid hs.not_before
    rw [deleteList, part_bind]
    refine part_done ⟨_, hentry, by simpa using hn⟩ nofun fun r g' h' hdone => ?_
    obtain ⟨rfl, rfl, rfl⟩ := hdone
    rw [PtrMap.at, hentry, Option.getD_some, List.getElem?_map]
    by_cases hend : n = l.length
    · subst hend
      rw [List.getElem?_eq_none (Nat.le_refl _)]
      rw [List.drop_length] at hs
      exact hQ _ _ hs
    · have hlt : n < l.length := by omega
      rw [List.getElem?_eq_getElem hlt]
      rw [List.drop_eq_getElem_cons hlt] at hs
      have hs' : Stands [(l[n].1, l[n].2)] (pre ++ (k, l.drop (n + 1)) :: rest) _ h' := hs.set (by simp)
      have hval := (hs'.heap l[n].1 l[n].2).2 List.mem_cons_self
      refine part_bind.2 (part_done (by simp [Defined, hval]) nofun fun r g₁ h₁ hdone => ?_)
      obtain ⟨rfl, rfl⟩ := hdone
      exact ih hs'.delete hlt (hfuel.imp_left fun hlt' => by omega)

/-- All messages are deleted, from an iterator on. -/
theorem part_destroyLoop {Q : Unit → PtrMap → Cells MessagePtr Message → Prop} (hs : Stands [] (pre ++ rest) g h)
    (hpre : pre.cells = []) (hfuel : rest.length ≤ fuel ∨ rounds ≤ u.size)
    (hlists : (∀ e ∈ rest, e.2.length < rounds) ∨ rounds ≤ u.size) (hQ : ∀ g', Q () g' .none) :
    Part (accessFp rounds) u Q (destroyLoop rounds fuel (rest.head?.map Prod.fst)) g h := by
  induction rest generalizing pre fuel g h with
  | nil =>
    have hend : destroyLoop rounds fuel none = .ret () := by cases fuel <;> rfl
    have hnone : h = .none := by
      funext m
      cases hm : h m with
      | none => rfl
      | some y => simpa [hpre] using (hs.heap m y).1 hm
    rw [List.head?_nil, Option.map_none, hend, part_ret, hnone]
    exact hQ g
  | cons e rest ih =>
    obtain ⟨k, l⟩ := e
    cases fuel with
    | zero => exact part_spin (hfuel.resolve_left (Nat.not_succ_le_zero _))
    | succ fuel =>
      have hlist : l.length < 0 + rounds ∨ rounds ≤ u.size := by
        rw [Nat.zero_add]
        exact hlists.imp_left fun hall => hall (k, l) List.mem_cons_self
      rw [List.head?_cons, Option.map_some, destroyLoop, part_bind]
      refine part_deleteList hs.map hs (Nat.zero_le _) hlist fun g₁ h₁ hs₁ => ?_
      -- the list has pointers to deleted messages until it is cleared
      have hentry := hs.entry
      refine part_bind.2 (part_done (by simp [Defined, hentry]) nofun fun r g₂ h₂ hdone => ?_)
      obtain ⟨rfl, rfl⟩ := hdone
      have hmap : g.set k [] = CacheView.ptrs (pre ++ (k, []) :: rest) := by
        rw [hs.map, CacheView.ptrs_append, CacheView.ptrs_cons, PtrMap.set_mid hs.not_before]
        simp
      have hs₂ : Stands [] (pre ++ (k, []) :: rest) (g.set k []) h₂ := ⟨hmap, hs₁.heap, hs₁.keys, hs₁.distinct⟩
      rw [part_bind]
      refine part_next hs₂ ?_
      have hs₃ : Stands [] ((pre ++ [(k, [])]) ++ rest) (g.set k []) h₂ := by simpa using hs₂
      exact ih hs₃ (by simp [hpre]) (hfuel.imp_left fun hle => Nat.le_of_succ_le_succ hle)
        (hlists.imp_left fun hall e he => hall e (List.mem_cons_of_mem _ he))

/-- **The destructor**, under the lock. -/
theorem inside_destroy {hasher : String → UInt32} {age : Int} (hg : CacheGuarded hasher age u g h) :
    Inside (accessFp rounds) (fun _ g h => g = [] ∧ h = .none) u (fun _ _ => True) (do
      let it ← access .begin
      destroyLoop rounds rounds it
      access .clearMap
      unlock) g h := by
  obtain ⟨hhasher, hage, v, hs, hv⟩ := hg
  obtain ⟨hlen, hlists⟩ := view_size hv
  have hs₀ : Stands [] ([] ++ v) g h := hs
  refine inside_bind (part_begin hs ?_)
  refine inside_bind (part_destroyLoop hs₀ rfl ?_ ?_ fun g' => ?_)
  · exact (size_lt_or rounds u).imp_left fun hlt => Nat.le_of_lt (Nat.lt_of_le_of_lt hlen hlt)
  · exact (size_lt_or rounds u).imp_left fun hlt e he => Nat.lt_of_le_of_lt (hlists e he) hlt
  · refine inside_bind (part_done trivial nofun fun r g₁ h₁ hdone => ?_)
    obtain ⟨rfl, rfl⟩ := hdone
    exact ⟨(), u, rfl, ⟨rfl, rfl⟩, trivial⟩

end Destructor

end DhsTranslator
