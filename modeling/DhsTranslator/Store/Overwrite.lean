import Mathlib.Data.List.Basic

/-!
# Stores that are overwritten

A store maps keys to values; a write gives values to some keys, the last one counts, and leaves the others alone.

- `Settled s kvs`: every key of the write `kvs` holds the value the write gives it; a settled write changes nothing
  (`get_put_settled`);
- `settled_replay`: a write stays settled under later writes that agree with it;
- `Store.ofFun`: functions from keys to values are a store.
-/

namespace Overwrite

variable {K V : Type} [DecidableEq K]

/-- The value a write gives to a key. -/
def lastOf (k : K) : List (K × V) → Option V
  | [] => none
  | (k', v) :: kvs => (lastOf k kvs).or (if k' = k then some v else none)

/-- A store: a write overwrites exactly the keys it names. -/
structure Store (K V : Type) [DecidableEq K] where
  State : Type
  put : State → List (K × V) → State
  get : State → K → Option V
  get_put : ∀ s kvs k, get (put s kvs) k = (lastOf k kvs).or (get s k)

namespace Store

/-- The store of all functions from keys to values. -/
def ofFun : Store K V where
  State := K → Option V
  put s kvs k := (lastOf k kvs).or (s k)
  get s k := s k
  get_put _ _ _ := rfl

variable (S : Store K V)

/-- One write after another. -/
def replay (s : S.State) (ws : List (List (K × V))) : S.State := ws.foldl S.put s

theorem replay_append (s : S.State) (ws ws' : List (List (K × V))) :
    S.replay s (ws ++ ws') = S.replay (S.replay s ws) ws' := List.foldl_append

theorem replay_cons (s : S.State) (kvs : List (K × V)) (ws : List (List (K × V))) :
    S.replay s (kvs :: ws) = S.replay (S.put s kvs) ws := rfl

/-- Every key of the write holds the value the write gives it. -/
def Settled (s : S.State) (kvs : List (K × V)) : Prop := ∀ k v, lastOf k kvs = some v → S.get s k = some v

end Store

/-- Two writes give no key different values. -/
def Agree (kvs kvs' : List (K × V)) : Prop := ∀ k v v', lastOf k kvs = some v → lastOf k kvs' = some v' → v' = v

variable {S : Store K V} {s : S.State} {kvs kvs' : List (K × V)}

theorem settled_put (s : S.State) (kvs : List (K × V)) : S.Settled (S.put s kvs) kvs := by
  intro k v h
  rw [S.get_put, h]
  rfl

/-- A settled write changes nothing. -/
theorem get_put_settled (h : S.Settled s kvs) (k : K) : S.get (S.put s kvs) k = S.get s k := by
  rw [S.get_put]
  cases hk : lastOf k kvs with
  | none => rfl
  | some v => rw [h k v hk]; rfl

theorem Store.Settled.put (h : S.Settled s kvs) (ha : Agree kvs kvs') : S.Settled (S.put s kvs') kvs := by
  intro k v hk
  rw [S.get_put]
  cases hk' : lastOf k kvs' with
  | none => exact h k v hk
  | some v' => rw [ha k v v' hk hk']; rfl

/-- A write stays settled under writes that agree with it. -/
theorem settled_replay {ws : List (List (K × V))} (h : S.Settled s kvs) (ha : ∀ kvs' ∈ ws, Agree kvs kvs') :
    S.Settled (S.replay s ws) kvs := by
  induction ws generalizing s with
  | nil => exact h
  | cons kvs' ws ih =>
    exact ih (h.put (ha kvs' List.mem_cons_self)) fun kvs'' hmem => ha kvs'' (List.mem_cons_of_mem _ hmem)

/-- A store sees only the values. -/
theorem get_put_congr {s' : S.State} (h : ∀ k, S.get s k = S.get s' k) (k : K) :
    S.get (S.put s kvs) k = S.get (S.put s' kvs) k := by
  rw [S.get_put, S.get_put, h]

end Overwrite
