import Mathlib.Data.List.Induction
import DhsTranslator.Aging.Window

/-!
# Histories of queues

A queue that grows at the back and loses elements at the front while a test holds. `queue ops` is what it holds after
the operations `ops`; `held ops` is what it holds when every element carries the position of the operation that pushed
it, so that equal elements can be told apart.

- `map_held`: the positions aside, the elements are the same;
- `getElem?_of_held`, `pairwise_held`: an element was pushed at its position, and positions grow towards the back;
- `removed`: an element leaves only by a test that it passes; `held_or_removed`: each one pushed is held or has left.
-/

namespace Aging

/-- An operation on a queue of `α`; `skip` stands for operations on other queues. -/
inductive QueueOp (α : Type) where
  | push (x : α)
  | purge (p : α → Bool)
  | skip

namespace QueueOp

variable {α β : Type}

def apply : QueueOp α → List α → List α
  | push x, l => l ++ [x]
  | purge p, l => l.dropWhile p
  | skip, l => l

/-- The operation on elements that carry their position. -/
def tag (i : Nat) : QueueOp α → QueueOp (Nat × α)
  | push x => push (i, x)
  | purge p => purge (p ∘ Prod.snd)
  | skip => skip

/-- Positions do not matter. -/
theorem map_apply_tag (op : QueueOp α) (i : Nat) (l : List (Nat × α)) :
    ((op.tag i).apply l).map Prod.snd = op.apply (l.map Prod.snd) := by
  cases op with
  | push x => exact List.map_append
  | purge p => exact List.dropWhile_map.symm
  | skip => rfl

/-- An element stays, or passes the test of a purge. -/
theorem apply_tag_keeps {op : QueueOp α} {i : Nat} {l : List (Nat × α)} {x : Nat × α} (hx : x ∈ l)
    (hgone : x ∉ (op.tag i).apply l) : ∃ p, op = purge p ∧ p x.2 = true := by
  cases op with
  | push y => exact absurd (List.mem_append_left _ hx) hgone
  | skip => exact absurd hx hgone
  | purge p =>
    refine ⟨p, rfl, ?_⟩
    by_contra hp
    exact hgone (mem_dropWhile_of_false hx (Bool.not_eq_true _ ▸ hp))

/-- What is there was there or is pushed. -/
theorem mem_apply_tag {op : QueueOp α} {i : Nat} {l : List (Nat × α)} {x : Nat × α} (hx : x ∈ (op.tag i).apply l) :
    x ∈ l ∨ (x.1 = i ∧ op = push x.2) := by
  cases op with
  | push y =>
    rcases List.mem_append.1 hx with hx | hx
    · exact Or.inl hx
    · rw [List.mem_singleton.1 hx]
      exact Or.inr ⟨rfl, rfl⟩
  | purge p => exact Or.inl (List.dropWhile_subset _ hx)
  | skip => exact Or.inl hx

end QueueOp

open QueueOp

section Histories

variable {α : Type} {ops : List (QueueOp α)} {op : QueueOp α} {i : Nat} {x : α}

/-- What the queue holds in the end. -/
def queue (ops : List (QueueOp α)) : List α := ops.foldl (fun l op => op.apply l) []

/-- The same with positions. -/
def held (ops : List (QueueOp α)) : List (Nat × α) := queue (ops.mapIdx fun i op => op.tag i)

theorem queue_concat (ops : List (QueueOp α)) (op : QueueOp α) : queue (ops ++ [op]) = op.apply (queue ops) := by
  rw [queue, List.foldl_append]
  rfl

theorem held_concat (ops : List (QueueOp α)) (op : QueueOp α) :
    held (ops ++ [op]) = (op.tag ops.length).apply (held ops) := by
  rw [held, List.mapIdx_concat, queue_concat]
  rfl

/-- **Positions aside**, the queue is the same. -/
theorem map_held (ops : List (QueueOp α)) : (held ops).map Prod.snd = queue ops := by
  induction ops using List.reverseRecOn with
  | nil => rfl
  | append_singleton ops op ih => rw [held_concat, queue_concat, map_apply_tag, ih]

/-- An element was pushed at its position. -/
theorem getElem?_of_held (h : (i, x) ∈ held ops) : ops[i]? = some (push x) := by
  induction ops using List.reverseRecOn with
  | nil => exact absurd h List.not_mem_nil
  | append_singleton ops op ih =>
    rw [held_concat] at h
    rcases mem_apply_tag h with hold | ⟨hi, hop⟩
    · have hi := ih hold
      rw [List.getElem?_append_left (List.getElem?_eq_some_iff.1 hi).1, hi]
    · subst hi hop
      simp

theorem lt_length_of_held (h : (i, x) ∈ held ops) : i < ops.length :=
  (List.getElem?_eq_some_iff.1 (getElem?_of_held h)).1

/-- **Order**: what was pushed first stands first. -/
theorem pairwise_held (ops : List (QueueOp α)) : (held ops).Pairwise fun a b => a.1 < b.1 := by
  induction ops using List.reverseRecOn with
  | nil => exact List.Pairwise.nil
  | append_singleton ops op ih =>
    rw [held_concat]
    cases op with
    | push x =>
      refine List.pairwise_append.2 ⟨ih, List.pairwise_singleton _ _, fun a ha b hb => ?_⟩
      rw [List.mem_singleton.1 hb]
      exact lt_length_of_held ha
    | purge p => exact ih.sublist (List.dropWhile_sublist _)
    | skip => exact ih

/-- What is pushed is held at first. -/
theorem held_push (ops : List (QueueOp α)) (x : α) : (ops.length, x) ∈ held (ops ++ [push x]) := by
  rw [held_concat]
  exact List.mem_append_right _ (List.mem_singleton_self _)

/-- **Leaving**: only by a test that the element passes. -/
theorem removed (h : (i, x) ∈ held ops) (hgone : (i, x) ∉ held (ops ++ [op])) : ∃ p, op = purge p ∧ p x = true := by
  rw [held_concat] at hgone
  exact apply_tag_keeps h hgone

/-- **Each element pushed is held or has left** at some purge after it. -/
theorem held_or_removed (h : ops[i]? = some (push x)) :
    (i, x) ∈ held ops ∨ ∃ j p, i < j ∧ ops[j]? = some (purge p) ∧ p x = true := by
  induction ops using List.reverseRecOn with
  | nil => cases h
  | append_singleton ops op ih =>
    by_cases hlt : i < ops.length
    · rw [List.getElem?_append_left hlt] at h
      rcases ih h with hheld | ⟨j, p, hij, hj, hp⟩
      · by_cases hgone : (i, x) ∈ held (ops ++ [op])
        · exact Or.inl hgone
        · obtain ⟨p, rfl, hp⟩ := removed hheld hgone
          exact Or.inr ⟨ops.length, p, hlt, by simp, hp⟩
      · exact Or.inr ⟨j, p, hij, by rw [List.getElem?_append_left (List.getElem?_eq_some_iff.1 hj).1, hj], hp⟩
    · have hi : i = ops.length := by
        have hbound := (List.getElem?_eq_some_iff.1 h).1
        rw [List.length_append, List.length_singleton] at hbound
        omega
      subst hi
      obtain rfl : op = push x := by simpa using h
      exact Or.inl (held_push ops x)

end Histories

end Aging
