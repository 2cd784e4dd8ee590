import DhsTranslator.Service.Concurrent

/-!
# Expired messages in concurrent runs

A purge takes messages from the front of each list only, and a message is added when the adapter call is over, with
the time read before the call.

- `inOrder_of_addsInOrder`: the lists are in the order of the times as long as every message is added behind earlier
  ones;
- `purges_fresh`: the purges of a run leave nothing expired iff each finds the expired messages in front, so always
  when messages are added in order;
- `late_add_survives`: a slow adapter call puts an old message behind a young one, and it outlives its time.
-/

namespace DhsTranslator

open Conc Aging DhsService

section Runs

variable {ι : Type} [DecidableEq ι]

/-- After every purge of the run nothing in the cache is expired. -/
def PurgesFresh (a : ServiceState ι) (tr : List (Event ι SvcSig)) (d : ServiceState ι) : Prop :=
  ∀ i t c c', Occurs svcSem a tr d c ⟨i, ⟨.purgeOldMessages t, ()⟩⟩ c' → c'.shared.Fresh t

/-- Before every purge of the run the expired messages of each list are in front. -/
def PurgesExpiredFirst (a : ServiceState ι) (tr : List (Event ι SvcSig)) (d : ServiceState ι) : Prop :=
  ∀ i t c c', Occurs svcSem a tr d c ⟨i, ⟨.purgeOldMessages t, ()⟩⟩ c' → c.shared.ExpiredFirst t

/-- Every message of the run is added behind messages that are not later. -/
def AddsInOrder (a : ServiceState ι) (tr : List (Event ι SvcSig)) (d : ServiceState ι) : Prop :=
  ∀ i id t msg c c', Occurs svcSem a tr d c ⟨i, ⟨.add id t msg, ()⟩⟩ c' → ∀ m ∈ c.shared.entries id, m.timestamp ≤ t

variable {a b c c' d : ServiceState ι} {tr : List (Event ι SvcSig)}

/-- A step of the service, on the cache. -/
theorem step_sem {e : Event ι SvcSig} (h : Step svcSem c e c') : svcSem e.tid c.shared e.act c'.shared := by
  cases h with
  | mk _ hsem => exact hsem

theorem inOrder_of_addsInOrder (ha : a.shared.InOrder) (hadd : AddsInOrder a tr d) {e : Event ι SvcSig}
    (h : Occurs svcSem a tr d c e c') : c.shared.InOrder := by
  refine h.invariant (I := fun s => s.shared.InOrder) ha ?_
  rintro b ⟨i, act⟩ b' hocc hb
  obtain ⟨_, _, _, _, hstep, _⟩ := id hocc
  have hsem : svcSem i b.shared act b'.shared := step_sem hstep
  rcases sem_cases hsem with ⟨t, _, heq⟩ | ⟨id, t, msg, hact, heq⟩ | heq
  · rw [heq]; exact hb.purge t
  · obtain rfl : act = _ := hact
    rw [heq]
    exact hb.add (hadd i id t msg b b' hocc) msg
  · rw [heq]; exact hb

/-- A purge of the run, on the cache. -/
theorem purge_of_occurs {i : ι} {t : Int} (h : Occurs svcSem a tr d c ⟨i, ⟨.purgeOldMessages t, ()⟩⟩ c') :
    c'.shared = c.shared.purgeOldMessages t := by
  obtain ⟨_, _, _, _, hstep, _⟩ := h
  exact step_sem hstep

/-- **When purges are complete.** -/
theorem purges_fresh (env : Env) (hasher : String → UInt32) (w : Int) (req : ι → AxiomNode)
    (tr : List (Event ι SvcSig)) (d : ServiceState ι) :
    (PurgesFresh (start env hasher w req) tr d ↔ PurgesExpiredFirst (start env hasher w req) tr d) ∧
    (AddsInOrder (start env hasher w req) tr d → PurgesFresh (start env hasher w req) tr d) := by
  have hiff : PurgesFresh (start env hasher w req) tr d ↔ PurgesExpiredFirst (start env hasher w req) tr d := by
    constructor
    · intro h i t c c' hocc
      have hfresh := h i t c c' hocc
      rw [purge_of_occurs hocc] at hfresh
      exact MessageCache.purge_fresh_iff.1 hfresh
    · intro h i t c c' hocc
      rw [purge_of_occurs hocc]
      exact MessageCache.purge_fresh_iff.2 (h i t c c' hocc)
  refine ⟨hiff, fun hadd => hiff.2 fun i t c c' hocc => ?_⟩
  have hstart : (start env hasher w req).shared.InOrder := MessageCache.inOrder_new hasher w
  exact (inOrder_of_addsInOrder hstart hadd hocc).expiredFirst t

end Runs

/-- The call of the first request takes 80 seconds, that of the second none, and a third request is about to purge. -/
def lateStart : List (Event Three SvcSig) :=
  stepsOf .first (.missed 0) ++ stepsOf .second (.recorded 80) ++ (stepsOf .first (.recorded 0)).drop 3 ++
    stepsOf .third (.timed 91)

def lateTrace : List (Event Three SvcSig) := lateStart ++ [⟨.third, ⟨.purgeOldMessages 91, ()⟩⟩]

/-- **A late message outlives its time**: 91 seconds after its request, with 90 seconds allowed. -/
theorem late_add_survives : ¬∀ tr d, Run svcSem (start plainEnv boostHash 90 fun _ : Three => objectRequest) tr d →
    ClockMonotone tr → PurgesFresh (start plainEnv boostHash 90 fun _ => objectRequest) tr d := by
  intro hall
  have hx : ∃ c, Exec svcSem (.new boostHash 90) lateTrace c ∧
      c = ((((((MessageCache.new boostHash 90).purgeOldMessages 0).purgeOldMessages 80).add objectVars.id 80
        (plainEnv.nodeToString objectRequest)).add objectVars.id 0
          (plainEnv.nodeToString objectRequest)).purgeOldMessages 91) :=
    ⟨_, ⟨_, rfl, _, rfl, _, ⟨rfl, rfl⟩, _, rfl, _, rfl, _, ⟨rfl, rfl⟩, _, rfl, _, rfl, _, rfl, _, rfl, _, rfl, _, rfl,
      rfl⟩, rfl⟩
  obtain ⟨c, hx, rfl⟩ := hx
  have hrun := object_run (fun | .first => .recorded 0 | .second => .recorded 80 | .third => .purged 91) hx
    (by intro i; cases i <;> rfl)
  unfold lateTrace at hrun
  obtain ⟨b, c, hb, hs, hc⟩ := hrun.step
  have hfresh := hall lateTrace _ hrun (by decide) .third 91 b c ⟨_, [], rfl, hb, hs, hc⟩
  rw [← exec_nil.1 hc.exec] at hfresh
  exact hfresh objectVars.id ⟨_, 0, _⟩ (List.mem_cons_of_mem _ List.mem_cons_self) (by decide)

end DhsTranslator
