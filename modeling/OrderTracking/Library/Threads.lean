import Mathlib.Algebra.BigOperators.Group.Finset.Basic
import Mathlib.Algebra.BigOperators.Group.Finset.Piecewise
import Mathlib.Data.Fintype.Card

/-!
# Counting threads

How many of finitely many threads are at a stage of their program, and how a step
of one of them changes that number.
-/

namespace OrderTracking

universe u v

variable {Thread : Type u} {Stage : Type v} [Fintype Thread] [DecidableEq Stage]

/-- The number of threads at a stage. -/
def threadsAt (stages : Thread → Stage) (stage : Stage) : Nat :=
  (Finset.univ.filter fun thread => stages thread = stage).card

theorem threadsAt_pos
    {stages : Thread → Stage}
    {stage : Stage}
    {thread : Thread}
    (atStage : stages thread = stage) :
    0 < threadsAt stages stage := by
  apply Finset.card_pos.mpr
  exact ⟨thread, by simpa using atStage⟩

theorem threadsAt_eq_zero
    {stages : Thread → Stage}
    {stage : Stage}
    (elsewhere : ∀ thread, stages thread ≠ stage) :
    threadsAt stages stage = 0 := by
  rw [threadsAt, Finset.card_eq_zero, Finset.filter_eq_empty_iff]
  intro thread _
  exact elsewhere thread

/-- A thread that moves leaves its old stage and is counted at its new one. -/
theorem threadsAt_update
    [DecidableEq Thread]
    (stages : Thread → Stage)
    (thread : Thread)
    (next stage : Stage) :
    threadsAt (Function.update stages thread next) stage +
        (if stages thread = stage then 1 else 0) =
      threadsAt stages stage + (if next = stage then 1 else 0) := by
  have others : ∀ other ∈ Finset.univ.erase thread,
      (if Function.update stages thread next other = stage then 1 else 0) =
        if stages other = stage then 1 else 0 := by
    intro other member
    rw [Function.update_of_ne (Finset.ne_of_mem_erase member)]
  rw [threadsAt, threadsAt, Finset.card_filter, Finset.card_filter,
    ← Finset.add_sum_erase _ _ (Finset.mem_univ thread),
    ← Finset.add_sum_erase _ (fun other => if stages other = stage then 1 else 0)
      (Finset.mem_univ thread),
    Finset.sum_congr rfl others, Function.update_self]
  omega

/-- Between two different stages one thread moves over. -/
theorem threadsAt_update_of_ne
    [DecidableEq Thread]
    {stages : Thread → Stage}
    {thread : Thread}
    {next stage : Stage}
    (elsewhere : stages thread ≠ stage)
    (notThere : next ≠ stage) :
    threadsAt (Function.update stages thread next) stage = threadsAt stages stage := by
  have moved := threadsAt_update stages thread next stage
  rwa [if_neg elsewhere, if_neg notThere] at moved

theorem threadsAt_update_enter
    [DecidableEq Thread]
    {stages : Thread → Stage}
    {thread : Thread}
    {next : Stage}
    (elsewhere : stages thread ≠ next) :
    threadsAt (Function.update stages thread next) next = threadsAt stages next + 1 := by
  have moved := threadsAt_update stages thread next next
  rwa [if_neg elsewhere, if_pos rfl] at moved

theorem threadsAt_update_leave
    [DecidableEq Thread]
    {stages : Thread → Stage}
    {thread : Thread}
    {next stage : Stage}
    (atStage : stages thread = stage)
    (notThere : next ≠ stage) :
    threadsAt (Function.update stages thread next) stage + 1 = threadsAt stages stage := by
  have moved := threadsAt_update stages thread next stage
  rwa [if_pos atStage, if_neg notThere] at moved

end OrderTracking
