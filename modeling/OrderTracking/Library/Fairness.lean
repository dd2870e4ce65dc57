import Mathlib.Logic.Relation
import Mathlib.Data.Nat.Find

/-!
# Coming to rest

A system with steps of its own, and with steps of its surroundings that may go on for
ever. When its own steps come to an end wherever the surroundings lead, every fair run
reaches a state in which the system has no step left.
-/

namespace OrderTracking
namespace Fairness

variable {State : Type*} {inner outer : State → State → Prop}

/-- In every state a step is made, or nothing happens. -/
def IsRun (inner outer : State → State → Prop) (run : Nat → State) : Prop :=
  ∀ time, inner (run time) (run (time + 1)) ∨ outer (run time) (run (time + 1)) ∨
    run (time + 1) = run time

/-- While the system can make a step, it makes one at some time. -/
def Fair (inner : State → State → Prop) (run : Nat → State) : Prop :=
  ∀ time, (∃ later, inner (run time) later) →
    ∃ after, time ≤ after ∧ inner (run after) (run (after + 1))

/-- However the surroundings go on, the steps of the system come to an end. -/
def Settles (inner outer : State → State → Prop) (state : State) : Prop :=
  Acc (fun later earlier => ∃ middle,
    Relation.ReflTransGen outer earlier middle ∧ inner middle later) state

/-- The rule for one step. -/
theorem Settles.intro
    {state : State}
    (settles : ∀ middle later, Relation.ReflTransGen outer state middle →
      inner middle later → Settles inner outer later) :
    Settles inner outer state :=
  Acc.intro state fun later ⟨middle, surroundings, step⟩ =>
    settles middle later surroundings step

/-- Until the system makes a step, the run only follows the surroundings. -/
theorem IsRun.outer_of_not_inner
    {run : Nat → State}
    (isRun : IsRun inner outer run)
    {time count : Nat}
    (still : ∀ more < count, ¬ inner (run (time + more)) (run (time + more + 1))) :
    Relation.ReflTransGen outer (run time) (run (time + count)) := by
  induction count with
  | zero => exact .refl
  | succ count inductionHypothesis =>
      have earlier := inductionHypothesis fun more less => still more (Nat.lt_succ_of_lt less)
      rcases isRun (time + count) with step | step | same
      · exact absurd step (still count (Nat.lt_succ_self count))
      · exact earlier.tail step
      · rw [← Nat.add_assoc, same]
        exact earlier

/-- From some time on the system makes no step. -/
theorem Settles.eventually_still
    {state : State}
    (settles : Settles inner outer state)
    {run : Nat → State}
    (isRun : IsRun inner outer run)
    {start : Nat}
    (begins : run start = state) :
    ∃ time, start ≤ time ∧ ∀ after, time ≤ after →
      ¬ inner (run after) (run (after + 1)) := by
  induction settles generalizing start with
  | intro state _ inductionHypothesis =>
      by_cases moves : ∃ count, inner (run (start + count)) (run (start + count + 1))
      · classical
        have first := Nat.find_spec moves
        have still : ∀ more < Nat.find moves,
            ¬ inner (run (start + more)) (run (start + more + 1)) :=
          fun more less => Nat.find_min moves less
        have surroundings := isRun.outer_of_not_inner still
        rw [begins] at surroundings
        obtain ⟨time, later, rest⟩ := inductionHypothesis _ ⟨_, surroundings, first⟩ rfl
        exact ⟨time, by omega, rest⟩
      · refine ⟨start, Nat.le_refl start, fun after later step => moves ⟨after - start, ?_⟩⟩
        rwa [Nat.add_sub_cancel' later]

/-- A fair run reaches a state in which the system has no step left. -/
theorem Settles.eventually_stuck
    {run : Nat → State}
    (settles : Settles inner outer (run 0))
    (isRun : IsRun inner outer run)
    (fair : Fair inner run) :
    ∃ time, ¬ ∃ later, inner (run time) later := by
  obtain ⟨time, -, still⟩ := settles.eventually_still isRun rfl
  refine ⟨time, fun possible => ?_⟩
  obtain ⟨after, later, step⟩ := fair time possible
  exact still after later step

/-- A finite run of the system to a state in which it has no step left is a fair run. -/
theorem exists_fair_run
    {start final : State}
    (steps : Relation.ReflTransGen inner start final)
    (stuck : ¬ ∃ later, inner final later) :
    ∃ run, run 0 = start ∧ IsRun inner outer run ∧ Fair inner run ∧
      ∃ time, run time = final := by
  induction steps using Relation.ReflTransGen.head_induction_on with
  | refl =>
      exact ⟨fun _ => final, rfl, fun _ => Or.inr (Or.inr rfl),
        fun _ possible => absurd possible stuck, 0, rfl⟩
  | @head start _ first _ inductionHypothesis =>
      obtain ⟨run, rfl, isRun, fair, last, isFinal⟩ := inductionHypothesis
      refine ⟨fun time => time.casesOn start run, rfl, ?_, ?_, last + 1, isFinal⟩
      · intro time
        cases time with
        | zero => exact Or.inl first
        | succ time => exact isRun time
      · intro time possible
        cases time with
        | zero => exact ⟨0, Nat.le_refl 0, first⟩
        | succ time =>
            obtain ⟨after, later, step⟩ := fair time possible
            exact ⟨after + 1, Nat.succ_le_succ later, step⟩

end Fairness
end OrderTracking
