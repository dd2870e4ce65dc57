import Mathlib.Logic.Basic

/-!
# Agreeing results

Two programs on different states agree when both return the same value, or both throw the
same exception, and leave related states. Programs made of parts that agree agree.
-/

namespace OrderTracking

universe u

variable {ε σ τ α β : Type u}

/-- The same value, or the same exception, and related states. -/
inductive Agree (related : σ → τ → Prop) :
    EStateM.Result ε σ α → EStateM.Result ε τ α → Prop
  | returned (value : α) (first : σ) (second : τ) (areRelated : related first second) :
      Agree related (.ok value first) (.ok value second)
  | threw (exception : ε) (first : σ) (second : τ) (areRelated : related first second) :
      Agree related (.error exception first) (.error exception second)

namespace Agree

variable {related : σ → τ → Prop}

theorem mono
    {weaker : σ → τ → Prop}
    (weakens : ∀ first second, related first second → weaker first second)
    {result : EStateM.Result ε σ α}
    {other : EStateM.Result ε τ α}
    (agree : Agree related result other) :
    Agree weaker result other := by
  cases agree with
  | returned value first second areRelated =>
      exact .returned value first second (weakens first second areRelated)
  | threw exception first second areRelated =>
      exact .threw exception first second (weakens first second areRelated)

theorem symm
    {result : EStateM.Result ε σ α}
    {other : EStateM.Result ε τ α}
    (agree : Agree related result other) :
    Agree (fun second first => related first second) other result := by
  cases agree with
  | returned value first second areRelated => exact .returned value second first areRelated
  | threw exception first second areRelated => exact .threw exception second first areRelated

theorem of_returned
    {value : α}
    {first : σ}
    {other : EStateM.Result ε τ α}
    (agree : Agree related (.ok value first) other) :
    ∃ second, other = .ok value second ∧ related first second := by
  cases agree with
  | returned value first second areRelated => exact ⟨second, rfl, areRelated⟩

theorem of_threw
    {exception : ε}
    {first : σ}
    {other : EStateM.Result ε τ α}
    (agree : Agree related (.error exception first) other) :
    ∃ second, other = .error exception second ∧ related first second := by
  cases agree with
  | threw exception first second areRelated => exact ⟨second, rfl, areRelated⟩

theorem bind
    {code : EStateM ε σ α}
    {codeOther : EStateM ε τ α}
    {rest : α → EStateM ε σ β}
    {restOther : α → EStateM ε τ β}
    {first : σ}
    {second : τ}
    (agree : Agree related (code.run first) (codeOther.run second))
    (continues : ∀ value first second, related first second →
      Agree related ((rest value).run first) ((restOther value).run second)) :
    Agree related ((code >>= rest).run first) ((codeOther >>= restOther).run second) := by
  rw [EStateM.run_bind, EStateM.run_bind]
  generalize code.run first = result at agree
  generalize codeOther.run second = other at agree
  cases agree with
  | returned value first second areRelated => exact continues value first second areRelated
  | threw exception first second areRelated => exact .threw exception first second areRelated

end Agree
end OrderTracking
