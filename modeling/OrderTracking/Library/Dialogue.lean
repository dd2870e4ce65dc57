import Mathlib.Logic.Basic

/-!
# Dialogues

Programs that make calls one at a time and continue with the answers. A dialogue has
no state of its own: an environment says which answers a call can get in a state, and
which states it leaves. What is ensured whatever the answers is computed along the
dialogue, so that it holds of every residual of the dialogue while it is running.
-/

namespace OrderTracking

universe u v w x

/-- A program that returns a value, or makes a call and continues with the answer. -/
inductive Dialogue (Call : Type u) (Answer : Call → Type v) (α : Type w)
  | result (value : α)
  | ask (call : Call) (next : Answer call → Dialogue Call Answer α)

namespace Dialogue

variable {Call : Type u} {Answer : Call → Type v} {α β : Type w}

/-- Continue with another dialogue. -/
def bind : Dialogue Call Answer α → (α → Dialogue Call Answer β) → Dialogue Call Answer β
  | result value, rest => rest value
  | ask call next, rest => ask call fun answer => (next answer).bind rest

instance : Monad (Dialogue Call Answer) where
  pure := result
  bind := bind

@[simp] theorem pure_eq
    (value : α) :
    (pure value : Dialogue Call Answer α) = result value := rfl

@[simp] theorem result_bind
    (value : α)
    (rest : α → Dialogue Call Answer β) :
    (result value >>= rest) = rest value := rfl

@[simp] theorem ask_bind
    (call : Call)
    (next : Answer call → Dialogue Call Answer α)
    (rest : α → Dialogue Call Answer β) :
    (ask call next >>= rest) = ask call fun answer => next answer >>= rest := rfl

/-! ## What is ensured whatever the answers -/

section Ensures

variable {σ : Type x}

/-- The answers a call can get in a state, with the states they leave. -/
abbrev Environment (Call : Type u) (Answer : Call → Type v) (σ : Type x) :=
  (call : Call) → σ → Answer call → σ → Prop

variable (permits : Call → σ → Prop) (answers : Environment Call Answer σ)

/-- Whatever the answers, calls are only made in states that permit them, and the
value and the state at the end are as required. -/
def Ensures (required : α → σ → Prop) : Dialogue Call Answer α → σ → Prop
  | result value, state => required value state
  | ask call next, state =>
      permits call state ∧
        ∀ answer later, answers call state answer later →
          (next answer).Ensures required later

variable {permits answers}
variable {required : α → σ → Prop}

/-- A weaker requirement is ensured as well. -/
theorem Ensures.mono
    {weaker : α → σ → Prop}
    (weakens : ∀ value state, required value state → weaker value state)
    {dialogue : Dialogue Call Answer α}
    {state : σ}
    (ensures : dialogue.Ensures permits answers required state) :
    dialogue.Ensures permits answers weaker state := by
  induction dialogue generalizing state with
  | result value => exact weakens value state ensures
  | ask call next inductionHypothesis =>
      refine ⟨ensures.1, fun answer later answered => ?_⟩
      exact inductionHypothesis answer (ensures.2 answer later answered)

/-- What is ensured for more answers is ensured where more is permitted. -/
theorem Ensures.weaken
    {allows : Call → σ → Prop}
    {fewer : Environment Call Answer σ}
    (permitted : ∀ call state, permits call state → allows call state)
    (answered : ∀ call state answer later, permits call state →
      fewer call state answer later → answers call state answer later)
    {dialogue : Dialogue Call Answer α}
    {state : σ}
    (ensures : dialogue.Ensures permits answers required state) :
    dialogue.Ensures allows fewer required state := by
  induction dialogue generalizing state with
  | result value => exact ensures
  | ask call next inductionHypothesis =>
      refine ⟨permitted call state ensures.1, fun answer later heard => ?_⟩
      apply inductionHypothesis answer
      exact ensures.2 answer later (answered call state answer later ensures.1 heard)

/-- The rule of composition: the first dialogue ensures what the second one needs. -/
theorem Ensures.bind
    {rest : α → Dialogue Call Answer β}
    {final : β → σ → Prop}
    {dialogue : Dialogue Call Answer α}
    {state : σ}
    (ensures : dialogue.Ensures permits answers
      (fun value later => (rest value).Ensures permits answers final later) state) :
    (dialogue >>= rest).Ensures permits answers final state := by
  induction dialogue generalizing state with
  | result value => exact ensures
  | ask call next inductionHypothesis =>
      refine ⟨ensures.1, fun answer later answered => ?_⟩
      exact inductionHypothesis answer (ensures.2 answer later answered)

end Ensures

/-! ## Exceptions -/

section Exceptions

variable {ε : Type w} {σ : Type x}
variable {permits : Call → σ → Prop} {answers : Environment Call Answer σ}

/-- The rule of composition for dialogues that may throw. -/
theorem Ensures.bind_except
    {first : ExceptT ε (Dialogue Call Answer) α}
    {rest : α → ExceptT ε (Dialogue Call Answer) β}
    {final : Except ε β → σ → Prop}
    {state : σ}
    (ensures : first.run.Ensures permits answers
      (fun value later => match value with
        | .ok value => (rest value).run.Ensures permits answers final later
        | .error exception => final (.error exception) later) state) :
    (first >>= rest).run.Ensures permits answers final state := by
  apply Ensures.bind
  refine ensures.mono ?_
  rintro (exception | value) later holds
  · exact holds
  · exact holds

end Exceptions

end Dialogue
end OrderTracking
