import Mathlib.Logic.Function.Basic
import Mathlib.Data.List.Induction

/-!
# Logs of overwriting messages

A replica applies the messages of a log to its state. The messages overwrite
when applying a message makes any earlier application of the same message
irrelevant, whatever was applied in between. For such messages a log may be
replayed on a state that already contains its effect, so a replica may start
from a snapshot that is newer than the first message it replays.
-/

namespace OrderTracking

universe u v w x

section Replay

variable {State : Type u} {Message : Type v}
variable (apply : State → Message → State)

/-- Apply the messages of a log in order. -/
def replay (state : State) (log : List Message) : State :=
  log.foldl apply state

@[simp] theorem replay_nil
    (state : State) :
    replay apply state [] = state := rfl

@[simp] theorem replay_cons
    (state : State)
    (message : Message)
    (log : List Message) :
    replay apply state (message :: log) =
      replay apply (apply state message) log := rfl

@[simp] theorem replay_append
    (state : State)
    (first second : List Message) :
    replay apply state (first ++ second) =
      replay apply (replay apply state first) second :=
  List.foldl_append

/-- A relation between two states that every message preserves survives a log. -/
theorem replay_related
    {apply : State → Message → State}
    {related : State → State → Prop}
    (preserved : ∀ message left right, related left right →
      related (apply left message) (apply right message))
    (log : List Message)
    {left right : State}
    (start : related left right) :
    related (replay apply left log) (replay apply right log) := by
  induction log generalizing left right with
  | nil => exact start
  | cons message log inductionHypothesis =>
      exact inductionHypothesis (preserved message left right start)

/-- A second application of a message makes the first one irrelevant. -/
def Overwriting : Prop :=
  ∀ state message log,
    apply (replay apply (apply state message) log) message =
      apply (replay apply state log) message

/-- Replaying a log on a state that already contains it changes nothing. -/
theorem Overwriting.replay_replay
    {apply : State → Message → State}
    (overwriting : Overwriting apply)
    (state : State)
    (log : List Message) :
    replay apply (replay apply state log) log = replay apply state log := by
  induction log using List.reverseRecOn with
  | nil => rfl
  | append_singleton log message inductionHypothesis =>
      simp only [replay_append, replay_cons, replay_nil]
      rw [overwriting, inductionHypothesis]

/-- Messages overwrite when, for every message, some relation links a state to
the result of applying the message, survives every other message, and is
collapsed by applying the message again. -/
theorem Overwriting.of_collapse
    {apply : State → Message → State}
    (similar : Message → State → State → Prop)
    (applied : ∀ message state, similar message (apply state message) state)
    (preserved : ∀ message other left right, similar message left right →
      similar message (apply left other) (apply right other))
    (collapsed : ∀ message left right, similar message left right →
      apply left message = apply right message) :
    Overwriting apply := by
  intro state message log
  apply collapsed
  exact replay_related (preserved message) log (applied message state)

end Replay

section Modifiers

variable {Value : Type u} {Message : Type v}

/-- Messages that each replace a value, or modify it if it is there, overwrite
when every modifier absorbs itself, and absorbs or commutes with every other. -/
theorem Overwriting.of_modifiers
    {act : Option Value → Message → Option Value}
    (modifier : Message → Option (Value → Value))
    (replaced : ∀ message, modifier message = none →
      ∀ left right, act left message = act right message)
    (modified : ∀ message modify, modifier message = some modify →
      ∀ value, act value message = value.map modify)
    (absorbs : ∀ message modify, modifier message = some modify →
      ∀ value, modify (modify value) = modify value)
    (compatible : ∀ message other modify change, modifier message = some modify →
      modifier other = some change →
        (∀ value, modify (change value) = modify value) ∨
          ∀ value, modify (change value) = change (modify value)) :
    Overwriting act := by
  apply Overwriting.of_collapse fun message left right =>
    act left message = act right message
  · intro message value
    cases kind : modifier message with
    | none => exact replaced message kind _ _
    | some modify =>
        simp only [modified message modify kind, Option.map_map]
        congr 1
        funext current
        exact absorbs message modify kind current
  · intro message other left right same
    cases kind : modifier message with
    | none => exact replaced message kind _ _
    | some modify =>
        cases otherKind : modifier other with
        | none => rw [replaced other otherKind left right]
        | some change =>
            simp only [modified message modify kind, modified other change otherKind]
              at same ⊢
            rcases compatible message other modify change kind otherKind with
              absorbed | commutes
            · have forget : modify ∘ change = modify := funext absorbed
              rw [Option.map_map, Option.map_map, forget, same]
            · have swap : modify ∘ change = change ∘ modify := funext commutes
              rw [Option.map_map, Option.map_map, swap, ← Option.map_map, same,
                Option.map_map]
  · intro message left right same
    exact same

end Modifiers

section Keyed

variable {State : Type u} {Message : Type v} {Key : Type w} {Value : Type x}
variable [DecidableEq Key]

/-- A store whose messages each act on the value at one key. -/
structure Keyed
    (apply : State → Message → State)
    (get : State → Key → Value)
    (key : Message → Key)
    (act : Value → Message → Value) : Prop where
  /-- States are determined by their values. -/
  ext : ∀ left right, (∀ position, get left position = get right position) →
    left = right
  /-- A message acts on the value at its own key and on no other. -/
  get_apply : ∀ state message position,
    get (apply state message) position =
      if position = key message then act (get state position) message
      else get state position

variable {apply : State → Message → State} {get : State → Key → Value}
variable {key : Message → Key} {act : Value → Message → Value}

/-- The value at a key after a log is the value after the messages of that key. -/
theorem Keyed.get_replay
    (keyed : Keyed apply get key act)
    (state : State)
    (log : List Message)
    (position : Key) :
    get (replay apply state log) position =
      replay act (get state position)
        (log.filter fun message => position = key message) := by
  induction log generalizing state with
  | nil => rfl
  | cons message log inductionHypothesis =>
      rw [replay_cons, inductionHypothesis, keyed.get_apply]
      by_cases own : position = key message
      · simp [own]
      · simp [own]

/-- Logs about different keys may be replayed in either order. -/
theorem Keyed.replay_comm
    (keyed : Keyed apply get key act)
    (state : State)
    {first second : List Message}
    (disjoint : ∀ left ∈ first, ∀ right ∈ second, key left ≠ key right) :
    replay apply (replay apply state first) second =
      replay apply (replay apply state second) first := by
  apply keyed.ext
  intro position
  simp only [keyed.get_replay]
  by_cases touched : ∃ message ∈ first, position = key message
  · obtain ⟨message, member, rfl⟩ := touched
    have untouched : (second.filter fun other => key message = key other) = [] := by
      rw [List.filter_eq_nil_iff]
      intro other isOther same
      exact disjoint message member other isOther (of_decide_eq_true same)
    rw [untouched, replay_nil, replay_nil]
  · have untouched : (first.filter fun message => position = key message) = [] := by
      rw [List.filter_eq_nil_iff]
      intro message member same
      exact touched ⟨message, member, of_decide_eq_true same⟩
    rw [untouched, replay_nil, replay_nil]

/-- A keyed store overwrites when the action on the single values does. -/
theorem Keyed.overwriting
    (keyed : Keyed apply get key act)
    (overwriting : Overwriting act) :
    Overwriting apply := by
  intro state message log
  apply keyed.ext
  intro position
  rw [keyed.get_apply, keyed.get_apply, keyed.get_replay, keyed.get_replay,
    keyed.get_apply]
  by_cases own : position = key message
  · simp only [own, if_true]
    exact overwriting _ _ _
  · simp only [own, if_false]

end Keyed

end OrderTracking
