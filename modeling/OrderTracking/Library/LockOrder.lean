import Mathlib.Data.List.Nodup
import Mathlib.Logic.Function.Basic
import Mathlib.Logic.Relation
import Mathlib.Order.WellFounded

/-!
# Locks requested in order

Any number of threads run operations that lock and unlock mutexes. When every
operation requests only mutexes of a higher rank than those it holds, and releases
what it acquires, no thread waits for itself, directly or through others, and some
thread can always continue.
-/

namespace OrderTracking
namespace LockOrder

universe u v w

variable {Thread : Type u} {Mutex : Type v} {Rank : Type w}

/-- A step of an operation on the mutexes. -/
inductive Action (Mutex : Type v)
  | lock (mutex : Mutex)
  | unlock (mutex : Mutex)
  deriving DecidableEq

/-- The owners of the mutexes, and what each thread has left of its operation. -/
structure State (Thread : Type u) (Mutex : Type v) where
  owner : Mutex → Option Thread
  rest : Thread → List (Action Mutex)

/-- Every mutex is free and every thread is outside the operations. -/
def State.initial : State Thread Mutex where
  owner := fun _ => none
  rest := fun _ => []

/-- A thread is at a mutex that another thread, or the thread itself, owns. -/
def WaitsFor (state : State Thread Mutex) (thread other : Thread) : Prop :=
  ∃ mutex rest, state.rest thread = .lock mutex :: rest ∧
    state.owner mutex = some other

/-- A thread owns a mutex. -/
def Holds (state : State Thread Mutex) (thread : Thread) : Prop :=
  ∃ mutex, state.owner mutex = some thread

section Disciplined

variable [DecidableEq Mutex] [LT Rank]

/-- An operation that holds these mutexes requests only higher ones, releases only
what it holds, and ends without any. -/
def Disciplined (rank : Mutex → Rank) : List Mutex → List (Action Mutex) → Prop
  | held, [] => held = []
  | held, .lock mutex :: rest =>
      (∀ other ∈ held, rank other < rank mutex) ∧
        Disciplined rank (mutex :: held) rest
  | held, .unlock mutex :: rest =>
      mutex ∈ held ∧ Disciplined rank (held.erase mutex) rest

/-- Actions that can be put before whatever an operation that holds these mutexes
does next. -/
def Neutral (rank : Mutex → Rank) (held : List Mutex) (actions : List (Action Mutex)) :
    Prop :=
  ∀ rest, Disciplined rank held rest → Disciplined rank held (actions ++ rest)

theorem Neutral.nil (rank : Mutex → Rank) (held : List Mutex) :
    Neutral rank held [] :=
  fun _ disciplined => disciplined

theorem Neutral.append
    {rank : Mutex → Rank}
    {held : List Mutex}
    {first second : List (Action Mutex)}
    (firstNeutral : Neutral rank held first)
    (secondNeutral : Neutral rank held second) :
    Neutral rank held (first ++ second) := by
  intro rest disciplined
  rw [List.append_assoc]
  exact firstNeutral _ (secondNeutral rest disciplined)

theorem Neutral.flatMap
    {rank : Mutex → Rank}
    {held : List Mutex}
    {actions : α → List (Action Mutex)}
    (neutral : ∀ value, Neutral rank held (actions value))
    (values : List α) :
    Neutral rank held (values.flatMap actions) := by
  induction values with
  | nil => exact .nil rank held
  | cons value values inductionHypothesis =>
      rw [List.flatMap_cons]
      exact (neutral value).append inductionHypothesis

/-- A critical section of a higher mutex. -/
theorem Neutral.section
    {rank : Mutex → Rank}
    {held : List Mutex}
    {mutex : Mutex}
    {body : List (Action Mutex)}
    (higher : ∀ other ∈ held, rank other < rank mutex)
    (inside : Neutral rank (mutex :: held) body) :
    Neutral rank held (.lock mutex :: (body ++ [.unlock mutex])) := by
  intro rest disciplined
  rw [List.cons_append, List.append_assoc]
  refine ⟨higher, inside _ ⟨List.mem_cons_self, ?_⟩⟩
  rw [List.erase_cons_head]
  exact disciplined

/-- What is neutral for a thread that holds nothing is a disciplined operation. -/
theorem Neutral.disciplined
    {rank : Mutex → Rank}
    {operation : List (Action Mutex)}
    (neutral : Neutral rank [] operation) :
    Disciplined rank [] operation := by
  have whole := neutral [] rfl
  rwa [List.append_nil] at whole

end Disciplined

/-! ## The invariant -/

section Invariant

variable [DecidableEq Mutex] [Preorder Rank]

/-- A thread holds certain mutexes, and what it has left is disciplined. -/
structure Follows (rank : Mutex → Rank) (state : State Thread Mutex)
    (thread : Thread) (held : List Mutex) : Prop where
  nodup : held.Nodup
  owns : ∀ mutex, mutex ∈ held ↔ state.owner mutex = some thread
  disciplined : Disciplined rank held (state.rest thread)

/-- Every thread is disciplined. -/
def Invariant (rank : Mutex → Rank) (state : State Thread Mutex) : Prop :=
  ∀ thread, ∃ held, Follows rank state thread held

theorem invariant_initial (rank : Mutex → Rank) :
    Invariant rank (.initial : State Thread Mutex) := by
  intro thread
  exact ⟨[], List.nodup_nil, by simp [State.initial], rfl⟩

/-- A thread keeps what it holds and has left when another one takes a step that
concerns no mutex it owns. -/
theorem Follows.frame
    {rank : Mutex → Rank}
    {state final : State Thread Mutex}
    {thread : Thread}
    {held : List Mutex}
    (follows : Follows rank state thread held)
    (owner : ∀ mutex, final.owner mutex = some thread ↔ state.owner mutex = some thread)
    (rest : final.rest thread = state.rest thread) :
    Follows rank final thread held where
  nodup := follows.nodup
  owns := fun mutex => (follows.owns mutex).trans (owner mutex).symm
  disciplined := by
    rw [rest]
    exact follows.disciplined

/-- A thread that is at a mutex holds only lower ones. -/
theorem Invariant.lower
    {rank : Mutex → Rank}
    {state : State Thread Mutex}
    (invariant : Invariant rank state)
    {thread : Thread}
    {mutex other : Mutex}
    {rest : List (Action Mutex)}
    (next : state.rest thread = .lock mutex :: rest)
    (owned : state.owner other = some thread) :
    rank other < rank mutex := by
  obtain ⟨held, follows⟩ := invariant thread
  have disciplined := follows.disciplined
  rw [next] at disciplined
  exact disciplined.1 other ((follows.owns other).mpr owned)

/-- A thread releases only what it owns. -/
theorem Invariant.releases_own
    {rank : Mutex → Rank}
    {state : State Thread Mutex}
    (invariant : Invariant rank state)
    {thread : Thread}
    {mutex : Mutex}
    {rest : List (Action Mutex)}
    (next : state.rest thread = .unlock mutex :: rest) :
    state.owner mutex = some thread := by
  obtain ⟨held, follows⟩ := invariant thread
  have disciplined := follows.disciplined
  rw [next] at disciplined
  exact (follows.owns mutex).mp disciplined.1

/-- A thread that is outside the operations holds nothing. -/
theorem Invariant.idle
    {rank : Mutex → Rank}
    {state : State Thread Mutex}
    (invariant : Invariant rank state)
    {thread : Thread}
    (idle : state.rest thread = []) :
    ¬ Holds state thread := by
  obtain ⟨held, follows⟩ := invariant thread
  have disciplined := follows.disciplined
  rw [idle] at disciplined
  rintro ⟨mutex, owned⟩
  have member := (follows.owns mutex).mpr owned
  rw [show held = [] from disciplined] at member
  cases member

/-! ## Waiting threads -/

/-- Along a chain of waiting threads the requested mutexes rise in rank. -/
theorem Invariant.rises
    {rank : Mutex → Rank}
    {state : State Thread Mutex}
    (invariant : Invariant rank state)
    {thread last : Thread}
    (chain : Relation.TransGen (WaitsFor state) thread last)
    {mutex requested : Mutex}
    {rest remaining : List (Action Mutex)}
    (next : state.rest thread = .lock mutex :: rest)
    (lastNext : state.rest last = .lock requested :: remaining) :
    rank mutex < rank requested := by
  induction chain using Relation.TransGen.head_induction_on generalizing mutex rest with
  | single waits =>
      obtain ⟨other, others, otherNext, owned⟩ := waits
      rw [next, List.cons.injEq, Action.lock.injEq] at otherNext
      rw [otherNext.1]
      exact invariant.lower lastNext owned
  | head waits chain inductionHypothesis =>
      obtain ⟨other, others, otherNext, owned⟩ := waits
      rw [next, List.cons.injEq, Action.lock.injEq] at otherNext
      obtain ⟨_, ⟨between, _, middleNext, _⟩, _⟩ := Relation.TransGen.head'_iff.mp chain
      have rises := invariant.lower middleNext owned
      rw [otherNext.1]
      exact rises.trans (inductionHypothesis middleNext)

/-- No thread waits for itself, directly or through others. -/
theorem Invariant.acyclic
    {rank : Mutex → Rank}
    {state : State Thread Mutex}
    (invariant : Invariant rank state)
    (thread : Thread) :
    ¬ Relation.TransGen (WaitsFor state) thread thread := by
  intro cycle
  obtain ⟨other, ⟨mutex, rest, next, _⟩, _⟩ := Relation.TransGen.head'_iff.mp cycle
  exact lt_irrefl _ (invariant.rises cycle next next)

/-- There is no infinite chain of waiting threads. -/
theorem Invariant.wellFounded
    [WellFoundedGT Rank]
    {rank : Mutex → Rank}
    {state : State Thread Mutex}
    (invariant : Invariant rank state) :
    WellFounded fun other thread => WaitsFor state thread other := by
  have ends : ∀ level : Rank, ∀ thread mutex rest,
      state.rest thread = .lock mutex :: rest → rank mutex = level →
        Acc (fun other thread => WaitsFor state thread other) thread := by
    intro level
    induction level using WellFoundedGT.induction with
    | ind level inductionHypothesis =>
        rintro thread mutex rest next rfl
        constructor
        rintro other ⟨asked, others, otherNext, owned⟩
        rw [next, List.cons.injEq, Action.lock.injEq] at otherNext
        obtain ⟨rfl, -⟩ := otherNext
        by_cases waiting : ∃ requested remaining,
            state.rest other = .lock requested :: remaining
        · obtain ⟨requested, remaining, left⟩ := waiting
          exact inductionHypothesis _ (invariant.lower left owned) other requested
            remaining left rfl
        · constructor
          rintro last ⟨requested, remaining, left, _⟩
          exact absurd ⟨requested, remaining, left⟩ waiting
  constructor
  intro thread
  constructor
  rintro other ⟨mutex, rest, next, owned⟩
  have thisEnds := ends _ thread mutex rest next rfl
  exact thisEnds.inv ⟨mutex, rest, next, owned⟩

end Invariant

/-! ## Steps -/

section Step

variable [DecidableEq Thread] [DecidableEq Mutex]

/-- A step of a thread: it enters an operation, acquires the free mutex it is at,
or releases one. -/
inductive Step (operations : List (Action Mutex) → Prop) (thread : Thread) :
    State Thread Mutex → State Thread Mutex → Prop
  | enter (operation : List (Action Mutex)) (state : State Thread Mutex)
      (idle : state.rest thread = [])
      (offered : operations operation) :
      Step operations thread state
        { state with rest := Function.update state.rest thread operation }
  | lock (mutex : Mutex) (rest : List (Action Mutex)) (state : State Thread Mutex)
      (next : state.rest thread = .lock mutex :: rest)
      (free : state.owner mutex = none) :
      Step operations thread state
        { owner := Function.update state.owner mutex (some thread)
          rest := Function.update state.rest thread rest }
  | unlock (mutex : Mutex) (rest : List (Action Mutex)) (state : State Thread Mutex)
      (next : state.rest thread = .unlock mutex :: rest) :
      Step operations thread state
        { owner := Function.update state.owner mutex none
          rest := Function.update state.rest thread rest }

/-- The states that the steps of the threads, in any order, can lead to. -/
def Reachable (operations : List (Action Mutex) → Prop)
    (state : State Thread Mutex) : Prop :=
  Relation.ReflTransGen
    (fun state final => ∃ thread, Step operations thread state final) .initial state

variable [Preorder Rank]

/-- A thread enters a disciplined operation. -/
theorem Follows.enter
    {rank : Mutex → Rank}
    {state : State Thread Mutex}
    {thread : Thread}
    {held : List Mutex}
    (follows : Follows rank state thread held)
    (idle : state.rest thread = [])
    {operation : List (Action Mutex)}
    (disciplined : Disciplined rank [] operation) :
    Follows rank { state with rest := Function.update state.rest thread operation }
      thread [] := by
  have nothing : held = [] := by
    have left := follows.disciplined
    rwa [idle] at left
  subst nothing
  refine ⟨follows.nodup, follows.owns, ?_⟩
  dsimp only
  rw [Function.update_self]
  exact disciplined

/-- A thread acquires a free mutex. -/
theorem Follows.lock
    {rank : Mutex → Rank}
    {state : State Thread Mutex}
    {thread : Thread}
    {held : List Mutex}
    (follows : Follows rank state thread held)
    {mutex : Mutex}
    {rest : List (Action Mutex)}
    (next : state.rest thread = .lock mutex :: rest)
    (free : state.owner mutex = none) :
    Follows rank
      { owner := Function.update state.owner mutex (some thread)
        rest := Function.update state.rest thread rest }
      thread (mutex :: held) := by
  have unowned : mutex ∉ held := by
    rw [follows.owns, free]
    simp
  have disciplined := follows.disciplined
  rw [next] at disciplined
  refine ⟨List.nodup_cons.mpr ⟨unowned, follows.nodup⟩, ?_, ?_⟩
  · intro asked
    by_cases same : asked = mutex
    · simp [same]
    · simp [same, follows.owns]
  · dsimp only
    rw [Function.update_self]
    exact disciplined.2

/-- A thread releases a mutex. -/
theorem Follows.unlock
    {rank : Mutex → Rank}
    {state : State Thread Mutex}
    {thread : Thread}
    {held : List Mutex}
    (follows : Follows rank state thread held)
    {mutex : Mutex}
    {rest : List (Action Mutex)}
    (next : state.rest thread = .unlock mutex :: rest) :
    Follows rank
      { owner := Function.update state.owner mutex none
        rest := Function.update state.rest thread rest }
      thread (held.erase mutex) := by
  have disciplined := follows.disciplined
  rw [next] at disciplined
  refine ⟨follows.nodup.erase mutex, ?_, ?_⟩
  · intro asked
    rw [follows.nodup.mem_erase_iff, follows.owns]
    by_cases same : asked = mutex
    · simp [same]
    · simp [same]
  · dsimp only
    rw [Function.update_self]
    exact disciplined.2

/-- A step keeps every thread disciplined: its own thread goes on, and the mutex it
concerns is owned by no other. -/
theorem Invariant.step
    {rank : Mutex → Rank}
    {operations : List (Action Mutex) → Prop}
    (allDisciplined : ∀ operation, operations operation → Disciplined rank [] operation)
    {thread : Thread}
    {state final : State Thread Mutex}
    (invariant : Invariant rank state)
    (step : Step operations thread state final) :
    Invariant rank final := by
  intro other
  obtain ⟨held, follows⟩ := invariant other
  cases step with
  | enter operation _ idle offered =>
      by_cases own : other = thread
      · subst own
        exact ⟨[], follows.enter idle (allDisciplined operation offered)⟩
      · exact ⟨held, follows.frame (fun _ => Iff.rfl) (Function.update_of_ne own _ _)⟩
  | lock mutex rest _ next free =>
      by_cases own : other = thread
      · subst own
        exact ⟨mutex :: held, follows.lock next free⟩
      · refine ⟨held, follows.frame ?_ (Function.update_of_ne own _ _)⟩
        intro asked
        by_cases same : asked = mutex
        · simp [same, free, Ne.symm own]
        · simp [same]
  | unlock mutex rest _ next =>
      by_cases own : other = thread
      · subst own
        exact ⟨held.erase mutex, follows.unlock next⟩
      · have owned := invariant.releases_own next
        refine ⟨held, follows.frame ?_ (Function.update_of_ne own _ _)⟩
        intro asked
        by_cases same : asked = mutex
        · simp [same, owned, Ne.symm own]
        · simp [same]

/-- In every reachable state every thread is disciplined. -/
theorem Invariant.of_reachable
    {rank : Mutex → Rank}
    {operations : List (Action Mutex) → Prop}
    (allDisciplined : ∀ operation, operations operation → Disciplined rank [] operation)
    {state : State Thread Mutex}
    (reachable : Reachable operations state) :
    Invariant rank state := by
  induction reachable with
  | refl => exact invariant_initial rank
  | tail _ next inductionHypothesis =>
      obtain ⟨thread, step⟩ := next
      exact inductionHypothesis.step allDisciplined step

/-- What a thread waits for, unless it waits itself, holds a mutex and can take a
step. -/
theorem Invariant.continues
    {rank : Mutex → Rank}
    {operations : List (Action Mutex) → Prop}
    {state : State Thread Mutex}
    (invariant : Invariant rank state)
    {thread holder : Thread}
    (waits : WaitsFor state thread holder)
    (running : ∀ other, ¬ WaitsFor state holder other) :
    Holds state holder ∧ ∃ final, Step operations holder state final := by
  obtain ⟨mutex, rest, _, owned⟩ := waits
  have holds : Holds state holder := ⟨mutex, owned⟩
  refine ⟨holds, ?_⟩
  cases left : state.rest holder with
  | nil => exact absurd holds (invariant.idle left)
  | cons action remaining =>
      cases action with
      | unlock released => exact ⟨_, .unlock released remaining state left⟩
      | lock requested =>
          refine ⟨_, .lock requested remaining state left ?_⟩
          cases owner : state.owner requested with
          | none => rfl
          | some other =>
              exact absurd ⟨requested, remaining, left, owner⟩ (running other)

/-- Every thread that waits waits in the end for one that holds a mutex and can take
a step. -/
theorem Invariant.exists_continues
    [WellFoundedGT Rank]
    {rank : Mutex → Rank}
    {operations : List (Action Mutex) → Prop}
    {state : State Thread Mutex}
    (invariant : Invariant rank state)
    {thread other : Thread}
    (waits : WaitsFor state thread other) :
    ∃ holder, Relation.TransGen (WaitsFor state) thread holder ∧
      Holds state holder ∧ ∃ final, Step operations holder state final := by
  induction other using invariant.wellFounded.induction generalizing thread with
  | _ other inductionHypothesis =>
      by_cases further : ∃ next, WaitsFor state other next
      · obtain ⟨next, nextWaits⟩ := further
        obtain ⟨holder, chain, continues⟩ :=
          inductionHypothesis next nextWaits nextWaits
        exact ⟨holder, .head waits chain, continues⟩
      · exact ⟨other, .single waits,
          invariant.continues waits (not_exists.mp further)⟩

end Step

end LockOrder
end OrderTracking
