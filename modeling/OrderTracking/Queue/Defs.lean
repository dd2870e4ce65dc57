import OrderTracking.Library.Threads
import OrderTracking.Server.Defs

/-!
# The message queue, step by step

`MessageQueue::enqueue` pushes a message under the queue's lock and then posts the
semaphore; `MessageQueue::dequeue` waits for the semaphore and, if the wait was
successful, pops a message under the lock. Each of these is one atomic step, and
the steps of the threads interleave in any way. A wait may fail at any time.
-/

namespace OrderTracking
namespace MessageQueue

/-- How far a thread is with its call of `enqueue` or `dequeue`. -/
inductive Stage
  | idle
  | pushed
  | acquired
  | timedOut
  deriving DecidableEq, Repr

/-- What a thread does in a step. -/
inductive Event (Thread : Type)
  | push (thread : Thread) (msg : Message)
  | post (thread : Thread)
  | wait (thread : Thread)
  | waitFailed (thread : Thread)
  | pop (thread : Thread) (msg : Message)
  | giveUp (thread : Thread)

/-- The deque, the semaphore and the threads. -/
structure State (Thread : Type) where
  queue : List Message
  sem : Nat
  stages : Thread → Stage

variable {Thread : Type} [DecidableEq Thread]

/-- A step of some thread. After `pop` and `giveUp` the call of `dequeue` returns,
with the message and with a null pointer. -/
inductive Step : Event Thread → State Thread → State Thread → Prop
  | push (thread : Thread) (msg : Message) (state : State Thread)
      (idle : state.stages thread = .idle) :
      Step (.push thread msg) state
        { state with
          queue := state.queue ++ [msg]
          stages := Function.update state.stages thread .pushed }
  | post (thread : Thread) (state : State Thread)
      (pushed : state.stages thread = .pushed) :
      Step (.post thread) state
        { state with
          sem := state.sem + 1
          stages := Function.update state.stages thread .idle }
  | wait (thread : Thread) (state : State Thread)
      (idle : state.stages thread = .idle)
      (positive : 0 < state.sem) :
      Step (.wait thread) state
        { state with
          sem := state.sem - 1
          stages := Function.update state.stages thread .acquired }
  | waitFailed (thread : Thread) (state : State Thread)
      (idle : state.stages thread = .idle) :
      Step (.waitFailed thread) state
        { state with stages := Function.update state.stages thread .timedOut }
  | pop (thread : Thread) (msg : Message) (rest : List Message) (state : State Thread)
      (acquired : state.stages thread = .acquired)
      (front : state.queue = msg :: rest) :
      Step (.pop thread msg) state
        { state with
          queue := rest
          stages := Function.update state.stages thread .idle }
  | giveUp (thread : Thread) (state : State Thread)
      (timedOut : state.stages thread = .timedOut) :
      Step (.giveUp thread) state
        { state with stages := Function.update state.stages thread .idle }

/-- The queue after its constructor, with every thread outside its functions. -/
def State.initial : State Thread where
  queue := []
  sem := 0
  stages := fun _ => .idle

/-- The events that lead from the initial state to another one. -/
inductive Run : List (Event Thread) → State Thread → Prop
  | initial : Run [] .initial
  | step (trace : List (Event Thread)) (event : Event Thread)
      (state final : State Thread)
      (run : Run trace state)
      (next : Step event state final) :
      Run (trace ++ [event]) final

namespace Event

/-- The thread that takes the step. -/
def thread : Event Thread → Thread
  | .push thread _ => thread
  | .post thread => thread
  | .wait thread => thread
  | .waitFailed thread => thread
  | .pop thread _ => thread
  | .giveUp thread => thread

/-- The message a step pushes. -/
def pushed : Event Thread → Option Message
  | .push _ msg => some msg
  | _ => none

/-- The message a step pops. -/
def popped : Event Thread → Option Message
  | .pop _ msg => some msg
  | _ => none

/-- What a call of `dequeue` returns after a step, if it does. -/
def returned : Event Thread → Option (Option Message)
  | .pop _ msg => some (some msg)
  | .giveUp _ => some none
  | _ => none

end Event

end MessageQueue
end OrderTracking
