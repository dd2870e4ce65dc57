import OrderTracking.Queue.Defs

/-!
# The message queue is first in, first out

However the steps of its threads interleave, the queue loses nothing, duplicates
nothing and keeps the order, and `dequeue` never pops from an empty deque. The
semaphore lags behind the deque by the calls that are between their two steps.
-/

namespace OrderTracking
namespace MessageQueue

variable {Thread : Type} [DecidableEq Thread]

/-- The stage a thread is at after its last step. -/
def stageAfter : Option (Event Thread) → Stage
  | some (.push _ _) => .pushed
  | some (.wait _) => .acquired
  | some (.waitFailed _) => .timedOut
  | _ => .idle

/-- The last thing a thread did. -/
def lastStep (thread : Thread) (trace : List (Event Thread)) : Option (Event Thread) :=
  (trace.filter fun event => event.thread = thread).getLast?

theorem lastStep_concat_self
    (trace : List (Event Thread))
    (event : Event Thread) :
    lastStep event.thread (trace ++ [event]) = some event := by
  simp [lastStep]

theorem lastStep_concat_other
    {event : Event Thread}
    {other : Thread}
    (different : other ≠ event.thread)
    (trace : List (Event Thread)) :
    lastStep other (trace ++ [event]) = lastStep other trace := by
  simp [lastStep, different.symm]

/-- What the state says about the events that led to it. -/
structure Invariant [Fintype Thread] (trace : List (Event Thread))
    (state : State Thread) : Prop where
  length : state.queue.length =
    state.sem + threadsAt state.stages .acquired + threadsAt state.stages .pushed
  history : trace.filterMap Event.pushed =
    trace.filterMap Event.popped ++ state.queue
  stages : ∀ thread, state.stages thread = stageAfter (lastStep thread trace)

/-- A step moves the thread that takes it to the stage after the step. -/
theorem Step.stages
    {event : Event Thread}
    {state final : State Thread}
    (step : Step event state final) :
    final.stages =
      Function.update state.stages event.thread (stageAfter (some event)) := by
  cases step <;> rfl

/-- The queue grows by what is pushed and shrinks by what is popped. -/
theorem Step.queue
    {event : Event Thread}
    {state final : State Thread}
    (step : Step event state final) :
    state.queue ++ event.pushed.toList = event.popped.toList ++ final.queue := by
  cases step with
  | push => rfl
  | post => exact List.append_nil _
  | wait => exact List.append_nil _
  | waitFailed => exact List.append_nil _
  | pop thread msg rest state acquired front => simp [front, Event.pushed, Event.popped]
  | giveUp => exact List.append_nil _

/-- A step moves its thread and the semaphore together. -/
theorem Step.length
    [Fintype Thread]
    {event : Event Thread}
    {state final : State Thread}
    (step : Step event state final)
    (length : state.queue.length =
      state.sem + threadsAt state.stages .acquired + threadsAt state.stages .pushed) :
    final.queue.length =
      final.sem + threadsAt final.stages .acquired + threadsAt final.stages .pushed := by
  cases step with
  | push thread msg state idle =>
      dsimp only
      rw [threadsAt_update_of_ne (by simp [idle]) (by decide),
        threadsAt_update_enter (by simp [idle]), List.length_append, List.length_singleton]
      omega
  | post thread state pushed =>
      have left := threadsAt_update_leave pushed (show Stage.idle ≠ .pushed by decide)
      have kept : threadsAt (Function.update state.stages thread .idle) .acquired =
          threadsAt state.stages .acquired :=
        threadsAt_update_of_ne (by simp [pushed]) (by decide)
      dsimp only
      omega
  | wait thread state idle positive =>
      dsimp only
      rw [threadsAt_update_enter (by simp [idle]),
        threadsAt_update_of_ne (by simp [idle]) (by decide)]
      omega
  | waitFailed thread state idle =>
      dsimp only
      rw [threadsAt_update_of_ne (by simp [idle]) (by decide),
        threadsAt_update_of_ne (by simp [idle]) (by decide)]
      exact length
  | pop thread msg rest state acquired front =>
      have left := threadsAt_update_leave acquired (show Stage.idle ≠ .acquired by decide)
      have kept : threadsAt (Function.update state.stages thread .idle) .pushed =
          threadsAt state.stages .pushed :=
        threadsAt_update_of_ne (by simp [acquired]) (by decide)
      rw [front, List.length_cons] at length
      dsimp only
      omega
  | giveUp thread state timedOut =>
      dsimp only
      rw [threadsAt_update_of_ne (by simp [timedOut]) (by decide),
        threadsAt_update_of_ne (by simp [timedOut]) (by decide)]
      exact length

omit [DecidableEq Thread] in
theorem filterMap_singleton
    (part : Event Thread → Option Message)
    (event : Event Thread) :
    [event].filterMap part = (part event).toList := by
  cases equal : part event <;> simp [equal]

theorem Invariant.step
    [Fintype Thread]
    {trace : List (Event Thread)}
    {event : Event Thread}
    {state final : State Thread}
    (invariant : Invariant trace state)
    (step : Step event state final) :
    Invariant (trace ++ [event]) final where
  length := step.length invariant.length
  history := by
    rw [List.filterMap_append, List.filterMap_append, invariant.history,
      filterMap_singleton, filterMap_singleton, List.append_assoc, step.queue,
      List.append_assoc]
  stages := by
    intro thread
    rw [step.stages]
    by_cases own : thread = event.thread
    · subst own
      rw [Function.update_self, lastStep_concat_self]
    · rw [Function.update_of_ne own, lastStep_concat_other own, invariant.stages]

/-- The invariant holds after every run. -/
theorem Invariant.of_run
    [Fintype Thread]
    {trace : List (Event Thread)}
    {state : State Thread}
    (run : Run trace state) :
    Invariant trace state := by
  induction run with
  | initial =>
      exact
        { length := by
            rw [threadsAt_eq_zero, threadsAt_eq_zero]
            · rfl
            · simp [State.initial]
            · simp [State.initial]
          history := rfl
          stages := fun _ => rfl }
  | step trace event state final run next inductionHypothesis =>
      exact inductionHypothesis.step next

/-! ## The queue of a client -/

/-- What an event does to the queue of a client in the state of the server, where
`enqueue` and `dequeue` are one step each. -/
def Event.onServer (client : ClientPtr) (server : Server) : Event Thread → Server
  | .push _ msg => server.enqueue client msg
  | .pop _ _ =>
      match (Server.dequeue client).run server with
      | .ok _ server => server
      | .error _ server => server
  | _ => server

/-- A step does to the deque what its event does to the queue of the client, and
what it pops is what `dequeue` returns. -/
theorem Step.onServer
    {event : Event Thread}
    {state final : State Thread}
    (step : Step event state final)
    {client : ClientPtr}
    {server : Server}
    (same : server.queues client = state.queue) :
    (event.onServer client server).queues client = final.queue ∧
      ∀ msg, event.popped = some msg →
        (Server.dequeue client).run server =
          .ok (some msg) (event.onServer client server) := by
  cases step with
  | push thread msg state idle => simp [Event.onServer, Server.enqueue, Event.popped, same]
  | pop thread msg rest state acquired front =>
      have ran : (Server.dequeue client).run server = .ok (some msg)
          { server with queues := Function.update server.queues client rest } := by
        rw [front] at same
        simp only [Server.dequeue, EStateM.run_bind, EStateM.run_get, same]
        rfl
      simp [Event.onServer, Event.popped, ran]
  | _ => exact ⟨same, fun msg popped => by cases popped⟩

/-- After any run the deque holds what the queue of the client holds after the
same calls in one step each. -/
theorem Run.onServer
    {trace : List (Event Thread)}
    {state : State Thread}
    (run : Run trace state)
    {client : ClientPtr}
    {server : Server}
    (empty : server.queues client = []) :
    (trace.foldl (fun server event => event.onServer client server) server).queues client =
      state.queue := by
  induction run with
  | initial => exact empty
  | step trace event state final run next inductionHypothesis =>
      rw [List.foldl_append]
      exact (next.onServer inductionHypothesis).1

/-! ## The theorem -/

/-- A step whose call returns a null pointer, or at which the wait fails, takes
nothing from the queue. -/
theorem Step.queue_of_nothing_popped
    {event : Event Thread}
    {state final : State Thread}
    (step : Step event state final)
    (nothingPushed : event.pushed = none)
    (nothingPopped : event.popped = none) :
    final.queue = state.queue := by
  have queue := step.queue
  rw [nothingPushed, nothingPopped] at queue
  simpa using queue.symm

/-- A thread that gives up is one whose wait failed before. -/
theorem Step.giveUp_inv
    {event : Event Thread}
    {state final : State Thread}
    (step : Step event state final)
    (null : event.returned = some none) :
    event = .giveUp event.thread ∧ state.stages event.thread = .timedOut := by
  cases step with
  | giveUp thread state timedOut => exact ⟨rfl, timedOut⟩
  | _ => cases null

theorem lastStep_of_timedOut
    {trace : List (Event Thread)}
    {thread : Thread}
    (timedOut : stageAfter (lastStep thread trace) = .timedOut) :
    lastStep thread trace = some (.waitFailed thread) := by
  cases last : lastStep thread trace with
  | none =>
      rw [last] at timedOut
      cases timedOut
  | some event =>
      have member : event ∈ trace.filter fun event => event.thread = thread :=
        List.mem_of_getLast? last
      have own : event.thread = thread := by
        simpa using (List.mem_filter.mp member).2
      rw [last] at timedOut
      cases event with
      | waitFailed other =>
          obtain rfl : other = thread := own
          rfl
      | _ => cases timedOut

/-- However the steps of the threads interleave, a thread that pops finds a
message, the popped messages are the first of the pushed ones, `dequeue` returns
a null pointer only when its wait failed, and the semaphore counts the messages
whenever no call is in progress. -/
theorem fifo_of_run
    [Fintype Thread]
    {trace : List (Event Thread)}
    {state : State Thread}
    (run : Run trace state) :
    state.sem + threadsAt state.stages .acquired ≤ state.queue.length ∧
      (∀ thread, state.stages thread = .acquired → state.queue ≠ []) ∧
      trace.filterMap Event.popped <+: trace.filterMap Event.pushed ∧
      (∀ event final, Step event state final → event.returned = some none →
        lastStep event.thread trace = some (.waitFailed event.thread) ∧
          final.queue = state.queue) ∧
      (∀ thread final, Step (.waitFailed thread) state final →
        final.queue = state.queue) ∧
      ((∀ thread, state.stages thread = .idle) → state.sem = state.queue.length) := by
  have invariant := Invariant.of_run run
  have length := invariant.length
  refine ⟨by omega, ?_, ⟨state.queue, invariant.history.symm⟩, ?_, ?_, ?_⟩
  · intro thread acquired empty
    have waiting := threadsAt_pos acquired
    rw [empty, List.length_nil] at length
    omega
  · intro event final step null
    obtain ⟨giveUp, timedOut⟩ := step.giveUp_inv null
    rw [invariant.stages] at timedOut
    refine ⟨lastStep_of_timedOut timedOut, step.queue_of_nothing_popped ?_ ?_⟩
    · rw [giveUp]
      rfl
    · rw [giveUp]
      rfl
  · intro thread final step
    exact step.queue_of_nothing_popped rfl rfl
  · intro idle
    rw [threadsAt_eq_zero (by simp [idle]), threadsAt_eq_zero (by simp [idle])] at length
    omega

/-- One thread sends a heartbeat while the wait of another fails, which then waits
again. -/
def secondWait : List (Event Bool) :=
  [.push false (.ofType .dispHeartbeat), .waitFailed true, .post false, .giveUp true,
    .wait true]

theorem exists_run_secondWait :
    ∃ state : State Bool, Run secondWait state ∧ state.stages true = .acquired := by
  refine ⟨_, .step _ _ _ _ (.step _ _ _ _ (.step _ _ _ _ (.step _ _ _ _ (.step _ _ _ _
    .initial (.push _ _ _ ?_)) (.waitFailed _ _ ?_)) (.post _ _ ?_)) (.giveUp _ _ ?_))
    (.wait _ _ ?_ ?_), ?_⟩
  all_goals decide

theorem fifo_of_run_secondWait :
    ∃ state : State Bool, Run secondWait state ∧ state.stages true = .acquired ∧
      state.queue ≠ [] := by
  obtain ⟨state, run, acquired⟩ := exists_run_secondWait
  exact ⟨state, run, acquired, (fifo_of_run run).2.1 true acquired⟩

end MessageQueue
end OrderTracking
