import OrderTracking.Display.Session

/-!
# Starting up from the queue

The thread that calls `add_client` and then `send_order_message` for one client.
The orders are copied under the lock, but their copies are enqueued one by one
after it is released. As long as no call touches an order whose copy is waiting,
the queue shows the stored orders once the thread has returned. A call that does
touch one is overtaken by the older copy.
-/

namespace OrderTracking
namespace Display
namespace StartUp

/-! ## Steps -/

/-- How far the thread is: before `add_client`, before `send_order_message`, with
copies to enqueue, or after `send_order_message` returned. -/
inductive Progress
  | start
  | added
  | enqueuing (copies : List Order)
  | returned

/-- The server, and the thread that sets up the client. -/
structure State where
  server : Server
  progress : Progress

/-- The copies that wait to be enqueued. -/
def State.waiting (state : State) : List Order :=
  match state.progress with
  | .enqueuing copies => copies
  | _ => []

/-- What a thread does next. -/
inductive Action
  | call (operation : Server.Operation)
  | elsewhere
  | addClient
  | copy (orders : List Order)
  | enqueue
  | ret

/-- A step of some thread. -/
inductive Step (client : ClientPtr) : Action → State → State → Prop
  | call (operation : Server.Operation) (server : Server) (progress : Progress) :
      Step client (.call operation) ⟨server, progress⟩
        ⟨server.perform operation, progress⟩
  | elsewhere (server final : Server) (progress : Progress)
      (other : Elsewhere client server final) :
      Step client .elsewhere ⟨server, progress⟩ ⟨final, progress⟩
  | addClient (server final : Server)
      (ran : (Server.addClient client).run server = .ok () final) :
      Step client .addClient ⟨server, .start⟩ ⟨final, .added⟩
  | copy (orders : List Order) (server : Server)
      (copied : Server.IsSnapshot orders server) :
      Step client (.copy orders) ⟨server, .added⟩ ⟨server, .enqueuing orders⟩
  | enqueue (order : Order) (copies : List Order) (server : Server) :
      Step client .enqueue ⟨server, .enqueuing (order :: copies)⟩
        ⟨server.enqueue client (.ofOrder .dispOrder (some order)), .enqueuing copies⟩
  | ret (server : Server) :
      Step client .ret ⟨server, .enqueuing []⟩ ⟨server, .returned⟩

/-- The action does not touch an order whose copy is waiting. -/
def Undisturbed (state : State) : Action → Prop
  | .call operation =>
      ∀ order ∈ state.waiting, ¬ operation.Touches state.server order.id
  | _ => True

/-- The server has just started, and the thread is about to. -/
def State.initial : State := ⟨.initial, .start⟩

/-- The states a run can lead to. -/
def Reachable (client : ClientPtr) (state : State) : Prop :=
  Relation.ReflTransGen (fun before after => ∃ action, Step client action before after)
    .initial state

/-- The states an undisturbed run can lead to. -/
def ReachableUndisturbed (client : ClientPtr) (state : State) : Prop :=
  Relation.ReflTransGen
    (fun before after => ∃ action, Step client action before after ∧
      Undisturbed before action)
    .initial state

theorem Reachable.initial
    {client : ClientPtr} :
    Reachable client .initial := .refl

theorem Reachable.next
    {client : ClientPtr}
    {action : Action}
    {state next : State}
    (reachable : Reachable client state)
    (step : Step client action state next) :
    Reachable client next :=
  reachable.tail ⟨action, step⟩

theorem ReachableUndisturbed.initial
    {client : ClientPtr} :
    ReachableUndisturbed client .initial := .refl

theorem ReachableUndisturbed.next
    {client : ClientPtr}
    {action : Action}
    {state next : State}
    (reachable : ReachableUndisturbed client state)
    (step : Step client action state next)
    (undisturbed : Undisturbed state action) :
    ReachableUndisturbed client next :=
  reachable.tail ⟨action, step, undisturbed⟩

/-- The queue of the client shows the stored orders. -/
def UpToDate (client : ClientPtr) (state : State) : Prop :=
  (receive (state.server.queues client)).run ∅ = .ok () state.server.myOrders

/-! ## The invariant -/

/-- What holds in every state of an undisturbed run: with the copies that are
waiting, the queue shows exactly the stored orders. -/
inductive Invariant (client : ClientPtr) : State → Prop
  | start (server : Server)
      (identified : Identified server.myOrders)
      (absent : client ∉ server.myClients)
      (empty : server.queues client = []) :
      Invariant client ⟨server, .start⟩
  | added (server : Server)
      (identified : Identified server.myOrders)
      (present : client ∈ server.myClients)
      (shown : ∀ msg ∈ server.queues client, Shown msg)
      (behind : Behind (replay apply ∅ (server.queues client)) server.myOrders) :
      Invariant client ⟨server, .added⟩
  | enqueuing (copies : List Order) (server : Server)
      (present : client ∈ server.myClients)
      (shown : ∀ msg ∈ server.queues client, Shown msg)
      (upToDate : replay apply ∅ (server.queues client ++ snapshotMessages copies) =
        server.myOrders) :
      Invariant client ⟨server, .enqueuing copies⟩
  | returned (server : Server)
      (present : client ∈ server.myClients)
      (shown : ∀ msg ∈ server.queues client, Shown msg)
      (upToDate : replay apply ∅ (server.queues client) = server.myOrders) :
      Invariant client ⟨server, .returned⟩

namespace Invariant

variable {client : ClientPtr}

/-- A call that touches none of the waiting copies may as well come after them. -/
theorem call
    {server : Server}
    {progress : Progress}
    (invariant : Invariant client ⟨server, progress⟩)
    {operation : Server.Operation}
    (undisturbed : Undisturbed ⟨server, progress⟩ (.call operation)) :
    Invariant client ⟨server.perform operation, progress⟩ := by
  obtain ⟨messages, announces⟩ :=
    exists_announces (Server.change_perform server operation)
  cases invariant with
  | start _ identified absent empty =>
      obtain ⟨stillAbsent, queue⟩ := announces.absent absent
      exact .start _ (announces.identified identified) stillAbsent (queue.trans empty)
  | added _ identified present shown behind =>
      obtain ⟨stillPresent, queue⟩ := announces.present present
      refine .added _ (announces.identified identified) stillPresent ?_ ?_
      · rw [queue]
        exact announces.shown_append shown
      · rw [queue, replay_append, announces.myOrders]
        exact replay_related (fun msg left right related => related.apply msg) messages
          behind
  | enqueuing copies _ present shown upToDate =>
      obtain ⟨stillPresent, queue⟩ := announces.present present
      have disjoint : ∀ msg ∈ messages, ∀ copy ∈ snapshotMessages copies,
          subject msg ≠ subject copy := by
        intro msg member copy isCopy same
        obtain ⟨order, waiting, rfl⟩ := List.mem_map.mp isCopy
        have touched := announces.touched msg member
        rw [same] at touched
        exact undisturbed order waiting touched
      refine .enqueuing copies _ stillPresent ?_ ?_
      · rw [queue]
        exact announces.shown_append shown
      · rw [queue, List.append_assoc, replay_append, replay_append,
          keyed_apply.replay_comm _ disjoint, ← replay_append, ← replay_append,
          ← List.append_assoc]
        exact announces.upToDate upToDate
  | returned _ present shown upToDate =>
      obtain ⟨stillPresent, queue⟩ := announces.present present
      refine .returned _ stillPresent ?_ ?_
      · rw [queue]
        exact announces.shown_append shown
      · rw [queue]
        exact announces.upToDate upToDate

theorem elsewhere
    {server final : Server}
    {progress : Progress}
    (invariant : Invariant client ⟨server, progress⟩)
    (other : Elsewhere client server final) :
    Invariant client ⟨final, progress⟩ := by
  obtain ⟨stored, queue, clients⟩ := other.frame
  cases invariant with
  | start _ identified absent empty =>
      refine .start final ?_ ?_ ?_
      · rwa [stored]
      · rwa [clients]
      · rwa [queue]
  | added _ identified present shown behind =>
      refine .added final ?_ ?_ ?_ ?_
      · rwa [stored]
      · rwa [clients]
      · rwa [queue]
      · rwa [queue, stored]
  | enqueuing copies _ present shown upToDate =>
      refine .enqueuing copies final ?_ ?_ ?_
      · rwa [clients]
      · rwa [queue]
      · rwa [queue, stored]
  | returned _ present shown upToDate =>
      refine .returned final ?_ ?_ ?_
      · rwa [clients]
      · rwa [queue]
      · rwa [queue, stored]

/-- What one undisturbed step preserves. -/
theorem step
    {action : Action}
    {state next : State}
    (invariant : Invariant client state)
    (step : Step client action state next)
    (undisturbed : Undisturbed state action) :
    Invariant client next := by
  cases step with
  | call operation server progress => exact invariant.call undisturbed
  | elsewhere server final progress other => exact invariant.elsewhere other
  | addClient server final ran =>
      cases invariant with
      | start _ identified absent empty =>
          cases ran
          refine .added _ identified (Finset.mem_insert_self client _) ?_ ?_
          · intro msg member
            rw [empty] at member
            cases member
          · rw [empty, replay_nil]
            exact behind_empty server.myOrders
  | copy orders server copied =>
      cases invariant with
      | added _ identified present shown behind =>
          refine .enqueuing orders server present shown ?_
          rw [replay_append]
          exact behind.replay_snapshotMessages identified copied
  | enqueue order copies server =>
      cases invariant with
      | enqueuing _ _ present shown upToDate =>
          have queue : (server.enqueue client (.ofOrder .dispOrder (some order))).queues
              client = server.queues client ++ [.ofOrder .dispOrder (some order)] :=
            Function.update_self _ _ _
          refine .enqueuing copies _ present ?_ ?_
          · intro msg member
            rw [queue, List.mem_append, List.mem_singleton] at member
            rcases member with queued | rfl
            · exact shown msg queued
            · exact .order order
          · rw [queue, List.append_assoc]
            exact upToDate
  | ret server =>
      cases invariant with
      | enqueuing _ _ present shown upToDate =>
          refine .returned server present shown ?_
          rw [← upToDate, snapshotMessages, List.map_nil, List.append_nil]

/-- What an undisturbed run preserves. -/
theorem of_reachableUndisturbed
    {state : State}
    (reachable : ReachableUndisturbed client state) :
    Invariant client state := by
  induction reachable with
  | refl =>
      refine .start .initial ?_ (Finset.notMem_empty client) rfl
      intro orderId order stored
      cases stored
  | tail _ last inductionHypothesis =>
      obtain ⟨action, step, undisturbed⟩ := last
      exact inductionHypothesis.step step undisturbed

end Invariant

/-- In undisturbed runs, once `send_order_message` has returned, the queue of the
client shows exactly the stored orders. -/
theorem startUp_upToDate
    {client : ClientPtr}
    {state : State}
    (reachable : ReachableUndisturbed client state)
    (returned : state.progress = .returned) :
    UpToDate client state := by
  have invariant := Invariant.of_reachableUndisturbed reachable
  cases invariant with
  | start => cases returned
  | added => cases returned
  | enqueuing => cases returned
  | returned server present shown upToDate =>
      rw [UpToDate, receive_run shown, upToDate]

/-- The new tea under its id. -/
def orderedTea : Order :=
  ⟨1000, .new, [⟨1000, 1, .new, ascii "tea", 1⟩]⟩

/-- A tea is ordered, a client is added and the tea copied for it; before the
copy is enqueued, another tea is ordered. -/
def teaCopied : State :=
  let ordered := Server.initial.perform (.createOrder newTea)
  let added := { ordered with myClients := insert 7 ordered.myClients }
  let busy := added.perform (.createOrder newTea)
  ⟨busy.enqueue 7 (.ofOrder .dispOrder (some orderedTea)), .returned⟩

theorem reachableUndisturbed_teaCopied : ReachableUndisturbed 7 teaCopied := by
  have ordered := ReachableUndisturbed.initial.next
    (@Step.call 7 (.createOrder newTea) _ _) (by
    intro order waiting
    cases waiting)
  have added := ordered.next (.addClient _ _ rfl) trivial
  have copied := added.next (.copy [orderedTea] _ rfl) trivial
  have busy := copied.next (.call (.createOrder newTea) _ _) (by
    intro order waiting
    rw [List.mem_singleton.mp waiting]
    intro touched
    have sameId : (1000 : Int32) = 1001 := touched
    exact absurd sameId (by decide))
  have enqueued := busy.next (.enqueue orderedTea [] _) trivial
  exact enqueued.next (.ret _) trivial

theorem startUp_upToDate_teaCopied : UpToDate 7 teaCopied :=
  startUp_upToDate reachableUndisturbed_teaCopied rfl

/-- A tea that is done is copied, but delivered before its copy is enqueued. -/
theorem not_always_upToDate :
    ¬ ∀ state, Reachable 7 state → state.progress = .returned → UpToDate 7 state := by
  intro always
  have ordered := Reachable.initial.next (@Step.call 7 (.createOrder newTea) _ _)
  have begun := ordered.next (.call (.updateItem 1000 1 .inProgress) _ _)
  have done := begun.next (.call (.updateItem 1000 1 .done) _ _)
  have added := done.next (.addClient _ _ rfl)
  have copied := added.next
    (.copy [⟨1000, .done, [⟨1000, 1, .done, ascii "tea", 1⟩]⟩] _ rfl)
  have delivered := copied.next (.call (.updateOrder 1000 .delivered) _ _)
  have enqueued := delivered.next (.enqueue _ [] _)
  have returned := enqueued.next (.ret _)
  have upToDate := always _ returned rfl
  have shows := congrArg (fun result => match result with
    | .ok _ orders => orders.lookup 1000
    | .error _ orders => orders.lookup 1000) upToDate
  cases shows

end StartUp
end Display
end OrderTracking
