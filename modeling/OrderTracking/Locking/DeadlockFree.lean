import Mathlib.Data.Fintype.EquivFin
import Mathlib.Order.Fin.Basic
import OrderTracking.Locking.Defs
import OrderTracking.Server.Step

/-!
# The server does not deadlock

The mutexes are requested in the order server, then queue, and only one queue at a
time, so threads that wait for each other never form a cycle.
-/

namespace OrderTracking
namespace Locking

/-! ## The paths and the server -/

/-- What an operation adds to the broadcasts. -/
def Broadcasts (operation : Server.Operation) (server : Server) (messages : List Message) :
    Prop :=
  (server.perform operation).broadcasts = server.broadcasts ++ messages

/-- `create_order` holds `my_lock` while it broadcasts what the server broadcasts. -/
theorem createOrder_path
    (server : Server)
    (clients : List ClientPtr)
    (order : Order) :
    ∃ messages, Broadcasts (.createOrder order) server messages ∧
      createOrder clients = guarded (messages.flatMap fun _ => broadcast clients) :=
  ⟨_, by rw [Broadcasts, Server.perform_createOrder, Server.created_broadcasts],
    by rw [createOrder, List.flatMap_singleton]⟩

theorem updateItem_path
    (server : Server)
    (clients : List ClientPtr)
    (orderId itemId : Int32)
    (newStatus : ItemStatus) :
    ∃ messages, Broadcasts (.updateItem orderId itemId newStatus) server messages ∧
      updateItem server clients orderId itemId newStatus =
        guarded (messages.flatMap fun _ => broadcast clients) := by
  by_cases accepted : ∃ order item, server.myOrders.lookup orderId = some order ∧
      order.findItem itemId = some item ∧ Server.ItemStep item.status newStatus
  · obtain ⟨order, item, stored, found, allowed⟩ := accepted
    refine ⟨Server.itemUpdateMessages orderId itemId newStatus order, ?_, ?_⟩
    · rw [Broadcasts, Server.perform_updateItem stored found allowed,
        Server.itemUpdated_broadcasts]
    · rw [Server.ItemStep] at allowed
      simp only [updateItem, stored, found, if_pos allowed, Server.itemUpdateMessages]
      by_cases same : Server.newOrderStatus (order.setItemStatus itemId newStatus) newStatus =
          (order.setItemStatus itemId newStatus).status
      · rw [if_pos same, if_neg (not_not.mpr same)]
        simp
      · rw [if_neg same, if_pos same]
        simp
  · refine ⟨[], ?_, ?_⟩
    · rw [Broadcasts, Server.perform_updateItem_refused accepted, List.append_nil]
    · rw [updateItem]
      cases stored : server.myOrders.lookup orderId with
      | none => rfl
      | some order =>
          cases found : order.findItem itemId with
          | none => simp only [found, List.flatMap_nil]
          | some item =>
              have notAllowed : ¬ Server.ItemStep item.status newStatus :=
                fun allowed => accepted ⟨order, item, stored, found, allowed⟩
              rw [Server.ItemStep] at notAllowed
              simp only [found, if_neg notAllowed, List.flatMap_nil]

theorem updateOrder_path
    (server : Server)
    (clients : List ClientPtr)
    (orderId : Int32)
    (newStatus : OrderStatus) :
    ∃ messages, Broadcasts (.updateOrder orderId newStatus) server messages ∧
      updateOrder server clients orderId newStatus =
        guarded (messages.flatMap fun _ => broadcast clients) := by
  by_cases accepted : (∃ order, server.myOrders.lookup orderId = some order ∧
      order.status = .done) ∧ newStatus = .delivered
  · obtain ⟨⟨order, stored, done⟩, rfl⟩ := accepted
    refine ⟨[.ofOrderStatus .dispOrderUpdate orderId .delivered], ?_, ?_⟩
    · rw [Broadcasts, Server.perform_updateOrder stored done,
        Server.delivered_broadcasts]
    · simp [updateOrder, stored, done]
  · refine ⟨[], ?_, ?_⟩
    · rw [Broadcasts, Server.perform_updateOrder_refused accepted, List.append_nil]
    · rw [updateOrder]
      cases stored : server.myOrders.lookup orderId with
      | none => rfl
      | some order =>
          have refused : order.status ≠ .done ∨ newStatus ≠ .delivered := by
            by_contra neither
            simp only [ne_eq, not_or, not_not] at neither
            exact accepted ⟨⟨order, stored, neither.1⟩, neither.2⟩
          simp only [if_pos refused, List.flatMap_nil]

/-! ## The order of the mutexes -/

/-- `my_lock` comes before every `m_lock`. -/
def rank : Mutex → Fin 2
  | .myLock => 0
  | .mLock _ => 1

/-- A thread may hold `my_lock` when it uses a queue. -/
theorem neutral_enqueue
    {held : List Mutex}
    (onlyMyLock : ∀ mutex ∈ held, mutex = .myLock)
    (client : ClientPtr) :
    LockOrder.Neutral rank held (enqueue client) := by
  refine LockOrder.Neutral.section ?_ (.nil rank _)
  intro other member
  rw [onlyMyLock other member]
  exact Fin.zero_lt_one

theorem neutral_broadcast
    (clients : List ClientPtr) :
    LockOrder.Neutral rank [.myLock] (broadcast clients) :=
  .flatMap (neutral_enqueue (by simp)) clients

theorem neutral_guarded
    {body : List Action}
    (inside : LockOrder.Neutral rank [.myLock] body) :
    LockOrder.Neutral rank [] (guarded body) :=
  .section (by simp) inside

/-- A thread may hold `my_lock` while it broadcasts any messages. -/
theorem neutral_guarded_broadcasts
    (clients : List ClientPtr)
    (messages : List Message) :
    LockOrder.Neutral rank [] (guarded (messages.flatMap fun _ => broadcast clients)) :=
  neutral_guarded (.flatMap (fun _ => neutral_broadcast clients) messages)

theorem neutral_sendOrderMessage
    (orders : List Order)
    (client : ClientPtr) :
    LockOrder.Neutral rank [] (sendOrderMessage orders client) :=
  (neutral_guarded (.nil rank _)).append
    (.flatMap (fun _ => neutral_enqueue (by simp) client) orders)

/-- Every operation requests the mutexes in order and releases them. -/
theorem Operation.disciplined
    {path : List Action}
    (operation : Operation path) :
    LockOrder.Disciplined rank [] path := by
  apply LockOrder.Neutral.disciplined
  cases operation with
  | createOrder server clients lists =>
      -- the order makes no difference to the mutexes
      obtain ⟨messages, -, path⟩ := createOrder_path server clients ⟨1, .new, []⟩
      rw [path]
      exact neutral_guarded_broadcasts clients messages
  | updateItem server clients orderId itemId newStatus lists =>
      obtain ⟨messages, -, path⟩ := updateItem_path server clients orderId itemId newStatus
      rw [path]
      exact neutral_guarded_broadcasts clients messages
  | updateOrder server clients orderId newStatus lists =>
      obtain ⟨messages, -, path⟩ := updateOrder_path server clients orderId newStatus
      rw [path]
      exact neutral_guarded_broadcasts clients messages
  | addClient => exact neutral_guarded (.nil rank _)
  | removeClient => exact neutral_guarded (.nil rank _)
  | sendOrderMessage server orders client copied =>
      exact neutral_sendOrderMessage orders client
  | enqueue client => exact neutral_enqueue (by simp) client
  | dequeue client waited =>
      cases waited with
      | false => exact .nil rank _
      | true => exact neutral_enqueue (by simp) client

/-! ## The theorem -/

open LockOrder (WaitsFor Holds Step)

/-- In every reachable state: a thread that holds an `m_lock` requests no mutex, no
thread requests what it holds, a thread outside the operations holds nothing, no
thread waits for itself through others, and every chain of waiting threads ends, in
a thread that holds a mutex and can take a step. -/
theorem deadlock_free
    {Thread : Type}
    [DecidableEq Thread]
    {state : State Thread}
    (reachable : Reachable state) :
    (∀ thread client mutex rest, state.owner (.mLock client) = some thread →
      state.rest thread ≠ .lock mutex :: rest) ∧
    (∀ thread mutex rest, state.owner mutex = some thread →
      state.rest thread ≠ .lock mutex :: rest) ∧
    (∀ thread, state.rest thread = [] → ∀ mutex, state.owner mutex ≠ some thread) ∧
    (∀ thread, ¬ Relation.TransGen (WaitsFor state) thread thread) ∧
    (WellFounded fun other thread => WaitsFor state thread other) ∧
    (∀ thread other, WaitsFor state thread other →
      ∃ holder, Relation.TransGen (WaitsFor state) thread holder ∧
        Holds state holder ∧ ∃ final, Step Operation holder state final) ∧
    ∀ thread last, Relation.TransGen (WaitsFor state) thread last →
      (∀ other, ¬ WaitsFor state last other) →
        Holds state last ∧ ∃ final, Step Operation last state final := by
  have invariant : LockOrder.Invariant rank state :=
    .of_reachable (fun path operation => operation.disciplined) reachable
  refine ⟨?_, ?_, ?_, invariant.acyclic, invariant.wellFounded,
    fun thread other waits => invariant.exists_continues waits, ?_⟩
  · intro thread client mutex rest owned next
    have lower := invariant.lower next owned
    exact absurd (Fin.le_last (rank mutex)) (not_le.mpr lower)
  · intro thread mutex rest owned next
    exact lt_irrefl _ (invariant.lower next owned)
  · intro thread idle mutex owned
    exact invariant.idle idle ⟨mutex, owned⟩
  · intro thread last chain running
    obtain ⟨before, _, waits⟩ := Relation.TransGen.tail'_iff.mp chain
    exact invariant.continues waits running

/-- A thread that wants to register a display waits for one that creates an order,
and this one for the thread of the display whose queue comes next. -/
theorem exists_reachable_chain :
    ∃ state : State (Fin 3), Reachable state ∧ WaitsFor state 2 0 ∧
      WaitsFor state 0 1 := by
  have lists : Lists [7] { Server.initial with myClients := {7} } := by
    simp [Lists]
  refine ⟨_, .tail (.tail (.tail (.tail (.tail .refl
    ⟨1, .enter (dequeue 7 true) _ rfl (.dequeue 7 true)⟩)
    ⟨1, .lock (.mLock 7) [.unlock (.mLock 7)] _ rfl rfl⟩)
    ⟨0, .enter (createOrder [7]) _ rfl (.createOrder _ [7] lists)⟩)
    ⟨0, .lock .myLock [.lock (.mLock 7), .unlock (.mLock 7), .unlock .myLock] _ rfl rfl⟩)
    ⟨2, .enter addClient _ rfl .addClient⟩, ⟨.myLock, _, rfl, rfl⟩, ⟨.mLock 7, _, rfl, rfl⟩⟩

/-- There the thread of the display can take a step. -/
theorem deadlock_free_chain :
    ∃ state : State (Fin 3), Reachable state ∧ WaitsFor state 2 0 ∧
      ∃ holder, Relation.TransGen (WaitsFor state) 2 holder ∧
        Holds state holder ∧ ∃ final, Step Operation holder state final := by
  obtain ⟨state, reachable, waits, _⟩ := exists_reachable_chain
  have free := (deadlock_free reachable).2.2.2.2.2.1
  exact ⟨state, reachable, waits, free 2 0 waits⟩

end Locking
end OrderTracking
