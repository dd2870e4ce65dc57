import OrderTracking.Library.Lookup
import OrderTracking.Library.Replay
import OrderTracking.Server.Defs

/-!
# What the operations of the server do

An operation either changes nothing and throws `SemanticError`, or it is one of
three changes: an order is created, an item of an order is updated, or an order
is delivered. Invariants of the server are proved about these changes.
-/

namespace OrderTracking
namespace Server

/-! ## Broadcasting -/

/-- Broadcast several messages. -/
def emit (messages : List Message) (server : Server) : Server :=
  replay (fun server message => broadcast message server) server messages

theorem emit_nil (server : Server) : emit [] server = server := rfl

theorem emit_cons
    (message : Message)
    (messages : List Message)
    (server : Server) :
    emit (message :: messages) server = emit messages (broadcast message server) :=
  rfl

@[simp] theorem emit_myClients (messages : List Message) (server : Server) :
    (emit messages server).myClients = server.myClients := by
  induction messages generalizing server with
  | nil => rfl
  | cons message messages inductionHypothesis =>
      rw [emit_cons, inductionHypothesis]
      rfl

@[simp] theorem emit_myOrders (messages : List Message) (server : Server) :
    (emit messages server).myOrders = server.myOrders := by
  induction messages generalizing server with
  | nil => rfl
  | cons message messages inductionHypothesis =>
      rw [emit_cons, inductionHypothesis]
      rfl

@[simp] theorem emit_nextOrderId (messages : List Message) (server : Server) :
    (emit messages server).nextOrderId = server.nextOrderId := by
  induction messages generalizing server with
  | nil => rfl
  | cons message messages inductionHypothesis =>
      rw [emit_cons, inductionHypothesis]
      rfl

@[simp] theorem emit_broadcasts (messages : List Message) (server : Server) :
    (emit messages server).broadcasts = server.broadcasts ++ messages := by
  induction messages generalizing server with
  | nil => simp [emit_nil]
  | cons message messages inductionHypothesis =>
      rw [emit_cons, inductionHypothesis]
      simp [broadcast]

/-- Registered clients get every message, others none. -/
@[simp] theorem emit_queues
    (messages : List Message)
    (server : Server)
    (client : ClientPtr) :
    (emit messages server).queues client =
      if client ∈ server.myClients then server.queues client ++ messages
      else server.queues client := by
  induction messages generalizing server with
  | nil => simp [emit_nil]
  | cons message messages inductionHypothesis =>
      rw [emit_cons, inductionHypothesis]
      by_cases registered : client ∈ server.myClients
      · simp [broadcast, registered]
      · simp [broadcast, registered]

theorem broadcast_setOrder
    (message : Message)
    (orderId : Int32)
    (order : Order)
    (server : Server) :
    broadcast message (setOrder orderId order server) =
      setOrder orderId order (broadcast message server) := rfl

theorem setOrder_setOrder
    (orderId : Int32)
    (first second : Order)
    (server : Server) :
    setOrder orderId second (setOrder orderId first server) =
      setOrder orderId second server := by
  simp only [setOrder, Finmap.insert_insert]

@[simp] theorem setOrder_myOrders (orderId : Int32) (order : Order) (server : Server) :
    (setOrder orderId order server).myOrders =
      server.myOrders.insert orderId order := rfl

@[simp] theorem setOrder_nextOrderId
    (orderId : Int32) (order : Order) (server : Server) :
    (setOrder orderId order server).nextOrderId = server.nextOrderId := rfl

@[simp] theorem setOrder_broadcasts
    (orderId : Int32) (order : Order) (server : Server) :
    (setOrder orderId order server).broadcasts = server.broadcasts := rfl

@[simp] theorem setOrder_myClients
    (orderId : Int32) (order : Order) (server : Server) :
    (setOrder orderId order server).myClients = server.myClients := rfl

@[simp] theorem setOrder_queues
    (orderId : Int32) (order : Order) (server : Server) :
    (setOrder orderId order server).queues = server.queues := rfl

/-! ## The three changes -/

/-- The order as it is stored and broadcast under its id. -/
def assigned (orderId : Int32) (order : Order) : Order :=
  (order.setId orderId).setItemOrderIds orderId

@[simp] theorem assigned_id (orderId : Int32) (order : Order) :
    (assigned orderId order).id = orderId := rfl

@[simp] theorem assigned_status (orderId : Int32) (order : Order) :
    (assigned orderId order).status = order.status := rfl

theorem assigned_items
    {order : Order}
    (countable : order.items.length < 2 ^ 31)
    (orderId : Int32) :
    (assigned orderId order).items = order.items.map (Item.setOrderId orderId) :=
  Order.setItemOrderIds_of_length_lt countable orderId

/-- The server after an order was created. -/
def created (order : Order) (server : Server) : Server :=
  let orderId := server.nextOrderId
  emit [.ofOrder .dispOrder (some (assigned orderId order))]
    (setOrder orderId (assigned orderId order)
      { server with nextOrderId := orderId + 1 })

/-- The item transitions `update_item` allows. -/
def ItemStep (cur newStatus : ItemStatus) : Prop :=
  (cur = .new ∧ newStatus = .inProgress) ∨ (cur = .inProgress ∧ newStatus = .done)

instance (cur newStatus : ItemStatus) : Decidable (ItemStep cur newStatus) :=
  inferInstanceAs (Decidable (_ ∧ _ ∨ _ ∧ _))

/-- The order after an item update. -/
def itemUpdatedOrder (itemId : Int32) (newStatus : ItemStatus) (order : Order) :
    Order :=
  let updated := order.setItemStatus itemId newStatus
  updated.setStatus (newOrderStatus updated newStatus)

@[simp] theorem itemUpdatedOrder_status
    (itemId : Int32) (newStatus : ItemStatus) (order : Order) :
    (itemUpdatedOrder itemId newStatus order).status =
      newOrderStatus (order.setItemStatus itemId newStatus) newStatus := rfl

@[simp] theorem itemUpdatedOrder_items
    (itemId : Int32) (newStatus : ItemStatus) (order : Order) :
    (itemUpdatedOrder itemId newStatus order).items =
      (order.setItemStatus itemId newStatus).items := rfl

theorem length_items_itemUpdatedOrder
    (itemId : Int32)
    (newStatus : ItemStatus)
    (order : Order) :
    (itemUpdatedOrder itemId newStatus order).items.length = order.items.length :=
  length_updateFirst _ _ _

theorem orderIds_itemUpdatedOrder
    (itemId : Int32)
    (newStatus : ItemStatus)
    (order : Order) :
    (itemUpdatedOrder itemId newStatus order).items.map Item.orderId =
      order.items.map Item.orderId := by
  apply map_updateFirst
  intro item
  rfl

/-- What an item update broadcasts. -/
def itemUpdateMessages (orderId itemId : Int32) (newStatus : ItemStatus)
    (order : Order) : List Message :=
  let updated := order.setItemStatus itemId newStatus
  .ofItemStatus .dispItemUpdate orderId itemId newStatus ::
    if newOrderStatus updated newStatus = updated.status then []
    else [.ofOrderStatus .dispOrderUpdate orderId (newOrderStatus updated newStatus)]

theorem mem_itemUpdateMessages
    {msg : Message}
    {orderId itemId : Int32}
    {newStatus : ItemStatus}
    {order : Order}
    (member : msg ∈ itemUpdateMessages orderId itemId newStatus order) :
    msg = .ofItemStatus .dispItemUpdate orderId itemId newStatus ∨
      newOrderStatus (order.setItemStatus itemId newStatus) newStatus ≠
          (order.setItemStatus itemId newStatus).status ∧
        msg = .ofOrderStatus .dispOrderUpdate orderId
          (newOrderStatus (order.setItemStatus itemId newStatus) newStatus) := by
  rw [itemUpdateMessages, List.mem_cons] at member
  rcases member with itemMessage | member
  · exact Or.inl itemMessage
  · split at member
    · cases member
    · exact Or.inr ⟨‹_›, List.mem_singleton.mp member⟩

/-- The server after an item update. -/
def itemUpdated (orderId itemId : Int32) (newStatus : ItemStatus) (order : Order)
    (server : Server) : Server :=
  emit (itemUpdateMessages orderId itemId newStatus order)
    (setOrder orderId (itemUpdatedOrder itemId newStatus order) server)

/-- The server after an order was delivered. -/
def delivered (orderId : Int32) (server : Server) : Server :=
  emit [.ofOrderStatus .dispOrderUpdate orderId .delivered]
    { server with myOrders := server.myOrders.erase orderId }

@[simp] theorem created_myClients (order : Order) (server : Server) :
    (server.created order).myClients = server.myClients := by
  simp [created]

@[simp] theorem created_myOrders (order : Order) (server : Server) :
    (server.created order).myOrders =
      server.myOrders.insert server.nextOrderId
        (assigned server.nextOrderId order) := by
  simp [created]

@[simp] theorem created_nextOrderId (order : Order) (server : Server) :
    (server.created order).nextOrderId = server.nextOrderId + 1 := by
  simp [created]

@[simp] theorem created_broadcasts (order : Order) (server : Server) :
    (server.created order).broadcasts = server.broadcasts ++
      [.ofOrder .dispOrder (some (assigned server.nextOrderId order))] := by
  simp [created]

@[simp] theorem itemUpdated_myClients
    (orderId itemId : Int32) (newStatus : ItemStatus) (order : Order)
    (server : Server) :
    (server.itemUpdated orderId itemId newStatus order).myClients =
      server.myClients := by
  simp [itemUpdated]

@[simp] theorem itemUpdated_myOrders
    (orderId itemId : Int32) (newStatus : ItemStatus) (order : Order)
    (server : Server) :
    (server.itemUpdated orderId itemId newStatus order).myOrders =
      server.myOrders.insert orderId (itemUpdatedOrder itemId newStatus order) := by
  simp [itemUpdated]

@[simp] theorem itemUpdated_nextOrderId
    (orderId itemId : Int32) (newStatus : ItemStatus) (order : Order)
    (server : Server) :
    (server.itemUpdated orderId itemId newStatus order).nextOrderId =
      server.nextOrderId := by
  simp [itemUpdated]

@[simp] theorem itemUpdated_broadcasts
    (orderId itemId : Int32) (newStatus : ItemStatus) (order : Order)
    (server : Server) :
    (server.itemUpdated orderId itemId newStatus order).broadcasts =
      server.broadcasts ++ itemUpdateMessages orderId itemId newStatus order := by
  simp [itemUpdated]

@[simp] theorem created_queues
    (order : Order) (server : Server) (client : ClientPtr) :
    (server.created order).queues client =
      if client ∈ server.myClients then
        server.queues client ++
          [.ofOrder .dispOrder (some (assigned server.nextOrderId order))]
      else server.queues client := by
  rw [created, emit_queues]
  rfl

@[simp] theorem itemUpdated_queues
    (orderId itemId : Int32) (newStatus : ItemStatus) (order : Order)
    (server : Server) (client : ClientPtr) :
    (server.itemUpdated orderId itemId newStatus order).queues client =
      if client ∈ server.myClients then
        server.queues client ++ itemUpdateMessages orderId itemId newStatus order
      else server.queues client := by
  rw [itemUpdated, emit_queues]
  rfl

@[simp] theorem delivered_queues
    (orderId : Int32) (server : Server) (client : ClientPtr) :
    (server.delivered orderId).queues client =
      if client ∈ server.myClients then
        server.queues client ++ [.ofOrderStatus .dispOrderUpdate orderId .delivered]
      else server.queues client := by
  rw [delivered, emit_queues]

@[simp] theorem delivered_myClients (orderId : Int32) (server : Server) :
    (server.delivered orderId).myClients = server.myClients := by
  simp [delivered]

@[simp] theorem delivered_myOrders (orderId : Int32) (server : Server) :
    (server.delivered orderId).myOrders = server.myOrders.erase orderId := by
  simp [delivered]

@[simp] theorem delivered_nextOrderId (orderId : Int32) (server : Server) :
    (server.delivered orderId).nextOrderId = server.nextOrderId := by
  simp [delivered]

@[simp] theorem delivered_broadcasts (orderId : Int32) (server : Server) :
    (server.delivered orderId).broadcasts = server.broadcasts ++
      [.ofOrderStatus .dispOrderUpdate orderId .delivered] := by
  simp [delivered]

theorem createOrder_run
    (order : Order)
    (server : Server) :
    (createOrder order).run server = .ok server.nextOrderId (server.created order) := by
  simp only [createOrder, EStateM.run_bind, EStateM.run_get, EStateM.run_modify,
    EStateM.run_pure, Order.duplicate_eq]
  rfl

/-- `update_item` on an item that is there, with an allowed status. -/
theorem updateItem_run
    {server : Server}
    {orderId itemId : Int32}
    {newStatus : ItemStatus}
    {order : Order}
    {item : Item}
    (stored : server.myOrders.lookup orderId = some order)
    (found : order.findItem itemId = some item)
    (allowed : ItemStep item.status newStatus) :
    (updateItem orderId itemId newStatus).run server =
      .ok () (server.itemUpdated orderId itemId newStatus order) := by
  have allowed' : (item.status = .new ∧ newStatus = .inProgress) ∨
      (item.status = .inProgress ∧ newStatus = .done) := allowed
  simp only [updateItem, EStateM.run_bind, EStateM.run_get, stored, found]
  rw [if_pos allowed']
  simp only [EStateM.run_bind, EStateM.run_modify]
  by_cases same : newOrderStatus (order.setItemStatus itemId newStatus) newStatus =
      (order.setItemStatus itemId newStatus).status
  · rw [if_neg (not_not.mpr same)]
    simp only [itemUpdated, itemUpdateMessages, itemUpdatedOrder, same, if_true]
    rfl
  · rw [if_pos same]
    simp only [EStateM.run_bind, EStateM.run_modify, itemUpdated,
      itemUpdateMessages, itemUpdatedOrder, same, if_false, emit_cons, emit_nil,
      broadcast_setOrder, setOrder_setOrder]

/-- What a `SemanticError` of the server says. -/
def refusals : List String :=
  ["Order with order_id is not found", "Item with item_id is not found",
    "Must enter a new status. Cannot update to item's current status",
    "Status change is invalid", "Order with order_id not found",
    "cannot transition from current status to new_status"]

/-- Otherwise `update_item` throws `SemanticError` and changes nothing. -/
theorem updateItem_run_refusal
    {server : Server}
    {orderId itemId : Int32}
    {newStatus : ItemStatus}
    (refused : ¬ ∃ order item, server.myOrders.lookup orderId = some order ∧
      order.findItem itemId = some item ∧ ItemStep item.status newStatus) :
    ∃ what ∈ refusals, (updateItem orderId itemId newStatus).run server =
      .error (.semanticError what) server := by
  simp only [updateItem, EStateM.run_bind, EStateM.run_get]
  cases stored : server.myOrders.lookup orderId with
  | none => exact ⟨_, by simp [refusals], rfl⟩
  | some order =>
      cases found : order.findItem itemId with
      | none =>
          refine ⟨"Item with item_id is not found", by simp [refusals], ?_⟩
          simp only [found]
          rfl
      | some item =>
          have notAllowed : ¬ ((item.status = .new ∧ newStatus = .inProgress) ∨
              (item.status = .inProgress ∧ newStatus = .done)) := fun allowed =>
            refused ⟨order, item, stored, found, allowed⟩
          simp only [found, notAllowed, if_false]
          split
          · exact ⟨_, by simp [refusals], rfl⟩
          · exact ⟨_, by simp [refusals], rfl⟩

theorem updateItem_run_refused
    {server : Server}
    {orderId itemId : Int32}
    {newStatus : ItemStatus}
    (refused : ¬ ∃ order item, server.myOrders.lookup orderId = some order ∧
      order.findItem itemId = some item ∧ ItemStep item.status newStatus) :
    ∃ what, (updateItem orderId itemId newStatus).run server =
      .error (.semanticError what) server := by
  obtain ⟨what, -, thrown⟩ := updateItem_run_refusal refused
  exact ⟨what, thrown⟩

/-- `update_order` on an order that is done, with the status `DELIVERED`. -/
theorem updateOrder_run
    {server : Server}
    {orderId : Int32}
    {order : Order}
    (stored : server.myOrders.lookup orderId = some order)
    (done : order.status = .done) :
    (updateOrder orderId .delivered).run server =
      .ok () (server.delivered orderId) := by
  simp only [updateOrder, EStateM.run_bind, EStateM.run_get, stored, done,
    ne_eq, not_true_eq_false, or_self, if_false, EStateM.run_modify]
  simp only [delivered, emit_cons, emit_nil, broadcast, setOrder, erase_insert_self]
  rfl

/-- Otherwise `update_order` throws `SemanticError` and changes nothing. -/
theorem updateOrder_run_refusal
    {server : Server}
    {orderId : Int32}
    {newStatus : OrderStatus}
    (refused : ¬ ((∃ order, server.myOrders.lookup orderId = some order ∧
      order.status = .done) ∧ newStatus = .delivered)) :
    ∃ what ∈ refusals, (updateOrder orderId newStatus).run server =
      .error (.semanticError what) server := by
  simp only [updateOrder, EStateM.run_bind, EStateM.run_get]
  cases stored : server.myOrders.lookup orderId with
  | none => exact ⟨_, by simp [refusals], rfl⟩
  | some order =>
      have notAllowed : order.status ≠ .done ∨ newStatus ≠ .delivered := by
        by_contra allowed
        simp only [ne_eq, not_or, not_not] at allowed
        exact refused ⟨⟨order, stored, allowed.1⟩, allowed.2⟩
      simp only [notAllowed, if_true]
      exact ⟨_, by simp [refusals], rfl⟩

theorem updateOrder_run_refused
    {server : Server}
    {orderId : Int32}
    {newStatus : OrderStatus}
    (refused : ¬ ((∃ order, server.myOrders.lookup orderId = some order ∧
      order.status = .done) ∧ newStatus = .delivered)) :
    ∃ what, (updateOrder orderId newStatus).run server =
      .error (.semanticError what) server := by
  obtain ⟨what, -, thrown⟩ := updateOrder_run_refusal refused
  exact ⟨what, thrown⟩

/-! ## Operations -/

/-- The calls the updater sessions make. -/
inductive Operation
  | createOrder (order : Order)
  | updateItem (orderId itemId : Int32) (newStatus : ItemStatus)
  | updateOrder (orderId : Int32) (newStatus : OrderStatus)

/-- The code of a call. Only `create_order` returns something. -/
def Operation.code : Operation → Code Server (Option Int32)
  | .createOrder order => do
      let orderId ← Server.createOrder order
      return some orderId
  | .updateItem orderId itemId newStatus => do
      Server.updateItem orderId itemId newStatus
      return none
  | .updateOrder orderId newStatus => do
      Server.updateOrder orderId newStatus
      return none

/-- The server after a call, whether it returned or threw. -/
def perform (server : Server) (operation : Operation) : Server :=
  match operation.code.run server with
  | .ok _ final => final
  | .error _ final => final

/-- The server after a sequence of calls. -/
def performAll (server : Server) (operations : List Operation) : Server :=
  replay perform server operations

@[simp] theorem performAll_nil (server : Server) :
    performAll server [] = server := rfl

@[simp] theorem performAll_concat
    (server : Server)
    (operations : List Operation)
    (operation : Operation) :
    performAll server (operations ++ [operation]) =
      perform (performAll server operations) operation := by
  simp only [performAll, replay_append, replay_cons, replay_nil]

/-- Whether a call creates an order. -/
def Operation.creates : Operation → Bool
  | .createOrder _ => true
  | _ => false

/-- The number of calls that create an order. -/
def creations (operations : List Operation) : Nat :=
  operations.countP Operation.creates

@[simp] theorem creations_concat
    (operations : List Operation)
    (operation : Operation) :
    creations (operations ++ [operation]) =
      creations operations + if operation.creates then 1 else 0 := by
  simp [creations, List.countP_singleton]

/-- What a call changes. -/
inductive Change : Operation → Server → Server → Prop
  | refused (operation : Operation) (server : Server) :
      Change operation server server
  | created (order : Order) (server : Server) :
      Change (.createOrder order) server (server.created order)
  | itemUpdated (orderId itemId : Int32) (newStatus : ItemStatus)
      (order : Order) (item : Item) (server : Server)
      (stored : server.myOrders.lookup orderId = some order)
      (found : order.findItem itemId = some item)
      (allowed : ItemStep item.status newStatus) :
      Change (.updateItem orderId itemId newStatus) server
        (server.itemUpdated orderId itemId newStatus order)
  | delivered (orderId : Int32) (order : Order) (server : Server)
      (stored : server.myOrders.lookup orderId = some order)
      (done : order.status = .done) :
      Change (.updateOrder orderId .delivered) server (server.delivered orderId)

/-- The call creates, updates or delivers the order under this id. -/
def Operation.Touches (server : Server) (orderId : Int32) : Operation → Prop
  | .createOrder _ => orderId = server.nextOrderId
  | .updateItem updatedId itemId newStatus =>
      orderId = updatedId ∧ ∃ order item,
        server.myOrders.lookup orderId = some order ∧
          order.findItem itemId = some item ∧ ItemStep item.status newStatus
  | .updateOrder updatedId newStatus =>
      orderId = updatedId ∧ (∃ order, server.myOrders.lookup orderId = some order ∧
        order.status = .done) ∧ newStatus = .delivered

@[simp] theorem perform_createOrder
    (order : Order)
    (server : Server) :
    perform server (.createOrder order) = server.created order := by
  simp only [perform, Operation.code, EStateM.run_bind, createOrder_run,
    EStateM.run_pure]

theorem perform_updateItem
    {server : Server}
    {orderId itemId : Int32}
    {newStatus : ItemStatus}
    {order : Order}
    {item : Item}
    (stored : server.myOrders.lookup orderId = some order)
    (found : order.findItem itemId = some item)
    (allowed : ItemStep item.status newStatus) :
    perform server (.updateItem orderId itemId newStatus) =
      server.itemUpdated orderId itemId newStatus order := by
  simp only [perform, Operation.code, EStateM.run_bind,
    updateItem_run stored found allowed, EStateM.run_pure]

theorem perform_updateItem_refused
    {server : Server}
    {orderId itemId : Int32}
    {newStatus : ItemStatus}
    (refused : ¬ ∃ order item, server.myOrders.lookup orderId = some order ∧
      order.findItem itemId = some item ∧ ItemStep item.status newStatus) :
    perform server (.updateItem orderId itemId newStatus) = server := by
  obtain ⟨what, thrown⟩ := updateItem_run_refused refused
  simp only [perform, Operation.code, EStateM.run_bind, thrown]

theorem perform_updateOrder
    {server : Server}
    {orderId : Int32}
    {order : Order}
    (stored : server.myOrders.lookup orderId = some order)
    (done : order.status = .done) :
    perform server (.updateOrder orderId .delivered) = server.delivered orderId := by
  simp only [perform, Operation.code, EStateM.run_bind, updateOrder_run stored done,
    EStateM.run_pure]

theorem perform_updateOrder_refused
    {server : Server}
    {orderId : Int32}
    {newStatus : OrderStatus}
    (refused : ¬ ((∃ order, server.myOrders.lookup orderId = some order ∧
      order.status = .done) ∧ newStatus = .delivered)) :
    perform server (.updateOrder orderId newStatus) = server := by
  obtain ⟨what, thrown⟩ := updateOrder_run_refused refused
  simp only [perform, Operation.code, EStateM.run_bind, thrown]

/-- Every call is refused or makes one of the three changes. -/
theorem change_perform
    (server : Server)
    (operation : Operation) :
    Change operation server (perform server operation) := by
  cases operation with
  | createOrder order =>
      rw [perform_createOrder]
      exact .created order server
  | updateItem orderId itemId newStatus =>
      by_cases allowed : ∃ order item, server.myOrders.lookup orderId = some order ∧
          order.findItem itemId = some item ∧ ItemStep item.status newStatus
      · obtain ⟨order, item, stored, found, step⟩ := allowed
        rw [perform_updateItem stored found step]
        exact .itemUpdated orderId itemId newStatus order item server stored found step
      · rw [perform_updateItem_refused allowed]
        exact .refused _ server
  | updateOrder orderId newStatus =>
      by_cases allowed : (∃ order, server.myOrders.lookup orderId = some order ∧
          order.status = .done) ∧ newStatus = .delivered
      · obtain ⟨⟨order, stored, done⟩, rfl⟩ := allowed
        rw [perform_updateOrder stored done]
        exact .delivered orderId order server stored done
      · rw [perform_updateOrder_refused allowed]
        exact .refused _ server

/-! ## Order ids -/

theorem nextOrderId_of_change
    {operation : Operation}
    {server final : Server}
    (change : Change operation server final)
    (creates : operation.creates = false) :
    final.nextOrderId = server.nextOrderId := by
  cases change with
  | refused => rfl
  | created order => cases creates
  | itemUpdated => simp
  | delivered => simp

/-- Ids are given out one after the other. -/
theorem nextOrderId_performAll_eq
    (server : Server)
    (operations : List Operation) :
    (performAll server operations).nextOrderId =
      Int32.ofInt (server.nextOrderId.toInt + creations operations) := by
  induction operations using List.reverseRecOn with
  | nil => simp [creations]
  | append_singleton operations operation inductionHypothesis =>
      rw [creations_concat, performAll_concat]
      cases creates : operation.creates with
      | false =>
          rw [nextOrderId_of_change (change_perform _ operation) creates,
            inductionHypothesis]
          simp
      | true =>
          cases operation with
          | createOrder order =>
              have one : (1 : Int32) = Int32.ofInt 1 := rfl
              rw [perform_createOrder, created_nextOrderId, inductionHypothesis,
                one, ← Int32.ofInt_add, if_pos rfl, Nat.cast_add, Nat.cast_one,
                Int.add_assoc]
          | updateItem => cases creates
          | updateOrder => cases creates

theorem nextOrderId_performAll
    (operations : List Operation) :
    (performAll initial operations).nextOrderId =
      Int32.ofInt (1000 + creations operations) :=
  nextOrderId_performAll_eq initial operations

/-- While few orders are created, no id is given out twice. -/
theorem toInt_nextOrderId_performAll
    {operations : List Operation}
    (few : creations operations < 2 ^ 31 - 1000) :
    (performAll initial operations).nextOrderId.toInt =
      1000 + creations operations := by
  rw [nextOrderId_performAll, Int32.toInt_ofInt_of_le (by omega) (by omega)]

theorem toInt_add_one
    {number : Int32}
    (below : number.toInt + 1 < 2 ^ 31) :
    (number + 1).toInt = number.toInt + 1 := by
  have above := number.le_toInt
  rw [Int32.toInt_add, Int32.toInt_one]
  exact Int.bmod_eq_of_le (by omega) (by omega)

theorem toInt_succ
    {number : Int32}
    (room : number < number + 1) :
    (number + 1).toInt = number.toInt + 1 := by
  apply toInt_add_one
  by_contra top
  have below := number.toInt_lt
  have wrapped : number.toInt + 1 = 2 ^ 31 := by omega
  rw [Int32.lt_iff_toInt_lt, Int32.toInt_add, Int32.toInt_one, wrapped] at room
  exact absurd room (by rw [← Int.sub_eq_iff_eq_add.mpr wrapped.symm]; decide)

theorem nextOrderId_lt_succ
    {operations : List Operation}
    (few : creations operations + 1 < 2 ^ 31 - 1000) :
    (performAll initial operations).nextOrderId <
      (performAll initial operations).nextOrderId + 1 := by
  have one : (1 : Int32) = Int32.ofInt 1 := rfl
  rw [nextOrderId_performAll, Int32.lt_iff_toInt_lt, one, ← Int32.ofInt_add,
    Int32.toInt_ofInt_of_le (by omega) (by omega),
    Int32.toInt_ofInt_of_le (by omega) (by omega)]
  omega

end Server
end OrderTracking
