import OrderTracking.Library.Agreement
import OrderTracking.Objects.Models

/-!
# The operations on objects

Every operation on objects returns, throws and does what the operation by value does with
the values its pointers point to, and leaves every message, and every copy for a display,
as it is.
-/

namespace OrderTracking
namespace ObjectServer

variable {server : ObjectServer} {byValue : Server} {clients : List ClientPtr}

/-! ## Announcing -/

theorem run_make
    (create : Objects → Nat × Objects)
    (server : ObjectServer) :
    (make create).run server =
      .ok (create server.objects).1 { server with objects := (create server.objects).2 } := rfl

/-- Broadcast a new message without an order. -/
def announce (clients : List ClientPtr) (msg : Message) (server : ObjectServer) :
    ObjectServer :=
  broadcast clients server.objects.messages.next
    { server with objects := (server.objects.makeMessage (.of msg none)).2 }

/-- Broadcast a new message with a duplicate of an order. -/
def announceOrder (clients : List ClientPtr) (order : OrderPtr) (server : ObjectServer) :
    ObjectServer :=
  broadcast clients server.objects.messages.next
    { server with
      objects := ((server.objects.duplicateOrder order).2.makeMessage
        (.of (.ofType .dispOrder) (some server.objects.nextOrder))).2 }

theorem Models.announceNew
    (models : Models server byValue)
    (lists : Lists clients byValue.myClients)
    {msg : Message}
    (orderless : msg.order = none) :
    Follows server (ObjectServer.announce clients msg server) (Server.broadcast msg byValue) := by
  have adds : Objects.Adds server.objects (server.objects.makeMessage (.of msg none)).2 :=
    models.separate.adds.makeMessage fun order points => by cases points
  obtain ⟨made, keeps⟩ := models.adds adds
  have value := Objects.message_makeMessage (.of msg none) server.objects
  exact keeps.follows (made.broadcast lists (Nat.lt_succ_self _)
    (value.trans (congrArg (fun order => { msg with order := order }) orderless.symm)))

theorem Models.announceOrder
    (models : Models server byValue)
    (lists : Lists clients byValue.myClients)
    {order : OrderPtr}
    (old : order < server.objects.nextOrder) :
    Follows server (ObjectServer.announceOrder clients order server)
      (Server.broadcast (.ofOrder .dispOrder (some (server.objects.order order)))
        byValue) := by
  have creates := Objects.creates_duplicateOrder old
  have adds : Objects.Adds server.objects
      ((server.objects.duplicateOrder order).2.makeMessage
        (.of (.ofType .dispOrder) (some server.objects.nextOrder))).2 := by
    refine (creates.adds models.separate).makeMessage fun copy isCopy => ?_
    cases isCopy
    exact ⟨le_refl _, creates.nextOrder ▸ Nat.lt_succ_self _⟩
  obtain ⟨made, keeps⟩ := models.adds adds
  refine keeps.follows (made.broadcast lists (Nat.lt_succ_self _) ?_)
  refine (Objects.message_makeMessage _ (server.objects.duplicateOrder order).2).trans ?_
  rw [← creates.value]
  rfl

theorem lookup_broadcast
    {message : MessagePtr}
    {orderId : Int32}
    {order : OrderPtr}
    (stored : server.myOrders.lookup orderId = some order) :
    (ObjectServer.broadcast clients message server).myOrders.lookup orderId = some order := by
  change (clients.foldl (fun server client => ObjectServer.enqueueCopy message client server)
    server).myOrders.lookup orderId = some order
  induction clients generalizing server with
  | nil => exact stored
  | cons client clients inductionHypothesis => exact inductionHypothesis stored

/-! ## Creating orders -/

/-- The order gets its id, and its items theirs. -/
theorem Models.assign
    (models : Models server byValue)
    {order : OrderPtr}
    (loose : Loose order server)
    (orderId : Int32) :
    Follows server (modifyMemory (Memory.setItemOrderIds order orderId)
        (modifyMemory (Memory.setId order orderId) server)) byValue ∧
      Loose order (modifyMemory (Memory.setItemOrderIds order orderId)
        (modifyMemory (Memory.setId order orderId) server)) ∧
      (modifyMemory (Memory.setItemOrderIds order orderId)
        (modifyMemory (Memory.setId order orderId) server)).objects.order order =
          ((server.objects.order order).setId orderId).setItemOrderIds orderId := by
  obtain ⟨⟨withId, keeps⟩, looseId⟩ := @Models.changeLoose _ _ _ (Memory.setId order orderId)
    models loose (Memory.changes_setOrder order _ rfl)
  obtain ⟨withIds, looseIds⟩ := @Models.changeLoose _ _ _
    (Memory.setItemOrderIds order orderId) withId looseId
    (Memory.changes_changeItems (fun _ member => List.mem_of_mem_take member) _)
  refine ⟨keeps.follows withIds, looseIds, ?_⟩
  refine (Memory.value_setItemOrderIds (withId.separate.distinct order looseId.old) _).trans ?_
  exact congrArg (Order.setItemOrderIds orderId) (Memory.value_setId order orderId _)

theorem Models.createOrder
    (models : Models server byValue)
    (lists : Lists clients byValue.myClients)
    {order : OrderPtr}
    (loose : Loose order server) :
    Agree (Follows server) ((ObjectServer.createOrder clients order).run server)
      ((Server.createOrder (server.objects.order order)).run byValue) := by
  have counted : Follows server { server with nextOrderId := server.nextOrderId + 1 }
      { byValue with nextOrderId := server.nextOrderId + 1 } :=
    ⟨{ models with nextOrderId := rfl }, .of_objects rfl rfl⟩
  have looseCounted : Loose order { server with nextOrderId := server.nextOrderId + 1 } :=
    ⟨loose.old, loose.unstored, loose.unshared, loose.uncopied⟩
  obtain ⟨withIds, looseIds, isAssigned⟩ :=
    counted.models.assign looseCounted server.nextOrderId
  have stored := withIds.models.store looseIds server.nextOrderId
  rw [isAssigned] at stored
  have sent := stored.models.announceOrder lists looseIds.old
  rw [show _ = _ from isAssigned] at sent
  simp only [ObjectServer.createOrder, Server.createOrder, EStateM.run_bind, EStateM.run_get,
    EStateM.run_modify, EStateM.run_pure, run_make, Order.duplicate_eq, models.nextOrderId]
  exact .returned _ _ _ (counted.keeps.follows (withIds.keeps.follows
    (stored.keeps.follows sent)))

/-- `add_order` of a duplicate of an order. -/
theorem Models.addOrder
    (models : Models server byValue)
    (lists : Lists clients byValue.myClients)
    {order : OrderPtr}
    (old : order < server.objects.nextOrder) :
    Agree (Follows server) ((ObjectServer.addOrder clients order).run server)
      ((Server.createOrder (server.objects.order order)).run byValue) := by
  have creates := Objects.creates_duplicateOrder old
  obtain ⟨made, keeps⟩ := models.adds (creates.adds models.separate)
  have created := made.createOrder lists (models.loose creates)
  rw [creates.value] at created
  exact created.mono fun _ _ follows => keeps.follows follows

/-! ## Updates -/

/-- An item of a stored order gets a new status, which is broadcast. -/
theorem Models.announceItem
    (models : Models server byValue)
    (lists : Lists clients byValue.myClients)
    {orderId itemId : Int32}
    {order : OrderPtr}
    (stored : server.myOrders.lookup orderId = some order)
    {item : ItemPtr}
    (found : server.objects.memory.findItem order itemId = some item)
    (status : ItemStatus) :
    Follows server
      (ObjectServer.announce clients (.ofItemStatus .dispItemUpdate orderId itemId status)
        (modifyMemory (Memory.changeItem item (Item.setStatus status)) server))
      (Server.broadcast (.ofItemStatus .dispItemUpdate orderId itemId status)
        (Server.setOrder orderId
          ((server.objects.order order).setItemStatus itemId status) byValue)) := by
  obtain ⟨changed, keeps⟩ := @Models.changeStored _ _ _
    (Memory.changeItem item (Item.setStatus status)) models _ stored
    (Memory.changes_changeItem (List.mem_of_find?_eq_some found) _)
  rw [Memory.value_changeItem
    (models.separate.distinct order (models.stored orderId order stored)) found] at changed
  exact keeps.follows (changed.announceNew lists rfl)

/-- A stored order gets a new status, which is broadcast. -/
theorem Models.announceStatus
    (models : Models server byValue)
    (lists : Lists clients byValue.myClients)
    {orderId : Int32}
    {order : OrderPtr}
    (stored : server.myOrders.lookup orderId = some order)
    (status : OrderStatus) :
    Follows server (ObjectServer.announce clients (.ofOrderStatus .dispOrderUpdate orderId status)
        (modifyMemory (Memory.setStatus order status) server))
      (Server.broadcast (.ofOrderStatus .dispOrderUpdate orderId status)
        (Server.setOrder orderId ((server.objects.order order).setStatus status)
          byValue)) := by
  obtain ⟨changed, keeps⟩ := @Models.changeStored _ _ _ (Memory.setStatus order status)
    models _ stored (Memory.changes_setOrder order _ rfl)
  rw [Memory.value_setStatus] at changed
  exact keeps.follows (changed.announceNew lists rfl)

/-- The end of `update_item`. -/
theorem Models.updateStatus
    (models : Models server byValue)
    (lists : Lists clients byValue.myClients)
    {orderId : Int32}
    {order : OrderPtr}
    (stored : server.myOrders.lookup orderId = some order)
    {value : Order}
    (isValue : byValue.myOrders.lookup orderId = some value)
    (newStatus : ItemStatus) :
    Agree (Follows server)
      ((do
        let currentStatus := ((← get).objects.memory.orders order).status
        let newOrderStatus := (← get).objects.memory.newOrderStatus order newStatus
        if newOrderStatus ≠ currentStatus then do
          modify (modifyMemory (Memory.setStatus order newOrderStatus))
          let message ← make (Objects.makeMessage
            (.of (.ofOrderStatus .dispOrderUpdate orderId newOrderStatus) none))
          modify (ObjectServer.broadcast clients message)
        else pure () : Code ObjectServer Unit).run server)
      ((do
        let currentStatus := value.status
        let newOrderStatus := Server.newOrderStatus value newStatus
        if newOrderStatus ≠ currentStatus then do
          modify (Server.setOrder orderId (value.setStatus newOrderStatus))
          modify (Server.broadcast (.ofOrderStatus .dispOrderUpdate orderId newOrderStatus))
        else pure () : Code Server Unit).run byValue) := by
  obtain rfl : server.objects.order order = value := by
    rw [models.myOrders, stored] at isValue
    exact Option.some.inj isValue
  have status : (server.objects.order order).status =
      (server.objects.memory.orders order).status := rfl
  have newOrderStatus : Server.newOrderStatus (server.objects.order order) newStatus =
      server.objects.memory.newOrderStatus order newStatus := Memory.newOrderStatus_value ..
  simp only [EStateM.run_bind, EStateM.run_get, status, newOrderStatus]
  split
  · exact .returned _ _ _ (models.announceStatus lists stored _)
  · exact .returned _ _ _ models.follows

theorem Models.updateItem
    (models : Models server byValue)
    (lists : Lists clients byValue.myClients)
    (orderId itemId : Int32)
    (newStatus : ItemStatus) :
    Agree (Follows server)
      ((ObjectServer.updateItem clients orderId itemId newStatus).run server)
      ((Server.updateItem orderId itemId newStatus).run byValue) := by
  unfold ObjectServer.updateItem Server.updateItem
  cases stored : server.myOrders.lookup orderId with
  | none =>
      simp only [EStateM.run_bind, EStateM.run_get, models.myOrders, stored, Option.map_none,
        EStateM.run_throw]
      exact .threw _ _ _ models.follows
  | some order =>
      have isItem : (server.objects.order order).findItem itemId =
          (server.objects.memory.findItem order itemId).map server.objects.memory.heap.cells :=
        Memory.findItem_value ..
      simp only [EStateM.run_bind, EStateM.run_get, models.myOrders, stored, Option.map_some,
        isItem]
      cases found : server.objects.memory.findItem order itemId with
      | none => exact .threw _ _ _ models.follows
      | some item =>
          simp only [EStateM.run_bind, EStateM.run_get, Option.map_some]
          split
          · obtain ⟨sent, keeps⟩ := models.announceItem lists stored found newStatus
            have rest := sent.updateStatus lists (lookup_broadcast stored)
              (Finmap.lookup_insert byValue.myOrders) newStatus
            exact rest.mono fun _ _ follows => keeps.follows follows
          · split
            · exact .threw _ _ _ models.follows
            · exact .threw _ _ _ models.follows

theorem Models.updateOrder
    (models : Models server byValue)
    (lists : Lists clients byValue.myClients)
    (orderId : Int32)
    (newStatus : OrderStatus) :
    Agree (Follows server) ((ObjectServer.updateOrder clients orderId newStatus).run server)
      ((Server.updateOrder orderId newStatus).run byValue) := by
  unfold ObjectServer.updateOrder Server.updateOrder
  cases stored : server.myOrders.lookup orderId with
  | none =>
      simp only [EStateM.run_bind, EStateM.run_get, models.myOrders, stored, Option.map_none,
        EStateM.run_throw]
      exact .threw _ _ _ models.follows
  | some order =>
      have status : (server.objects.order order).status =
          (server.objects.memory.orders order).status := rfl
      simp only [EStateM.run_bind, EStateM.run_get, models.myOrders, stored, Option.map_some,
        status]
      split
      · exact .threw _ _ _ models.follows
      · obtain ⟨sent, keeps⟩ := models.announceStatus lists stored newStatus
        exact .returned _ _ _ (keeps.follows (sent.erase orderId))

/-! ## Displays -/

theorem Models.addClient
    (models : Models server byValue)
    (client : ClientPtr) :
    Agree (Follows server) ((ObjectServer.addClient client).run server)
      ((Server.addClient client).run byValue) :=
  .returned _ _ _ ⟨{ models with
    myClients := congrArg (insert client) models.myClients }, .of_objects rfl rfl⟩

theorem Models.removeClient
    (models : Models server byValue)
    (client : ClientPtr) :
    Agree (Follows server) ((ObjectServer.removeClient client).run server)
      ((Server.removeClient client).run byValue) :=
  .returned _ _ _ ⟨{ models with
    myClients := congrArg (Finset.erase · client) models.myClients }, .of_objects rfl rfl⟩

/-- The message taken from a queue is the one by value. -/
theorem Models.dequeued
    (models : Models server byValue)
    {client : ClientPtr}
    {message : MessagePtr}
    {final : ObjectServer}
    (ran : (ObjectServer.dequeue client).run server = .ok (some message) final) :
    message < server.objects.messages.next ∧
      ∃ finalByValue,
        (Server.dequeue client).run byValue =
            .ok (some (server.objects.message message)) finalByValue ∧
          Follows server final finalByValue := by
  cases queue : server.queues client with
  | nil =>
      simp only [ObjectServer.dequeue, EStateM.run_bind, EStateM.run_get, queue] at ran
      cases ran
  | cons first rest =>
      obtain ⟨isOld, old⟩ := List.forall_mem_cons.mp (queue ▸ models.queued client)
      simp only [ObjectServer.dequeue, EStateM.run_bind, EStateM.run_get, queue] at ran
      cases ran
      refine ⟨isOld, _, ?_, models.setQueue client old⟩
      simp only [Server.dequeue, EStateM.run_bind, EStateM.run_get, models.queues, queue,
        List.map_cons]
      rfl

theorem Models.exists_dequeued
    (models : Models server byValue)
    {client : ClientPtr}
    {msg : Message}
    {finalByValue : Server}
    (ran : (Server.dequeue client).run byValue = .ok (some msg) finalByValue) :
    ∃ message final,
      (ObjectServer.dequeue client).run server = .ok (some message) final := by
  cases queue : server.queues client with
  | nil =>
      simp only [Server.dequeue, EStateM.run_bind, EStateM.run_get, models.queues, queue,
        List.map_nil] at ran
      cases ran
  | cons message rest =>
      refine ⟨message, { server with
        queues := Function.update server.queues client rest }, ?_⟩
      simp only [ObjectServer.dequeue, EStateM.run_bind, EStateM.run_get, queue]
      rfl

/-- What a loop over the stored orders meets is by value what is stored. -/
theorem Models.isSnapshot_iff
    (models : Models server byValue)
    (orders : List Order) :
    Server.IsSnapshot orders byValue ↔
      ∃ stored, ListsOrders stored server ∧ stored.map server.objects.order = orders := by
  have entries := map_entries_of_lookup models.myOrders
  simp only [Server.IsSnapshot, Order.duplicate_eq, entries, ListsOrders]
  constructor
  · intro same
    obtain ⟨pointers, isPointers⟩ :=
      Quot.exists_rep (server.myOrders.entries.map fun entry => entry.2)
    have permuted : orders.Perm (pointers.map server.objects.order) := by
      rw [← Multiset.coe_eq_coe, same, ← Multiset.map_coe]
      refine Eq.trans ?_ (congrArg (Multiset.map server.objects.order) isPointers.symm)
      rw [Multiset.map_map]
      rfl
    have values : List.Forall₂ (fun order pointer => server.objects.order pointer = order)
        (pointers.map server.objects.order) pointers := by
      rw [List.forall₂_map_left_iff, List.forall₂_same]
      exact fun _ _ => rfl
    obtain ⟨stored, isStored, reordered⟩ := List.perm_comp_forall₂ permuted values
    refine ⟨stored, (Multiset.coe_eq_coe.mpr reordered).trans isPointers, ?_⟩
    rw [← List.forall₂_eq_eq_eq, List.forall₂_map_left_iff]
    exact isStored.flip
  · rintro ⟨stored, lists, rfl⟩
    rw [← Multiset.map_coe, lists, Multiset.map_map]
    rfl

/-- The copies for a display are by value what they are copies of. -/
theorem Models.snapshot
    (models : Models server byValue)
    {orders copies : List OrderPtr}
    (lists : ListsOrders orders server)
    {final : ObjectServer}
    (ran : (ObjectServer.snapshot orders).run server = .ok copies final) :
    Follows server final byValue ∧ (∀ copy ∈ copies, copy ∈ final.copies) ∧
      copies.map final.objects.order = orders.map server.objects.order := by
  cases ran
  have old : ∀ order ∈ orders, order < server.objects.nextOrder := by
    intro order member
    rw [ListsOrders] at lists
    have isStored : order ∈ server.myOrders.entries.map fun entry => entry.2 :=
      lists ▸ Multiset.mem_coe.mpr member
    obtain ⟨entry, isEntry, rfl⟩ := Multiset.mem_map.mp isStored
    exact models.stored entry.1 entry.2 (Finmap.lookup_eq_some_iff.mpr isEntry)
  obtain ⟨adds, isNew, values⟩ := Objects.duplicateOrders_spec models.separate old
  obtain ⟨made, keeps⟩ := models.adds adds
  refine ⟨⟨{ made with copied := ?_ }, keeps.messages, ?_⟩, ?_, values⟩
  · intro copy member
    rcases List.mem_append.mp member with earlier | new
    · exact made.copied copy earlier
    · refine ⟨(isNew copy new).2, fun orderId stored => ?_⟩
      exact absurd (models.stored orderId copy stored) (not_lt.mpr (isNew copy new).1)
  · exact fun copy member => ⟨List.mem_append_left _ (keeps.copies copy member).1,
      (keeps.copies copy member).2⟩
  · exact fun copy member => List.mem_append_right _ member

end ObjectServer
end OrderTracking
