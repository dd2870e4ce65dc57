import OrderTracking.Display.Replica
import OrderTracking.Server.Life
import OrderTracking.Wire.RoundTrip

/-!
# What the server emits can be decoded

While every order that is created satisfies what the decoder checks, every stored
order does, and so every message that is broadcast, queued or copied for a snapshot
is encoded without an exception and decoded to an equal message.
-/

namespace OrderTracking

/-! ## Messages that come back -/

/-- The message is encoded without an exception, and the encoding is decoded to the
message. -/
def Decodable (msg : Message) : Prop :=
  ∀ out before, Wire.RoundTrips out before msg

theorem decodable_heartbeat : Decodable (.ofType .dispHeartbeat) := by
  intro out before
  rw [Wire.roundTrips_iff .heartbeat]
  exact ⟨trivial, fun order given => by cases given⟩

theorem decodable_text
    {type : MessageType}
    (kind : Message.IsText type)
    {str : Bytes}
    (plain : Wire.Lacks [Wire.pipe] str) :
    Decodable (.ofStr type str) := by
  intro out before
  rw [Wire.roundTrips_iff (.text type kind str)]
  refine ⟨?_, fun order given => by cases given⟩
  rcases kind with rfl | rfl | rfl <;> exact plain

theorem decodable_order
    {order : Order}
    (wellFormed : Wire.WellFormedOrder order)
    (countable : order.items.length < 2 ^ 31) :
    Decodable (.ofOrder .dispOrder (some order)) := by
  intro out before
  rw [Wire.roundTrips_iff (.order .dispOrder (by decide) _)]
  refine ⟨⟨order, rfl, wellFormed⟩, ?_⟩
  intro other given
  cases given
  exact countable

theorem decodable_itemUpdate
    {orderId itemId : Int32}
    {status : ItemStatus}
    (positive : 1 ≤ orderId)
    (itemPositive : 1 ≤ itemId)
    (valid : status ≠ .invalid) :
    Decodable (.ofItemStatus .dispItemUpdate orderId itemId status) := by
  intro out before
  rw [Wire.roundTrips_iff (.itemUpdate .dispItemUpdate (by decide) orderId itemId status)]
  exact ⟨⟨positive, itemPositive, valid⟩, fun order given => by cases given⟩

theorem decodable_orderUpdate
    {orderId : Int32}
    {status : OrderStatus}
    (positive : 1 ≤ orderId)
    (valid : status ≠ .invalid) :
    Decodable (.ofOrderStatus .dispOrderUpdate orderId status) := by
  intro out before
  rw [Wire.roundTrips_iff (.orderUpdate .dispOrderUpdate (by decide) orderId status)]
  exact ⟨⟨positive, valid⟩, fun order given => by cases given⟩

namespace Server

/-! ## Stored orders -/

/-- An order that is stored under an id and can be shown. -/
structure Showable (orderId : Int32) (order : Order) : Prop where
  id : order.id = orderId
  wellFormed : Wire.WellFormedOrder order
  countable : order.items.length < 2 ^ 31

theorem showable_assigned
    {order : Order}
    (wellFormed : Wire.WellFormedOrder order)
    (countable : order.items.length < 2 ^ 31)
    {orderId : Int32}
    (positive : 1 ≤ orderId) :
    Showable orderId (assigned orderId order) := by
  have items := assigned_items countable orderId
  refine ⟨rfl, ⟨?_, positive, wellFormed.status, ?_⟩, ?_⟩
  · rw [items]
    simpa using wellFormed.nonempty
  · rw [items]
    intro item member
    obtain ⟨old, isItem, rfl⟩ := List.mem_map.mp member
    have checked := wellFormed.items old isItem
    exact ⟨positive, checked.id, checked.status, checked.desc, checked.qty⟩
  · rwa [items, List.length_map]

theorem newOrderStatus_ne_invalid
    {order : Order}
    (valid : order.status ≠ .invalid)
    (newStatus : ItemStatus) :
    newOrderStatus order newStatus ≠ .invalid := by
  rcases newOrderStatus_cases order newStatus with same | ⟨-, inProgress | done⟩
  · rwa [same]
  · simp [inProgress]
  · simp [done]

/-- An allowed new status is a valid one. -/
theorem ItemStep.valid
    {cur newStatus : ItemStatus}
    (allowed : ItemStep cur newStatus) : newStatus ≠ .invalid := by
  rcases allowed with ⟨-, rfl⟩ | ⟨-, rfl⟩ <;> decide

theorem showable_itemUpdatedOrder
    {orderId itemId : Int32}
    {order : Order}
    {newStatus : ItemStatus}
    (showable : Showable orderId order)
    (valid : newStatus ≠ .invalid) :
    Showable orderId (itemUpdatedOrder itemId newStatus order) := by
  have length := length_items_itemUpdatedOrder itemId newStatus order
  have wellFormed := showable.wellFormed
  refine ⟨showable.id, ⟨?_, wellFormed.id, ?_, ?_⟩, ?_⟩
  · rw [← List.length_pos_iff, length, List.length_pos_iff]
    exact wellFormed.nonempty
  · rw [itemUpdatedOrder_status]
    have kept : (order.setItemStatus itemId newStatus).status ≠ .invalid := wellFormed.status
    exact newOrderStatus_ne_invalid kept newStatus
  · intro item member
    rcases mem_of_mem_updateFirst member with isOld | ⟨old, isOld, rfl⟩
    · exact wellFormed.items item isOld
    · have checked := wellFormed.items old isOld
      exact ⟨checked.orderId, checked.id, valid, checked.desc, checked.qty⟩
  · rw [length]
    exact showable.countable

/-! ## The invariant -/

/-- The number of orders that were created. -/
def ordersCreated (server : Server) : Nat :=
  server.broadcasts.countP (·.type = .dispOrder)

theorem ordersCreated_emit
    (messages : List Message)
    (server : Server) :
    (emit messages server).ordersCreated =
      server.ordersCreated + messages.countP (·.type = .dispOrder) := by
  rw [ordersCreated, emit_broadcasts, List.countP_append, ordersCreated]

theorem ordersCreated_created
    (order : Order)
    (server : Server) :
    (server.created order).ordersCreated = server.ordersCreated + 1 := by
  rw [created, ordersCreated_emit]
  rfl

theorem ordersCreated_itemUpdated
    (orderId itemId : Int32)
    (newStatus : ItemStatus)
    (order : Order)
    (server : Server) :
    (server.itemUpdated orderId itemId newStatus order).ordersCreated =
      server.ordersCreated := by
  have noOrder : (itemUpdateMessages orderId itemId newStatus order).countP
      (·.type = .dispOrder) = 0 := by
    rw [itemUpdateMessages]
    split <;> rfl
  rw [itemUpdated, ordersCreated_emit, noOrder]
  rfl

theorem ordersCreated_delivered
    (orderId : Int32)
    (server : Server) :
    (server.delivered orderId).ordersCreated = server.ordersCreated := by
  rw [delivered, ordersCreated_emit]
  rfl

/-- Ids count the orders, every stored order can be shown, and what was broadcast or
is queued can be decoded. -/
structure Emitting (server : Server) : Prop where
  counted : server.nextOrderId.toInt = 1000 + server.ordersCreated
  orders : ∀ orderId order, server.myOrders.lookup orderId = some order →
    Showable orderId order
  broadcasts : ∀ msg ∈ server.broadcasts, Decodable msg
  queues : ∀ client, ∀ msg ∈ server.queues client, Decodable msg

/-- Taking messages from the queues leaves decodable ones. -/
theorem Emitting.of_suffix
    {server final : Server}
    (emitting : Emitting server)
    (orders : final.myOrders = server.myOrders)
    (next : final.nextOrderId = server.nextOrderId)
    (broadcasts : final.broadcasts = server.broadcasts)
    (queues : ∀ client, final.queues client <:+ server.queues client) :
    Emitting final where
  counted := by
    rw [next, ordersCreated, broadcasts]
    exact emitting.counted
  orders := by
    rw [orders]
    exact emitting.orders
  broadcasts := by
    rw [broadcasts]
    exact emitting.broadcasts
  queues := fun client msg member =>
    emitting.queues client msg ((queues client).subset member)

/-- What holds after messages are broadcast and queued. -/
theorem Emitting.of_emit
    {server base : Server}
    (emitting : Emitting server)
    {messages : List Message}
    (sameBroadcasts : base.broadcasts = server.broadcasts)
    (sameQueues : base.queues = server.queues)
    (counted : base.nextOrderId.toInt = 1000 + (emit messages base).ordersCreated)
    (orders : ∀ orderId order, base.myOrders.lookup orderId = some order →
      Showable orderId order)
    (decodable : ∀ msg ∈ messages, Decodable msg) :
    Emitting (emit messages base) where
  counted := by
    rw [emit_nextOrderId, counted]
  orders := by
    rw [emit_myOrders]
    exact orders
  broadcasts := by
    rw [emit_broadcasts, sameBroadcasts]
    intro msg member
    exact (List.mem_append.mp member).elim (emitting.broadcasts msg) (decodable msg)
  queues := by
    intro client msg member
    rw [emit_queues, sameQueues] at member
    split at member
    · exact (List.mem_append.mp member).elim (emitting.queues client msg) (decodable msg)
    · exact emitting.queues client msg member

/-- A new order gets the next id, which is positive. -/
theorem Emitting.created
    {server : Server}
    (emitting : Emitting server)
    {order : Order}
    (wellFormed : Wire.WellFormedOrder order)
    (countable : order.items.length < 2 ^ 31)
    (room : server.ordersCreated + 1 < 2 ^ 31 - 1000) :
    Emitting (server.created order) := by
  have counted := emitting.counted
  have positive : 1 ≤ server.nextOrderId := by
    rw [Int32.le_iff_toInt_le, Int32.toInt_one]
    omega
  have showable := showable_assigned wellFormed countable positive
  refine emitting.of_emit rfl rfl ?_ ?_ ?_
  · have created := ordersCreated_created order server
    have next : (server.nextOrderId + 1).toInt = server.nextOrderId.toInt + 1 :=
      toInt_add_one (by omega)
    rw [Server.created] at created
    rw [created]
    dsimp only [setOrder_nextOrderId]
    omega
  · rw [setOrder_myOrders]
    exact forall_lookup_insert
      (fun orderId stored _ lookup => emitting.orders orderId stored lookup) showable
  · intro msg member
    rw [List.mem_singleton.mp member]
    exact decodable_order showable.wellFormed showable.countable

theorem Emitting.itemUpdated
    {server : Server}
    (emitting : Emitting server)
    {orderId itemId : Int32}
    {newStatus : ItemStatus}
    {order : Order}
    {item : Item}
    (stored : server.myOrders.lookup orderId = some order)
    (found : order.findItem itemId = some item)
    (allowed : ItemStep item.status newStatus) :
    Emitting (server.itemUpdated orderId itemId newStatus order) := by
  have showable := emitting.orders orderId order stored
  have updated : Showable orderId (itemUpdatedOrder itemId newStatus order) :=
    showable_itemUpdatedOrder showable allowed.valid
  have positive : 1 ≤ orderId := showable.id ▸ showable.wellFormed.id
  have itemPositive : 1 ≤ itemId := by
    have checked := showable.wellFormed.items item (Order.findItem_mem found)
    rw [← Order.findItem_id found]
    exact checked.id
  refine emitting.of_emit rfl rfl ?_ ?_ ?_
  · have kept := ordersCreated_itemUpdated orderId itemId newStatus order server
    rw [Server.itemUpdated] at kept
    rw [kept]
    exact emitting.counted
  · rw [setOrder_myOrders]
    exact forall_lookup_insert
      (fun other result _ lookup => emitting.orders other result lookup) updated
  · intro msg member
    rcases mem_itemUpdateMessages member with rfl | ⟨-, rfl⟩
    · exact decodable_itemUpdate positive itemPositive allowed.valid
    · exact decodable_orderUpdate positive updated.wellFormed.status

theorem Emitting.delivered
    {server : Server}
    (emitting : Emitting server)
    {orderId : Int32}
    {order : Order}
    (stored : server.myOrders.lookup orderId = some order) :
    Emitting (server.delivered orderId) := by
  have showable := emitting.orders orderId order stored
  have positive : 1 ≤ orderId := showable.id ▸ showable.wellFormed.id
  refine emitting.of_emit rfl rfl ?_ ?_ ?_
  · have kept := ordersCreated_delivered orderId server
    rw [Server.delivered] at kept
    rw [kept]
    exact emitting.counted
  · exact forall_lookup_erase
      fun other result _ lookup => emitting.orders other result lookup
  · intro msg member
    rw [List.mem_singleton.mp member]
    exact decodable_orderUpdate positive (by decide)

/-- Every message of a snapshot can be decoded. -/
theorem Emitting.snapshot
    {server : Server}
    (emitting : Emitting server)
    {orders : List Order}
    (copied : IsSnapshot orders server) :
    ∀ msg ∈ Display.snapshotMessages orders, Decodable msg := by
  intro msg member
  obtain ⟨order, isCopied, rfl⟩ := List.mem_map.mp member
  obtain ⟨orderId, stored⟩ := (Display.mem_snapshot_iff copied order).mp isCopied
  have showable := emitting.orders orderId order stored
  exact decodable_order showable.wellFormed showable.countable

theorem emitting_initial : Emitting initial where
  counted := by decide
  orders := by
    intro orderId order stored
    cases stored
  broadcasts := by
    intro msg member
    cases member
  queues := by
    intro client msg member
    cases member

end Server
end OrderTracking
