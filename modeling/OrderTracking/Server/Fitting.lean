import OrderTracking.Client.Emission

/-!
# Messages that fit into a frame

While every order that is created fits into a frame, however far the kitchen gets with
it, so does every message that is broadcast, queued or copied for a snapshot: the
others have numbers and names of statuses for their fields.
-/

namespace OrderTracking

/-! ## Messages -/

/-- The encoding of the message fits into a frame. -/
def FitsFrame (msg : Message) : Prop :=
  ∀ s, (Wire.encode msg).run [] = .ok () s → s.length ≤ 9998

theorem fits_of_encode
    {msg : Message}
    {s : Bytes}
    (encodes : (Wire.encode msg).run [] = .ok () s)
    (short : s.length ≤ 9998) :
    FitsFrame msg := by
  intro other otherwise
  rw [encodes] at otherwise
  cases otherwise
  exact short

theorem fits_heartbeat : FitsFrame (.ofType .dispHeartbeat) :=
  fits_of_encode (Wire.encode_heartbeat []) (by decide)

theorem length_itemStatusToStr_le (status : ItemStatus) :
    (Wire.itemStatusToStr status).length ≤ 11 := by
  cases status <;> decide

theorem length_orderStatusToStr_le (status : OrderStatus) :
    (Wire.orderStatusToStr status).length ≤ 11 := by
  cases status <;> decide

theorem fits_itemUpdate
    (orderId itemId : Int32)
    (status : ItemStatus) :
    FitsFrame (.ofItemStatus .dispItemUpdate orderId itemId status) := by
  refine fits_of_encode (Wire.encode_itemUpdate (Or.inr rfl) orderId itemId status []) ?_
  have type : (Wire.messageTypeToStr .dispItemUpdate).length = 16 := rfl
  have order := Cxx.length_toString_le orderId
  have item := Cxx.length_toString_le itemId
  have name := length_itemStatusToStr_le status
  simp only [length_intercalate_singleton, List.map_cons, List.map_nil, List.sum_cons,
    List.sum_nil, List.length_cons, List.length_nil, type]
  omega

theorem fits_orderUpdate
    (orderId : Int32)
    (status : OrderStatus) :
    FitsFrame (.ofOrderStatus .dispOrderUpdate orderId status) := by
  refine fits_of_encode (Wire.encode_orderUpdate (Or.inr rfl) orderId status []) ?_
  have type : (Wire.messageTypeToStr .dispOrderUpdate).length = 17 := rfl
  have order := Cxx.length_toString_le orderId
  have name := length_orderStatusToStr_le status
  simp only [length_intercalate_singleton, List.map_cons, List.map_nil, List.sum_cons,
    List.sum_nil, List.length_cons, List.length_nil, type]
  omega

theorem fits_order
    {orderId : Int32}
    {order : Order}
    (sendable : Display.Sendable orderId order)
    (short : Display.worstLength orderId order ≤ 9998) :
    FitsFrame (.ofOrder .dispOrder (some order)) := by
  have bound := Display.shownLength_le_worstLength orderId order
  obtain ⟨s, written, encodes, sent, received⟩ :=
    (Display.readBack_iff sendable).mpr (bound.trans short)
  have nonempty : Framing.frame s ≠ [] := by simp [Framing.frame]
  rw [Framing.send_run, List.nil_append] at sent
  cases sent
  obtain ⟨rest, returned, -⟩ :=
    received ⟨[.chunk (Framing.frame s) nonempty], []⟩ (List.append_nil _)
  exact fits_of_encode encodes (Framing.framed_of_receive returned).1

namespace Server

/-! ## Stored orders -/

/-- An order that is stored under an id and always fits into a frame. -/
structure Frames (orderId : Int32) (order : Order) : Prop where
  sendable : Display.Sendable orderId order
  short : Display.worstLength orderId order ≤ 9998

theorem Frames.itemUpdatedOrder
    {orderId itemId : Int32}
    {order : Order}
    {item : Item}
    {newStatus : ItemStatus}
    (frames : Frames orderId order)
    (found : order.findItem itemId = some item)
    (allowed : ItemStep item.status newStatus) :
    Frames orderId (itemUpdatedOrder itemId newStatus order) where
  sendable := by
    have length := length_items_itemUpdatedOrder itemId newStatus order
    have sendable := frames.sendable
    refine ⟨sendable.id, ?_, ?_, ?_⟩
    · rw [orderIds_itemUpdatedOrder, sendable.itemIds, List.map_const', List.map_const',
        length]
    · rw [← List.length_pos_iff, length, List.length_pos_iff]
      exact sendable.nonempty
    · rw [length]
      exact sendable.countable
  short :=
    (Display.worstLength_itemUpdatedOrder_le found allowed frames.sendable.countable
      orderId).trans frames.short

/-! ## The invariant -/

/-- Every order that was created fits into a frame, however far the kitchen gets. -/
def OrdersFit (server : Server) : Prop :=
  ∀ order, .ofOrder .dispOrder (some order) ∈ server.broadcasts →
    Display.worstLength order.id order ≤ 9998

/-- Every stored order and every queued message fits into a frame. -/
structure Fitting (server : Server) : Prop where
  orders : ∀ orderId order, server.myOrders.lookup orderId = some order →
    Frames orderId order
  queues : ∀ client, ∀ msg ∈ server.queues client, FitsFrame msg

theorem Fitting.of_suffix
    {server final : Server}
    (fitting : Fitting server)
    (orders : final.myOrders = server.myOrders)
    (queues : ∀ client, final.queues client <:+ server.queues client) :
    Fitting final where
  orders := orders ▸ fitting.orders
  queues := fun client msg member =>
    fitting.queues client msg ((queues client).subset member)

theorem Fitting.of_emit
    {server base : Server}
    (fitting : Fitting server)
    {messages : List Message}
    (sameQueues : base.queues = server.queues)
    (orders : ∀ orderId order, base.myOrders.lookup orderId = some order →
      Frames orderId order)
    (fits : ∀ msg ∈ messages, FitsFrame msg) :
    Fitting (emit messages base) where
  orders := by
    rw [emit_myOrders]
    exact orders
  queues := by
    intro client msg member
    rw [emit_queues, sameQueues] at member
    split at member
    · exact (List.mem_append.mp member).elim (fitting.queues client msg) (fits msg)
    · exact fitting.queues client msg member

theorem Fitting.created
    {server : Server}
    (fitting : Fitting server)
    {order : Order}
    (nonempty : order.items ≠ [])
    (countable : order.items.length < 2 ^ 31)
    (fit : (server.created order).OrdersFit) :
    Fitting (server.created order) := by
  have frames : Frames server.nextOrderId (assigned server.nextOrderId order) := by
    refine ⟨Display.sendable_assigned nonempty countable _,
      fit (assigned server.nextOrderId order) ?_⟩
    rw [created_broadcasts]
    exact List.mem_append_right _ (List.mem_singleton_self _)
  refine fitting.of_emit rfl ?_ ?_
  · rw [setOrder_myOrders]
    exact forall_lookup_insert
      (fun orderId stored _ lookup => fitting.orders orderId stored lookup) frames
  · intro msg member
    rw [List.mem_singleton.mp member]
    exact fits_order frames.sendable frames.short

theorem Fitting.itemUpdated
    {server : Server}
    (fitting : Fitting server)
    {orderId itemId : Int32}
    {newStatus : ItemStatus}
    {order : Order}
    {item : Item}
    (stored : server.myOrders.lookup orderId = some order)
    (found : order.findItem itemId = some item)
    (allowed : ItemStep item.status newStatus) :
    Fitting (server.itemUpdated orderId itemId newStatus order) := by
  have updated : Frames orderId (itemUpdatedOrder itemId newStatus order) :=
    (fitting.orders orderId order stored).itemUpdatedOrder found allowed
  refine fitting.of_emit rfl ?_ ?_
  · rw [setOrder_myOrders]
    exact forall_lookup_insert
      (fun other result _ lookup => fitting.orders other result lookup) updated
  · intro msg member
    rcases mem_itemUpdateMessages member with rfl | ⟨-, rfl⟩
    · exact fits_itemUpdate _ _ _
    · exact fits_orderUpdate _ _

theorem Fitting.delivered
    {server : Server}
    (fitting : Fitting server)
    (orderId : Int32) :
    Fitting (server.delivered orderId) := by
  refine fitting.of_emit rfl ?_ ?_
  · exact forall_lookup_erase
      fun other result _ lookup => fitting.orders other result lookup
  · intro msg member
    rw [List.mem_singleton.mp member]
    exact fits_orderUpdate _ _

/-- Every message of a snapshot fits into a frame. -/
theorem Fitting.snapshot
    {server : Server}
    (fitting : Fitting server)
    {orders : List Order}
    (copied : IsSnapshot orders server) :
    ∀ msg ∈ Display.snapshotMessages orders, FitsFrame msg := by
  intro msg member
  obtain ⟨order, isCopied, rfl⟩ := List.mem_map.mp member
  obtain ⟨orderId, stored⟩ := (Display.mem_snapshot_iff copied order).mp isCopied
  obtain ⟨sendable, short⟩ := fitting.orders orderId order stored
  exact fits_order sendable short

end Server

/-! ## Turns -/

/-- What was broadcast stays so. -/
theorem Updater.Turn.broadcasts
    {raw : Bytes}
    {server : Server}
    {ends : Bool}
    {session : Updater.Session}
    (turn : Updater.Turn raw server (.ok ends session)) :
    server.broadcasts <+: session.server.broadcasts := by
  cases turn with
  | quit => exact List.prefix_rfl
  | refused => exact List.prefix_rfl
  | created req order => exact Server.created_broadcasts order server ▸ List.prefix_append _ _
  | itemUpdated req order item =>
      exact Server.itemUpdated_broadcasts .. ▸ List.prefix_append _ _
  | delivered req order => exact Server.delivered_broadcasts .. ▸ List.prefix_append _ _

/-- A turn keeps what the server holds fitting. -/
theorem Updater.Turn.fitting
    {raw : Bytes}
    {server : Server}
    {ends : Bool}
    {session : Updater.Session}
    (turn : Updater.Turn raw server (.ok ends session))
    (short : raw.length ≤ 9998)
    (fitting : server.Fitting)
    (fit : session.server.OrdersFit) :
    session.server.Fitting := by
  cases turn with
  | quit => exact fitting
  | refused => exact fitting
  | created req order decodes type given one =>
      obtain ⟨wellFormed, countable⟩ :=
        Updater.wellFormed_of_created short decodes type given one
      exact fitting.created wellFormed.nonempty countable fit
  | itemUpdated req order item decodes type stored found allowed =>
      exact fitting.itemUpdated stored found allowed
  | delivered req order => exact fitting.delivered _

/-- A turn makes at most one call. -/
theorem Updater.Turn.performs
    {raw : Bytes}
    {server : Server}
    {ends : Bool}
    {session : Updater.Session}
    (turn : Updater.Turn raw server (.ok ends session)) :
    session.server = server ∨ ∃ operation, session.server = server.perform operation := by
  cases turn with
  | quit => exact Or.inl rfl
  | refused => exact Or.inl rfl
  | created req order =>
      exact Or.inr ⟨.createOrder order, (Server.perform_createOrder order server).symm⟩
  | itemUpdated req order item decodes type stored found allowed =>
      exact Or.inr ⟨.updateItem req.orderId req.itemId req.itemStatus,
        (Server.perform_updateItem stored found allowed).symm⟩
  | delivered req order decodes type stored done =>
      exact Or.inr ⟨.updateOrder req.orderId .delivered,
        (Server.perform_updateOrder stored done).symm⟩

end OrderTracking
