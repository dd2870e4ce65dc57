import OrderTracking.Display.Capacity
import OrderTracking.Updater.Delivery

/-!
# Showing accepted orders

Whether every string that shows an accepted order to a display is received, when
the order is created and in any later snapshot. An order may be accepted from a
shorter string than the ones that show it.
-/

namespace OrderTracking
namespace Display

/-- Every message that shows the order is read back: the one broadcast when it is
created, and the ones of later snapshots, as long as ids are not exhausted. -/
def CanBeShown (server : Server) (order : Order) : Prop :=
  (∃ msg, msg.type = .dispOrder ∧
    (server.perform (.createOrder order)).broadcasts = server.broadcasts ++ [msg] ∧
    ReadBack msg) ∧
  ∀ later stored,
    server.nextOrderId.toInt + 1 + Server.creations later < 2 ^ 31 →
    ((server.perform (.createOrder order)).performAll later).myOrders.lookup
        server.nextOrderId = some stored →
      ReadBack (.ofOrder .dispOrder (some stored.duplicate))

/-- An accepted order was written as an order of the grammar. -/
theorem exists_tree_of_request
    {raw : Bytes}
    {order : Order}
    (accepted : Updater.request raw = some (.createOrder order)) :
    ∃ (kind : Message.IsOrder .orderNew) (tree : Wire.OrderSyntax),
      raw = (Wire.Sentence.order .orderNew kind tree).print ∧ order = tree.meaning := by
  unfold Updater.request at accepted
  cases decoded : (Wire.decode raw).run .empty with
  | error exception final =>
      rw [decoded] at accepted
      cases accepted
  | ok _ req =>
      rw [decoded] at accepted
      obtain ⟨sentence, printed, rfl⟩ := Wire.decode_eq_ok decoded
      cases sentence with
      | heartbeat => cases accepted
      | login => cases accepted
      | text type kind str plain => rcases kind with rfl | rfl | rfl <;> cases accepted
      | itemUpdate type kind => rcases kind with rfl | rfl <;> cases accepted
      | orderUpdate type kind => rcases kind with rfl | rfl <;> cases accepted
      | order type kind tree =>
          rcases kind with rfl | rfl
          · refine ⟨Or.inl rfl, tree, printed.symm, ?_⟩
            simp only [Updater.operation, Wire.Sentence.meaning, Message.ofOrder] at accepted
            split at accepted
            · cases accepted
            · cases accepted
              rfl
          · cases accepted

/-- An accepted order has items, and no more than its string has bytes. -/
theorem items_of_request
    {raw : Bytes}
    {order : Order}
    (accepted : Updater.request raw = some (.createOrder order)) :
    order.items ≠ [] ∧ order.items.length ≤ raw.length := by
  obtain ⟨kind, tree, rfl, rfl⟩ := exists_tree_of_request accepted
  constructor
  · simpa [Wire.OrderSyntax.meaning] using tree.nonempty
  · simp only [Wire.Sentence.print, Wire.Sentence.fields, Wire.OrderSyntax.print,
      Wire.OrderSyntax.printItems, Wire.OrderSyntax.meaning,
      length_intercalate_singleton, List.map_cons, List.map_nil, List.sum_cons,
      List.sum_nil, List.length_append, List.length_cons, List.length_nil,
      List.length_map]
    omega

/-- The id after the one an order gets. -/
theorem nextOrderId_created
    {server : Server}
    (high : server.nextOrderId.toInt ≤ 2 ^ 31 - 2)
    (order : Order) :
    (server.created order).nextOrderId.toInt = server.nextOrderId.toInt + 1 := by
  rw [Server.created_nextOrderId]
  exact Server.toInt_add_one (by omega)

theorem lookup_created
    (server : Server)
    (order : Order) :
    (server.created order).myOrders.lookup server.nextOrderId =
      some (Server.assigned server.nextOrderId order) := by
  rw [Server.created_myOrders, Finmap.lookup_insert]

/-- If the greatest length fits into a frame, every length does. -/
theorem canBeShown_of_worstLength_le
    {server : Server}
    {order : Order}
    (nonempty : order.items ≠ [])
    (countable : order.items.length < 2 ^ 31)
    (high : server.nextOrderId.toInt ≤ 2 ^ 31 - 2)
    (fits : worstLength server.nextOrderId order ≤ 9998) :
    CanBeShown server order := by
  have sendable := sendable_assigned nonempty countable server.nextOrderId
  have worst := worstLength_assigned countable server.nextOrderId
  unfold CanBeShown
  rw [Server.perform_createOrder]
  constructor
  · refine ⟨_, rfl, Server.created_broadcasts order server, ?_⟩
    have bound := shownLength_le_worstLength server.nextOrderId
      (Server.assigned server.nextOrderId order)
    exact (readBack_iff sendable).mpr (by omega)
  · intro later stored room isStored
    have next := nextOrderId_created high order
    obtain ⟨messages, history⟩ := Server.exists_history_performAll
      (lookup_created server order) (by omega) (by omega) isStored
    have bound := shownLength_le_worstLength server.nextOrderId stored
    have noGrowth := worstLength_history_le history sendable.countable
      server.nextOrderId
    rw [Order.duplicate_eq]
    exact (readBack_iff (sendable.history history)).mpr (by omega)

/-- If every length fits into a frame, the greatest does. -/
theorem worstLength_le_of_canBeShown
    {server : Server}
    {order : Order}
    (nonempty : order.items ≠ [])
    (countable : order.items.length < 2 ^ 31)
    (high : server.nextOrderId.toInt ≤ 2 ^ 31 - 2)
    (canBeShown : CanBeShown server order) :
    worstLength server.nextOrderId order ≤ 9998 := by
  have sendable := sendable_assigned nonempty countable server.nextOrderId
  have worst := worstLength_assigned countable server.nextOrderId
  have next := nextOrderId_created high order
  unfold CanBeShown at canBeShown
  rw [Server.perform_createOrder] at canBeShown
  obtain ⟨operations, begun, none, isBegun, longest⟩ :=
    exists_begun (lookup_created server order) sendable.countable
  obtain ⟨messages, history⟩ := Server.exists_history_performAll
    (lookup_created server order) (by omega) (by omega) isBegun
  have readBack := canBeShown.2 operations begun (by omega) isBegun
  rw [Order.duplicate_eq, readBack_iff (sendable.history history)] at readBack
  omega

/-- Every string that shows an accepted order is received as it was sent if and
only if the greatest one fits into a frame. -/
theorem canBeShown_iff
    {raw : Bytes}
    {order : Order}
    {server : Server}
    (short : raw.length ≤ 9998)
    (accepted : Updater.request raw = some (.createOrder order))
    (high : server.nextOrderId.toInt ≤ 2 ^ 31 - 2) :
    CanBeShown server order ↔ worstLength server.nextOrderId order ≤ 9998 := by
  obtain ⟨nonempty, few⟩ := items_of_request accepted
  have countable : order.items.length < 2 ^ 31 := by omega
  exact ⟨worstLength_le_of_canBeShown nonempty countable high,
    canBeShown_of_worstLength_le nonempty countable high⟩

theorem canBeShown_tea :
    CanBeShown .initial ⟨1, .new, [⟨1, 1, .new, ascii "tea", 1⟩]⟩ := by
  have written : ascii "ORDER_NEW|1,NEW,1:1:NEW:tea:1" =
      (Updater.orderTea .new (by decide)).print := by
    decide
  have accepted : Updater.request (ascii "ORDER_NEW|1,NEW,1:1:NEW:tea:1") =
      some (.createOrder ⟨1, .new, [⟨1, 1, .new, ascii "tea", 1⟩]⟩) := by
    rw [written, Updater.request_print]
    rfl
  exact (canBeShown_iff (by decide) accepted (by decide)).mpr (by decide)

/-- A request for one item with a long description. -/
def longRequest (count : Nat) : Bytes :=
  ascii "ORDER_NEW|1,NEW,1:1:NEW:" ++ List.replicate count 'a'.toUInt8 ++ ascii ":1"

/-- The order of the long request. -/
def longOrder (count : Nat) : Order :=
  ⟨1, .new, [⟨1, 1, .new, List.replicate count 'a'.toUInt8, 1⟩]⟩

theorem lacks_long (count : Nat) :
    Wire.Lacks [Wire.pipe, Wire.semicolon, Wire.colon]
      (List.replicate count 'a'.toUInt8) := by
  intro separator isSeparator member
  rw [List.eq_of_mem_replicate member] at isSeparator
  exact absurd isSeparator (by decide)

theorem request_longRequest (count : Nat) :
    Updater.request (longRequest count) = some (.createOrder (longOrder count)) := by
  have written : longRequest count =
      (Updater.orderOne .new (by decide) _ (lacks_long count)).print := by
    simp only [longRequest, Updater.orderOne, Wire.Sentence.print, Wire.Sentence.fields,
      Wire.OrderSyntax.print, Wire.OrderSyntax.printItems, Wire.ItemSyntax.print,
      Wire.ItemSyntax.fields, List.map_cons, List.map_nil, List.intercalate_cons_cons,
      List.intercalate_singleton, List.append_assoc]
    rfl
  rw [written, Updater.request_print]
  rfl

theorem shownLength_longOrder (count : Nat) :
    shownLength 1000 (longOrder count) = count + 33 := by
  have four : (Cxx.toString 1000).length = 4 := rfl
  have one : (Cxx.toString 1).length = 1 := rfl
  have orderNew : (Wire.orderStatusToStr .new).length = 3 := rfl
  have itemNew : (Wire.itemStatusToStr .new).length = 3 := rfl
  simp only [shownLength, itemLength, longOrder, List.map_cons, List.map_nil,
    List.sum_cons, List.sum_nil, List.length_replicate, four, one, orderNew, itemNew]
  omega

/-- A request of 9998 bytes is accepted, but the order cannot be shown. -/
theorem longOrder_not_canBeShown :
    (longRequest 9972).length ≤ 9998 ∧
      Updater.request (longRequest 9972) = some (.createOrder (longOrder 9972)) ∧
      ¬ CanBeShown .initial (longOrder 9972) := by
  refine ⟨?_, request_longRequest 9972, ?_⟩
  · have front : (ascii "ORDER_NEW|1,NEW,1:1:NEW:").length = 24 := rfl
    have back : (ascii ":1").length = 2 := rfl
    rw [longRequest, List.length_append, List.length_append, List.length_replicate,
      front, back]
  · intro canBeShown
    have nonempty : (longOrder 9972).items ≠ [] := List.cons_ne_nil _ _
    have countable : (longOrder 9972).items.length < 2 ^ 31 := by
      decide
    have sendable := sendable_assigned nonempty countable 1000
    obtain ⟨⟨msg, -, broadcasts, readBack⟩, -⟩ := canBeShown
    rw [Server.perform_createOrder, Server.created_broadcasts,
      List.append_cancel_left_eq, List.singleton_inj] at broadcasts
    rw [← broadcasts, show Server.initial.nextOrderId = 1000 from rfl,
      readBack_iff sendable, shownLength_assigned countable,
      shownLength_longOrder] at readBack
    omega

end Display
end OrderTracking
