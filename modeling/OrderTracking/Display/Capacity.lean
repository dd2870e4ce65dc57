import Mathlib.Data.Finset.Card
import OrderTracking.Framing.Exact
import OrderTracking.Server.History
import OrderTracking.Updater.Defs
import OrderTracking.Wire.Encode

/-!
# Orders that fit into a frame

The string that shows an order to a display carries the order's id once for the
order and once for each item, and the names of the current statuses. It is
received as it was sent if and only if it has at most 9998 bytes. Over the life
of an order it is longest when the kitchen has begun every item it can.
-/

namespace OrderTracking
namespace Display

/-! ## The length of a shown order -/

/-- The length of an item in the string that shows its order, with a separator. -/
def itemLength (orderId : Int32) (item : Item) : Nat :=
  (Cxx.toString orderId).length + (Cxx.toString item.id).length +
    (Wire.itemStatusToStr item.status).length + item.desc.length +
    (Cxx.toString item.qty).length + 5

/-- The length of the string that shows an order under an id. -/
def shownLength (orderId : Int32) (order : Order) : Nat :=
  12 + (Cxx.toString orderId).length +
    (Wire.orderStatusToStr order.status).length +
    (order.items.map (itemLength orderId)).sum

/-- The order can be encoded, and carries its id in every item. -/
structure Sendable (orderId : Int32) (order : Order) : Prop where
  id : order.id = orderId
  itemIds : order.items.map Item.orderId = order.items.map fun _ => orderId
  nonempty : order.items ≠ []
  countable : order.items.length < 2 ^ 31

theorem length_encodeItem (item : Item) :
    (Wire.encodeItem item).length + 1 = itemLength item.orderId item := by
  simp only [Wire.encodeItem, itemLength, List.length_append, List.length_cons,
    List.length_nil]
  omega

theorem length_orderText
    {orderId : Int32}
    {order : Order}
    (sendable : Sendable orderId order) :
    (Wire.orderText order.id order.status order.items).length + 11 =
      shownLength orderId order := by
  have lengths : order.items.map (fun item => (Wire.encodeItem item).length + 1) =
      order.items.map (itemLength orderId) := by
    apply List.map_congr_left
    intro item member
    have own : item.orderId = orderId := List.map_inj_left.mp sendable.itemIds item member
    rw [length_encodeItem, own]
  have separated : (order.items.map fun item => (Wire.encodeItem item).length).sum +
      order.items.length = (order.items.map (itemLength orderId)).sum := by
    rw [← lengths, List.sum_map_add]
    simp
  have positive := List.length_pos_iff.mpr sendable.nonempty
  rw [Wire.orderText, sendable.id, shownLength, List.length_append,
    length_intercalate_singleton, List.map_map, List.length_map]
  simp only [List.length_append, List.length_cons, List.length_nil, Function.comp_def]
  omega

/-- The message is encoded, sent, and received as the string that was sent, with
nothing left to read. -/
def ReadBack (msg : Message) : Prop :=
  ∃ s written, (Wire.encode msg).run [] = .ok () s ∧
    (Framing.send s).run [] = .ok () written ∧
    ∀ receiver : Framing.Receiver, Framing.available receiver.infd = written →
      ∃ rest, Framing.receive.run receiver = .ok () ⟨rest, s⟩ ∧
        Framing.available rest = []

/-- A string is read back if and only if it is short enough for a frame. -/
theorem readBack_iff
    {orderId : Int32}
    {order : Order}
    (sendable : Sendable orderId order) :
    ReadBack (.ofOrder .dispOrder (some order)) ↔ shownLength orderId order ≤ 9998 := by
  have text := Wire.encodeOrder_of_countable sendable.nonempty sendable.countable
  have encoded := Wire.encode_order_of_ok (Or.inr rfl : Message.IsOrder .dispOrder) text []
  generalize string : [Wire.pipe].intercalate
    [Wire.messageTypeToStr .dispOrder,
      Wire.orderText order.id order.status order.items] = s at encoded
  have length : s.length = shownLength orderId order := by
    have typeLength : (Wire.messageTypeToStr .dispOrder).length = 10 := rfl
    rw [← string, length_intercalate_singleton, ← length_orderText sendable]
    simp only [List.map_cons, List.map_nil, List.sum_cons, List.sum_nil,
      List.length_cons, List.length_nil, typeLength]
    omega
  rw [← length]
  constructor
  · rintro ⟨other, written, otherEncoded, sent, received⟩
    rw [encoded] at otherEncoded
    cases otherEncoded
    rw [Framing.send_run, List.nil_append] at sent
    cases sent
    have nonempty : Framing.frame s ≠ [] := by
      simp [Framing.frame]
    obtain ⟨rest, returned, -⟩ :=
      received ⟨[.chunk (Framing.frame s) nonempty], []⟩ (by simp [Framing.available])
    exact (Framing.framed_of_receive returned).1
  · intro short
    refine ⟨s, Framing.frame s, encoded, Framing.send_run s [], ?_⟩
    intro receiver framed
    exact Framing.receive_frame short (by rw [framed, List.append_nil])

/-! ## The greatest length -/

/-- The ids of the items the kitchen can begin. -/
def canBegin (order : Order) : Finset Int32 :=
  (order.items.map Item.id).toFinset.filter fun itemId =>
    (order.findItem itemId).map Item.status = some .new

/-- The length of the string that shows an order once the kitchen has begun every
item it can. The name of a status grows by eight from `NEW` to `IN_PROGRESS`. -/
def worstLength (orderId : Int32) (order : Order) : Nat :=
  shownLength orderId order + 8 * (canBegin order).card +
    if order.status = .new ∧ (canBegin order).Nonempty then 8 else 0

theorem mem_canBegin_iff
    (order : Order)
    (itemId : Int32) :
    itemId ∈ canBegin order ↔
      (order.findItem itemId).map Item.status = some .new := by
  unfold canBegin
  rw [Finset.mem_filter]
  constructor
  · exact fun member => member.2
  · intro new
    refine ⟨?_, new⟩
    obtain ⟨item, found, -⟩ := Option.map_eq_some_iff.mp new
    rw [List.mem_toFinset, ← Order.findItem_id found]
    exact List.mem_map_of_mem (Order.findItem_mem found)

/-- An updated item can no longer be begun. -/
theorem canBegin_itemUpdatedOrder
    {order : Order}
    {itemId : Int32}
    {item : Item}
    {newStatus : ItemStatus}
    (found : order.findItem itemId = some item)
    (notNew : newStatus ≠ .new) :
    canBegin (Server.itemUpdatedOrder itemId newStatus order) =
      (canBegin order).erase itemId := by
  ext other
  rw [Finset.mem_erase, mem_canBegin_iff, mem_canBegin_iff]
  rw [Order.findItem, Server.itemUpdatedOrder_items, ← Order.findItem]
  by_cases own : other = itemId
  · subst own
    rw [Order.findItem_setItemStatus_self, found]
    simp [notNew]
  · rw [Order.findItem_setItemStatus_other own]
    simp [own]

/-- An update exchanges the names of two statuses. -/
theorem shownLength_itemUpdatedOrder
    {order : Order}
    {itemId : Int32}
    {item : Item}
    (found : order.findItem itemId = some item)
    (orderId : Int32)
    (newStatus : ItemStatus) :
    shownLength orderId (Server.itemUpdatedOrder itemId newStatus order) +
        (Wire.orderStatusToStr order.status).length +
        (Wire.itemStatusToStr item.status).length =
      shownLength orderId order +
        (Wire.orderStatusToStr (Server.newOrderStatus
          (order.setItemStatus itemId newStatus) newStatus)).length +
        (Wire.itemStatusToStr newStatus).length := by
  have sum : ((updateFirst (fun item => item.id == itemId) (Item.setStatus newStatus)
      order.items).map (itemLength orderId)).sum + itemLength orderId item =
      (order.items.map (itemLength orderId)).sum +
        itemLength orderId (item.setStatus newStatus) :=
    sum_map_updateFirst found (itemLength orderId)
  have exchanged : itemLength orderId (item.setStatus newStatus) +
      (Wire.itemStatusToStr item.status).length =
      itemLength orderId item + (Wire.itemStatusToStr newStatus).length := by
    simp only [itemLength, Item.setStatus_id, Item.setStatus_status, Item.setStatus_desc,
      Item.setStatus_qty]
    omega
  have items : (order.setItemStatus itemId newStatus).items =
      updateFirst (fun item => item.id == itemId) (Item.setStatus newStatus)
        order.items := rfl
  simp only [shownLength, Server.itemUpdatedOrder, Order.setStatus_status,
    Order.setStatus_items, items]
  omega

/-- Beginning an item leaves the greatest length as it is. -/
theorem worstLength_begin
    {order : Order}
    {itemId : Int32}
    {item : Item}
    (found : order.findItem itemId = some item)
    (new : item.status = .new)
    (countable : order.items.length < 2 ^ 31)
    (orderId : Int32) :
    worstLength orderId (Server.itemUpdatedOrder itemId .inProgress order) =
      worstLength orderId order := by
  have exchanged := shownLength_itemUpdatedOrder found orderId .inProgress
  have member : itemId ∈ canBegin order := by
    rw [mem_canBegin_iff, found, Option.map_some, new]
  have erased := Finset.card_erase_of_mem member
  have positive := Finset.card_pos.mpr ⟨itemId, member⟩
  have newLength : (Wire.itemStatusToStr .new).length = 3 := rfl
  have inProgressLength : (Wire.itemStatusToStr .inProgress).length = 11 := rfl
  rw [new, newLength, inProgressLength] at exchanged
  unfold worstLength
  rw [canBegin_itemUpdatedOrder found (by decide), erased, Server.itemUpdatedOrder_status]
  by_cases orderNew : order.status = .new
  · -- The order is begun with the item.
    have begun : Server.newOrderStatus (order.setItemStatus itemId .inProgress)
        .inProgress = .inProgress := Server.newOrderStatus_begin orderNew
    have orderNewLength : (Wire.orderStatusToStr .new).length = 3 := rfl
    have orderInProgressLength : (Wire.orderStatusToStr .inProgress).length = 11 := rfl
    rw [begun, orderNew, orderNewLength, orderInProgressLength] at exchanged
    rw [begun, if_neg (by simp), if_pos ⟨orderNew, itemId, member⟩]
    omega
  · have same := Server.newOrderStatus_inProgress found orderNew countable
    rw [same] at exchanged
    rw [same, if_neg (fun both => orderNew both.1), if_neg (fun both => orderNew both.1)]
    omega

theorem three_le_length_orderStatusToStr (status : OrderStatus) :
    3 ≤ (Wire.orderStatusToStr status).length := by
  cases status <;> decide

/-- Finishing an item does not make the greatest length greater. -/
theorem worstLength_finish_le
    {order : Order}
    {itemId : Int32}
    {item : Item}
    (found : order.findItem itemId = some item)
    (inProgress : item.status = .inProgress)
    (orderId : Int32) :
    worstLength orderId (Server.itemUpdatedOrder itemId .done order) ≤
      worstLength orderId order := by
  have exchanged := shownLength_itemUpdatedOrder found orderId .done
  have fewer := Finset.card_le_card (Finset.erase_subset itemId (canBegin order))
  have doneLength : (Wire.itemStatusToStr .done).length = 4 := rfl
  have inProgressLength : (Wire.itemStatusToStr .inProgress).length = 11 := rfl
  rw [inProgress, doneLength, inProgressLength] at exchanged
  unfold worstLength
  rw [canBegin_itemUpdatedOrder found (by decide), Server.itemUpdatedOrder_status]
  rcases Server.newOrderStatus_done (order.setItemStatus itemId .done) with same | completed
  · rw [Order.setItemStatus_status] at same
    rw [same] at exchanged ⊢
    have weaker : order.status = .new ∧ ((canBegin order).erase itemId).Nonempty →
        order.status = .new ∧ (canBegin order).Nonempty :=
      fun both => ⟨both.1, both.2.mono (Finset.erase_subset itemId _)⟩
    split_ifs with after before
    · omega
    · exact absurd (weaker after) before
    · omega
    · omega
  · have orderDoneLength : (Wire.orderStatusToStr .done).length = 4 := rfl
    have three := three_le_length_orderStatusToStr order.status
    rw [completed, orderDoneLength] at exchanged
    rw [completed, if_neg (by simp)]
    omega

/-- No update makes the greatest length greater. -/
theorem worstLength_itemUpdatedOrder_le
    {order : Order}
    {itemId : Int32}
    {item : Item}
    {newStatus : ItemStatus}
    (found : order.findItem itemId = some item)
    (allowed : Server.ItemStep item.status newStatus)
    (countable : order.items.length < 2 ^ 31)
    (orderId : Int32) :
    worstLength orderId (Server.itemUpdatedOrder itemId newStatus order) ≤
      worstLength orderId order := by
  rcases allowed with ⟨new, rfl⟩ | ⟨inProgress, rfl⟩
  · exact Nat.le_of_eq (worstLength_begin found new countable orderId)
  · exact worstLength_finish_le found inProgress orderId

theorem worstLength_history_le
    {storedId : Int32}
    {first order : Order}
    {messages : List Message}
    (history : Server.History storedId first messages order)
    (countable : first.items.length < 2 ^ 31)
    (orderId : Int32) :
    worstLength orderId order ≤ worstLength orderId first := by
  induction history with
  | created => exact Nat.le_refl _
  | updated messages order itemId item newStatus history found allowed
      inductionHypothesis =>
      have updated := worstLength_itemUpdatedOrder_le found allowed
        (by rwa [history.length_items]) orderId
      exact updated.trans inductionHypothesis

theorem shownLength_le_worstLength
    (orderId : Int32)
    (order : Order) :
    shownLength orderId order ≤ worstLength orderId order := by
  unfold worstLength
  rw [Nat.add_assoc]
  exact Nat.le_add_right _ _

/-! ## The order under its id -/

theorem Sendable.history
    {storedId orderId : Int32}
    {first order : Order}
    {messages : List Message}
    (sendable : Sendable orderId first)
    (history : Server.History storedId first messages order) :
    Sendable orderId order where
  id := by rw [history.id_eq, sendable.id]
  itemIds := by
    rw [history.items_orderId, sendable.itemIds, List.map_const', List.map_const',
      history.length_items]
  nonempty := by
    rw [← List.length_pos_iff, history.length_items, List.length_pos_iff]
    exact sendable.nonempty
  countable := by
    rw [history.length_items]
    exact sendable.countable

theorem sendable_assigned
    {order : Order}
    (nonempty : order.items ≠ [])
    (countable : order.items.length < 2 ^ 31)
    (orderId : Int32) :
    Sendable orderId (Server.assigned orderId order) := by
  have items := Server.assigned_items countable orderId
  refine ⟨rfl, ?_, ?_, ?_⟩
  · rw [items, List.map_map, List.map_map]
    rfl
  · simpa [items] using nonempty
  · rwa [items, List.length_map]

theorem canBegin_assigned
    {order : Order}
    (countable : order.items.length < 2 ^ 31)
    (orderId : Int32) :
    canBegin (Server.assigned orderId order) = canBegin order := by
  ext itemId
  rw [mem_canBegin_iff, mem_canBegin_iff, Order.findItem,
    Server.assigned_items countable, List.find?_map, Option.map_map]
  rfl

theorem shownLength_assigned
    {order : Order}
    (countable : order.items.length < 2 ^ 31)
    (orderId : Int32) :
    shownLength orderId (Server.assigned orderId order) = shownLength orderId order := by
  unfold shownLength
  rw [Server.assigned_items countable, List.map_map]
  rfl

theorem worstLength_assigned
    {order : Order}
    (countable : order.items.length < 2 ^ 31)
    (orderId : Int32) :
    worstLength orderId (Server.assigned orderId order) = worstLength orderId order := by
  unfold worstLength
  rw [canBegin_assigned countable, shownLength_assigned countable, Server.assigned_status]

/-! ## The kitchen begins everything -/

/-- A request to begin an item begins it if it can be begun. -/
theorem perform_begin
    {server : Server}
    {orderId : Int32}
    {order : Order}
    (stored : server.myOrders.lookup orderId = some order)
    (countable : order.items.length < 2 ^ 31)
    (itemId : Int32) :
    ∃ begun, (server.perform (.updateItem orderId itemId .inProgress)).myOrders.lookup
        orderId = some begun ∧
      begun.items.length = order.items.length ∧
      canBegin begun = (canBegin order).erase itemId ∧
      worstLength orderId begun = worstLength orderId order := by
  by_cases new : itemId ∈ canBegin order
  · rw [mem_canBegin_iff, Option.map_eq_some_iff] at new
    obtain ⟨item, found, isNew⟩ := new
    have allowed : Server.ItemStep item.status .inProgress := Or.inl ⟨isNew, rfl⟩
    refine ⟨Server.itemUpdatedOrder itemId .inProgress order, ?_, ?_,
      canBegin_itemUpdatedOrder found (by decide),
      worstLength_begin found isNew countable orderId⟩
    · rw [Server.perform_updateItem stored found allowed, Server.itemUpdated_myOrders,
        Finmap.lookup_insert]
    · exact Server.length_items_itemUpdatedOrder itemId .inProgress order
  · refine ⟨order, ?_, rfl, (Finset.erase_eq_of_notMem new).symm, rfl⟩
    rw [Server.perform_updateItem_refused]
    · exact stored
    · rintro ⟨other, item, isStored, found, ⟨isNew, -⟩ | ⟨-, impossible⟩⟩
      · rw [stored, Option.some.injEq] at isStored
        subst isStored
        rw [mem_canBegin_iff, found, Option.map_some, isNew] at new
        exact new rfl
      · cases impossible

/-- Once the kitchen has begun everything, the order is as long as it gets. -/
theorem performAll_begin
    {server : Server}
    {orderId : Int32}
    {order : Order}
    (stored : server.myOrders.lookup orderId = some order)
    (countable : order.items.length < 2 ^ 31)
    (itemIds : List Int32) :
    ∃ begun, (server.performAll (itemIds.map fun itemId =>
          .updateItem orderId itemId .inProgress)).myOrders.lookup orderId = some begun ∧
      canBegin begun = canBegin order \ itemIds.toFinset ∧
      worstLength orderId begun = worstLength orderId order := by
  induction itemIds generalizing server order with
  | nil => exact ⟨order, stored, by simp, rfl⟩
  | cons itemId itemIds inductionHypothesis =>
      obtain ⟨next, isStored, length, erased, same⟩ := perform_begin stored countable itemId
      obtain ⟨begun, isBegun, remaining, worst⟩ :=
        inductionHypothesis isStored (by rwa [length])
      refine ⟨begun, isBegun, ?_, worst.trans same⟩
      rw [remaining, erased, List.toFinset_cons]
      ext other
      simp only [Finset.mem_sdiff, Finset.mem_erase, Finset.mem_insert]
      tauto

theorem exists_begun
    {server : Server}
    {orderId : Int32}
    {order : Order}
    (stored : server.myOrders.lookup orderId = some order)
    (countable : order.items.length < 2 ^ 31) :
    ∃ operations begun, Server.creations operations = 0 ∧
      (server.performAll operations).myOrders.lookup orderId = some begun ∧
      shownLength orderId begun = worstLength orderId order := by
  obtain ⟨begun, isBegun, remaining, worst⟩ :=
    performAll_begin stored countable (order.items.map Item.id)
  have nothing : canBegin begun = ∅ := by
    rw [remaining, Finset.sdiff_eq_empty_iff_subset]
    exact Finset.filter_subset _ _
  refine ⟨_, begun, ?_, isBegun, ?_⟩
  · simp [Server.creations, List.countP_map, Server.Operation.creates, Function.comp_def]
  · rw [← worst, worstLength, nothing]
    simp

end Display
end OrderTracking
