import OrderTracking.Server.Step

/-!
# The order store

While few orders are created, and each is a fresh one as the updater builds it,
every stored order carries its key as id, and its status is the summary of the
statuses of its items.
-/

namespace OrderTracking
namespace Server

/-- The order `orderNew` builds from what it reads for each item: an id, a
description and a quantity. -/
def orderNew (numItems : Int32) (getItem : Nat → Int32 × Bytes × Int32) : Order where
  id := 1
  status := .new
  items := (List.range numItems.toInt.toNat).map fun i =>
    let (itemId, desc, qty) := getItem i
    ⟨1, itemId, .new, desc, qty⟩

/-- A new order of at least one item, none of them begun. The updater counts the
items with an `int`. -/
structure Fresh (order : Order) : Prop where
  nonempty : order.items ≠ []
  countable : order.items.length < 2 ^ 31
  status : order.status = .new
  items : ∀ item ∈ order.items, item.status = .new

/-- The updater builds fresh orders. -/
theorem fresh_orderNew
    {numItems : Int32}
    (positive : 1 ≤ numItems)
    (getItem : Nat → Int32 × Bytes × Int32) :
    Fresh (orderNew numItems getItem) := by
  rw [Int32.le_iff_toInt_le, Int32.toInt_one] at positive
  have bound := numItems.toInt_lt
  have count : (orderNew numItems getItem).items.length = numItems.toInt.toNat := by
    simp [orderNew]
  refine ⟨?_, by omega, rfl, ?_⟩
  · rw [← List.length_pos_iff]
    omega
  · intro item member
    obtain ⟨i, -, rfl⟩ := List.mem_map.mp member
    rfl

/-- The order's status is the summary of its items' statuses. -/
structure Summarized (order : Order) : Prop where
  new : order.status = .new ↔ ∀ item ∈ order.items, item.status = .new
  done : order.status = .done ↔ ∀ item ∈ order.items, item.status = .done
  inProgress : order.status = .inProgress ↔
    ¬ (∀ item ∈ order.items, item.status = .new) ∧
      ¬ ∀ item ∈ order.items, item.status = .done

/-- What holds of the order stored under an id. -/
structure Stored (orderId : Int32) (order : Order) : Prop where
  id : order.id = orderId
  itemIds : ∀ item ∈ order.items, item.orderId = orderId
  nonempty : order.items ≠ []
  countable : order.items.length < 2 ^ 31
  summarized : Summarized order

/-! ## Item updates keep the summary -/

theorem newOrderStatus_begin
    {order : Order}
    (new : order.status = .new) :
    newOrderStatus order .inProgress = .inProgress := by
  simp [newOrderStatus, new]

theorem newOrderStatus_complete
    {order : Order}
    {newStatus : ItemStatus}
    (underWay : order.status = .inProgress ∨
      order.status = .new ∧ newStatus ≠ .inProgress)
    (done : ∀ item ∈ order.visited, item.status = .done) :
    newOrderStatus order newStatus = .done := by
  have test : (order.visited.all fun item => item.status = .done) = true := by
    simpa using done
  rcases underWay with inProgress | ⟨new, notBegin⟩
  · simp [newOrderStatus, inProgress, test]
  · simp [newOrderStatus, new, notBegin, test]

theorem newOrderStatus_incomplete
    {order : Order}
    {newStatus : ItemStatus}
    (notBegin : ¬ (order.status = .new ∧ newStatus = .inProgress))
    (notDone : ¬ ∀ item ∈ order.visited, item.status = .done) :
    newOrderStatus order newStatus = order.status := by
  have test : (order.visited.all fun item => item.status = .done) = false := by
    rw [← Bool.not_eq_true]
    simpa using notDone
  simp [newOrderStatus, notBegin, test]

/-- The updated item is one of the order's items afterwards. -/
theorem mem_setItemStatus
    {order : Order}
    {itemId : Int32}
    {item : Item}
    (found : order.findItem itemId = some item)
    (newStatus : ItemStatus) :
    item.setStatus newStatus ∈ (order.setItemStatus itemId newStatus).items :=
  change_mem_updateFirst found

/-- Beginning an item does not complete its order. -/
theorem newOrderStatus_inProgress
    {order : Order}
    {itemId : Int32}
    {item : Item}
    (found : order.findItem itemId = some item)
    (notNew : order.status ≠ .new)
    (countable : order.items.length < 2 ^ 31) :
    newOrderStatus (order.setItemStatus itemId .inProgress) .inProgress =
      order.status := by
  apply newOrderStatus_incomplete
  · exact fun begins => notNew begins.1
  · intro allDone
    rw [Order.visited_setItemStatus countable] at allDone
    cases allDone _ (mem_setItemStatus found .inProgress)

/-- Finishing an item may complete its order, and does nothing else to it. -/
theorem newOrderStatus_done (order : Order) :
    newOrderStatus order .done = order.status ∨
      newOrderStatus order .done = .done := by
  unfold newOrderStatus
  rw [if_neg (by simp)]
  split_ifs
  · exact Or.inr rfl
  · exact Or.inl rfl
  · exact Or.inl rfl

theorem summarized_inProgress
    {order : Order}
    (status : order.status = .inProgress)
    (notNew : ¬ ∀ item ∈ order.items, item.status = .new)
    (notDone : ¬ ∀ item ∈ order.items, item.status = .done) :
    Summarized order := by
  constructor
  · simp [status, notNew]
  · simp [status, notDone]
  · simp [status, notNew, notDone]

theorem summarized_done
    {order : Order}
    (status : order.status = .done)
    (notNew : ¬ ∀ item ∈ order.items, item.status = .new)
    (done : ∀ item ∈ order.items, item.status = .done) :
    Summarized order := by
  constructor
  · simp [status, notNew]
  · simp only [status, true_iff]
    exact done
  · simp only [status, reduceCtorEq, false_iff]
    exact fun neither => neither.2 done

/-- Beginning or finishing an item keeps the summary. -/
theorem summarized_itemUpdatedOrder
    {order : Order}
    {itemId : Int32}
    {item : Item}
    {newStatus : ItemStatus}
    (summarized : Summarized order)
    (countable : order.items.length < 2 ^ 31)
    (found : order.findItem itemId = some item)
    (allowed : ItemStep item.status newStatus) :
    Summarized (itemUpdatedOrder itemId newStatus order) := by
  have member := Order.findItem_mem found
  have changed := mem_setItemStatus found newStatus
  have visited := Order.visited_setItemStatus countable itemId newStatus
  have notNew : newStatus ≠ .new →
      ¬ ∀ item ∈ (order.setItemStatus itemId newStatus).items, item.status = .new :=
    fun different all => different (all _ changed)
  rcases allowed with ⟨begun, rfl⟩ | ⟨finished, rfl⟩
  · -- Some item is now in progress, so the order is neither new nor done.
    have notDone : ¬ ∀ item ∈ (order.setItemStatus itemId .inProgress).items,
        item.status = .done := by
      intro all
      cases all _ changed
    have oldNotDone : ¬ ∀ item ∈ order.items, item.status = .done := by
      intro all
      rw [all item member] at begun
      cases begun
    have status : newOrderStatus (order.setItemStatus itemId .inProgress)
        .inProgress = .inProgress := by
      by_cases allNew : ∀ item ∈ order.items, item.status = .new
      · exact newOrderStatus_begin (summarized.new.mpr allNew)
      · have inProgress := summarized.inProgress.mpr ⟨allNew, oldNotDone⟩
        rw [newOrderStatus_incomplete (by simp [inProgress]) (visited ▸ notDone)]
        exact inProgress
    exact summarized_inProgress status (notNew (by decide)) notDone
  · -- Some item was in progress, so the order was; it is done if all items are.
    have inProgress : order.status = .inProgress := by
      rw [summarized.inProgress]
      constructor
      · intro all
        rw [all item member] at finished
        cases finished
      · intro all
        rw [all item member] at finished
        cases finished
    by_cases allDone : ∀ item ∈ (order.setItemStatus itemId .done).items,
        item.status = .done
    · have status : newOrderStatus (order.setItemStatus itemId .done) .done = .done :=
        newOrderStatus_complete (Or.inl inProgress) (visited ▸ allDone)
      exact summarized_done status (notNew (by decide)) allDone
    · have status : newOrderStatus (order.setItemStatus itemId .done) .done =
          .inProgress := by
        rw [newOrderStatus_incomplete (by simp) (visited ▸ allDone)]
        exact inProgress
      exact summarized_inProgress status (notNew (by decide)) allDone

/-! ## The stored orders -/

/-- A fresh order is stored under its new id as it should be. -/
theorem stored_assigned
    {order : Order}
    (fresh : Fresh order)
    (orderId : Int32) :
    Stored orderId (assigned orderId order) := by
  have items := assigned_items fresh.countable orderId
  have allNew : ∀ item ∈ (assigned orderId order).items, item.status = .new := by
    rw [items]
    intro item member
    obtain ⟨old, isOld, rfl⟩ := List.mem_map.mp member
    exact fresh.items old isOld
  have status : (assigned orderId order).status = .new := fresh.status
  have nonempty : (assigned orderId order).items ≠ [] := by
    rw [items]
    simpa using fresh.nonempty
  refine ⟨rfl, ?_, nonempty, ?_, ?_⟩
  · rw [items]
    intro item member
    obtain ⟨old, -, rfl⟩ := List.mem_map.mp member
    rfl
  · rw [items, List.length_map]
    exact fresh.countable
  · have notDone : ¬ ∀ item ∈ (assigned orderId order).items, item.status = .done := by
      intro all
      obtain ⟨item, member⟩ := List.exists_mem_of_ne_nil _ nonempty
      have both := allNew item member
      rw [all item member] at both
      cases both
    constructor
    · simp only [status, true_iff]
      exact allNew
    · simp [fresh.status, notDone]
    · simp only [status, reduceCtorEq, false_iff]
      exact fun neither => neither.1 allNew

theorem stored_itemUpdatedOrder
    {orderId itemId : Int32}
    {order : Order}
    {item : Item}
    {newStatus : ItemStatus}
    (stored : Stored orderId order)
    (found : order.findItem itemId = some item)
    (allowed : ItemStep item.status newStatus) :
    Stored orderId (itemUpdatedOrder itemId newStatus order) := by
  have length := length_items_itemUpdatedOrder itemId newStatus order
  refine ⟨stored.id, ?_, ?_, ?_, ?_⟩
  · intro other member
    have isOld : other.orderId ∈ order.items.map Item.orderId := by
      rw [← orderIds_itemUpdatedOrder itemId newStatus order]
      exact List.mem_map_of_mem member
    obtain ⟨old, isItem, same⟩ := List.mem_map.mp isOld
    rw [← same]
    exact stored.itemIds old isItem
  · rw [← List.length_pos_iff, length, List.length_pos_iff]
    exact stored.nonempty
  · rw [length]
    exact stored.countable
  · exact summarized_itemUpdatedOrder stored.summarized stored.countable found allowed

/-- The invariant of the order store. -/
structure StoreInvariant (server : Server) : Prop where
  started : 1000 ≤ server.nextOrderId
  keys : ∀ orderId order, server.myOrders.lookup orderId = some order →
    1000 ≤ orderId ∧ orderId < server.nextOrderId
  orders : ∀ orderId order, server.myOrders.lookup orderId = some order →
    Stored orderId order

/-- What one call preserves. -/
theorem StoreInvariant.change
    {operation : Operation}
    {server final : Server}
    (invariant : StoreInvariant server)
    (change : Change operation server final)
    (fresh : ∀ order, operation = .createOrder order → Fresh order)
    (room : operation.creates → server.nextOrderId < server.nextOrderId + 1) :
    StoreInvariant final := by
  cases change with
  | refused => exact invariant
  | created order =>
      have room := room rfl
      have started := invariant.started
      refine ⟨?_, ?_, ?_⟩
      · rw [created_nextOrderId]
        exact Int32.le_trans started (Int32.le_of_lt room)
      · rw [created_myOrders, created_nextOrderId]
        refine forall_lookup_insert (fun orderId stored _ lookup => ?_) ⟨started, room⟩
        have old := invariant.keys orderId stored lookup
        exact ⟨old.1, Int32.lt_trans old.2 room⟩
      · rw [created_myOrders]
        exact forall_lookup_insert
          (fun orderId stored _ lookup => invariant.orders orderId stored lookup)
          (stored_assigned (fresh order rfl) _)
  | itemUpdated orderId itemId newStatus order item _ stored found allowed =>
      refine ⟨by simpa using invariant.started, ?_, ?_⟩
      · rw [itemUpdated_myOrders, itemUpdated_nextOrderId]
        exact forall_lookup_insert
          (fun other result _ lookup => invariant.keys other result lookup)
          (invariant.keys orderId order stored)
      · rw [itemUpdated_myOrders]
        exact forall_lookup_insert
          (fun other result _ lookup => invariant.orders other result lookup)
          (stored_itemUpdatedOrder (invariant.orders orderId order stored) found allowed)
  | delivered orderId order _ stored done =>
      refine ⟨by simpa using invariant.started, ?_, ?_⟩
      · rw [delivered_myOrders, delivered_nextOrderId]
        exact forall_lookup_erase
          fun other result _ lookup => invariant.keys other result lookup
      · rw [delivered_myOrders]
        exact forall_lookup_erase
          fun other result _ lookup => invariant.orders other result lookup

/-- What a run preserves. -/
theorem storeInvariant_performAll
    {operations : List Operation}
    (fresh : ∀ order, .createOrder order ∈ operations → Fresh order)
    (few : creations operations < 2 ^ 31 - 1000) :
    StoreInvariant (performAll initial operations) := by
  induction operations using List.reverseRecOn with
  | nil =>
      refine ⟨Int32.le_refl 1000, ?_, ?_⟩
      · intro orderId order stored
        cases stored
      · intro orderId order stored
        cases stored
  | append_singleton operations operation inductionHypothesis =>
      rw [creations_concat] at few
      have earlier := inductionHypothesis
        (fun order member => fresh order (List.mem_append_left _ member)) (by omega)
      rw [performAll_concat]
      refine earlier.change (change_perform _ operation) ?_ ?_
      · rintro order rfl
        exact fresh order (by simp)
      · intro creates
        rw [creates, if_pos rfl] at few
        exact nextOrderId_lt_succ few

/-- While few fresh orders are created, whatever calls succeed or fail, every
stored order has its key as id, in itself and in its items, the key is one given
out before, and the order's status is exactly the summary of its items'. -/
theorem store_summarized
    {operations : List Operation}
    (fresh : ∀ order, .createOrder order ∈ operations → Fresh order)
    (few : creations operations < 2 ^ 31 - 1000)
    {orderId : Int32}
    {order : Order}
    (stored : (performAll initial operations).myOrders.lookup orderId = some order) :
    (1000 ≤ orderId ∧ orderId < (performAll initial operations).nextOrderId) ∧
      order.id = orderId ∧
      (∀ item ∈ order.items, item.orderId = orderId) ∧
      (order.status = .new ↔ ∀ item ∈ order.items, item.status = .new) ∧
      (order.status = .done ↔ ∀ item ∈ order.items, item.status = .done) ∧
      (order.status = .inProgress ↔
        ¬ (∀ item ∈ order.items, item.status = .new) ∧
          ¬ ∀ item ∈ order.items, item.status = .done) ∧
      order.status ≠ .delivered ∧
      order.status ≠ .invalid := by
  have invariant := storeInvariant_performAll fresh few
  have good := invariant.orders orderId order stored
  have summary := good.summarized
  have oneOfThree : order.status = .new ∨ order.status = .done ∨
      order.status = .inProgress := by
    rw [summary.new, summary.done, summary.inProgress]
    by_cases allNew : ∀ item ∈ order.items, item.status = .new
    · exact Or.inl allNew
    · by_cases allDone : ∀ item ∈ order.items, item.status = .done
      · exact Or.inr (Or.inl allDone)
      · exact Or.inr (Or.inr ⟨allNew, allDone⟩)
  refine ⟨invariant.keys orderId order stored, good.id, good.itemIds, summary.new,
    summary.done, summary.inProgress, ?_, ?_⟩
  · rcases oneOfThree with status | status | status <;> simp [status]
  · rcases oneOfThree with status | status | status <;> simp [status]

/-- The updater's order of one tea. -/
def tea : Order := orderNew 1 fun _ => (1, ascii "tea", 1)

theorem fresh_tea : Fresh tea :=
  fresh_orderNew (by decide) _

/-- The tea is ordered and begun. -/
def teaBegun : List Operation :=
  [.createOrder tea, .updateItem 1000 1 .inProgress]

theorem store_summarized_teaBegun :
    ∃ order, (performAll initial teaBegun).myOrders.lookup 1000 = some order ∧
      order.id = 1000 ∧ ∀ item ∈ order.items, item.orderId = 1000 := by
  have stored : (performAll initial teaBegun).myOrders.lookup 1000 =
      some ⟨1000, .inProgress, [⟨1000, 1, .inProgress, ascii "tea", 1⟩]⟩ := by
    rfl
  have fresh : ∀ order, .createOrder order ∈ teaBegun → Fresh order := by
    intro order member
    simp only [teaBegun, List.mem_cons, Operation.createOrder.injEq, reduceCtorEq,
      List.not_mem_nil, or_false] at member
    rw [member]
    exact fresh_tea
  have checked := store_summarized fresh (by decide) stored
  exact ⟨_, stored, checked.2.1, checked.2.2.1⟩

end Server
end OrderTracking
