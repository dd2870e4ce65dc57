import Mathlib.Data.List.Chain
import OrderTracking.Server.Step

/-!
# The life of an order

What the displays are told of one order after its creation: steps of its items
and of its status, each step forward. The steps determine the statuses reached:
those broadcast for the order increase, and those broadcast for an item increase
by one each time.
-/

namespace OrderTracking

/-- The place of a status in NEW < IN_PROGRESS < DONE. -/
def ItemStatus.rank : ItemStatus → Nat
  | .invalid => 0
  | .new => 1
  | .inProgress => 2
  | .done => 3

/-- The place of a status in NEW < IN_PROGRESS < DONE < DELIVERED. -/
def OrderStatus.rank : OrderStatus → Nat
  | .invalid => 0
  | .new => 1
  | .inProgress => 2
  | .done => 3
  | .delivered => 4

namespace Server

/-- The broadcasts after the creation of an order that is still stored, and the
order they lead to. -/
inductive Life (orderId : Int32) (first : Order) : List Message → Order → Prop
  | created : Life orderId first [] first
  | itemUpdated (messages : List Message) (order : Order) (itemId : Int32)
      (item : Item) (newStatus : ItemStatus)
      (life : Life orderId first messages order)
      (found : order.findItem itemId = some item)
      (allowed : ItemStep item.status newStatus) :
      Life orderId first
        (messages ++ [.ofItemStatus .dispItemUpdate orderId itemId newStatus])
        (order.setItemStatus itemId newStatus)
  | orderUpdated (messages : List Message) (order : Order)
      (newStatus : OrderStatus)
      (life : Life orderId first messages order)
      (later : order.status.rank < newStatus.rank)
      (notDelivered : newStatus ≠ .delivered) :
      Life orderId first
        (messages ++ [.ofOrderStatus .dispOrderUpdate orderId newStatus])
        (order.setStatus newStatus)

/-- The statuses broadcast for an order. -/
def orderStatuses (messages : List Message) : List OrderStatus :=
  (messages.filter fun message => message.type = .dispOrderUpdate).map
    Message.orderStatus

/-- The statuses broadcast for an item of an order. -/
def itemStatuses (itemId : Int32) (messages : List Message) : List ItemStatus :=
  (messages.filter fun message =>
    message.type = .dispItemUpdate ∧ message.itemId = itemId).map Message.itemStatus

/-- Each status is higher than the one before. -/
def Increasing (statuses : List OrderStatus) : Prop :=
  statuses.IsChain fun before after => before.rank < after.rank

/-- Each status is the next one after the one before. -/
def Successive (statuses : List ItemStatus) : Prop :=
  statuses.IsChain fun before after => after.rank = before.rank + 1

@[simp] theorem orderStatuses_nil : orderStatuses [] = [] := rfl

@[simp] theorem orderStatuses_append (left right : List Message) :
    orderStatuses (left ++ right) = orderStatuses left ++ orderStatuses right := by
  simp [orderStatuses]

@[simp] theorem orderStatuses_itemUpdate
    (orderId itemId : Int32) (status : ItemStatus) :
    orderStatuses [.ofItemStatus .dispItemUpdate orderId itemId status] = [] := rfl

@[simp] theorem orderStatuses_orderUpdate
    (orderId : Int32) (status : OrderStatus) :
    orderStatuses [.ofOrderStatus .dispOrderUpdate orderId status] = [status] := rfl

@[simp] theorem itemStatuses_nil (itemId : Int32) : itemStatuses itemId [] = [] := rfl

@[simp] theorem itemStatuses_append (itemId : Int32) (left right : List Message) :
    itemStatuses itemId (left ++ right) =
      itemStatuses itemId left ++ itemStatuses itemId right := by
  simp [itemStatuses]

@[simp] theorem itemStatuses_orderUpdate
    (itemId orderId : Int32) (status : OrderStatus) :
    itemStatuses itemId [.ofOrderStatus .dispOrderUpdate orderId status] = [] := rfl

@[simp] theorem itemStatuses_itemUpdate_self
    (orderId itemId : Int32) (status : ItemStatus) :
    itemStatuses itemId [.ofItemStatus .dispItemUpdate orderId itemId status] =
      [status] := by
  simp [itemStatuses, Message.ofItemStatus]

theorem itemStatuses_itemUpdate_other
    {itemId other : Int32}
    (different : other ≠ itemId)
    (orderId : Int32)
    (status : ItemStatus) :
    itemStatuses other [.ofItemStatus .dispItemUpdate orderId itemId status] = [] := by
  simp [itemStatuses, Message.ofItemStatus, different.symm]

/-- A chain that ends in a related element can be extended by it. -/
theorem isChain_concat
    {α : Type}
    {related : α → α → Prop}
    {front : List α}
    {last next : α}
    (chain : front.IsChain related)
    (ends : front.getLast? = some last)
    (step : related last next) :
    (front ++ [next]).IsChain related := by
  rw [List.isChain_append]
  refine ⟨chain, List.isChain_singleton next, ?_⟩
  intro before isLast after isNext
  rw [ends, Option.mem_some_iff] at isLast
  rw [List.head?_cons, Option.mem_some_iff] at isNext
  rw [← isLast, ← isNext]
  exact step

namespace Life

variable {orderId : Int32} {first order : Order} {messages : List Message}

/-- The broadcast statuses of the order increase up to its current status. -/
theorem orderStatuses_increase
    (life : Life orderId first messages order) :
    Increasing (first.status :: orderStatuses messages) ∧
      (first.status :: orderStatuses messages).getLast? = some order.status := by
  induction life with
  | created => exact ⟨List.isChain_singleton _, rfl⟩
  | itemUpdated messages order itemId item newStatus life found allowed
      inductionHypothesis =>
      simpa using inductionHypothesis
  | orderUpdated messages order newStatus life later notDelivered
      inductionHypothesis =>
      obtain ⟨increasing, last⟩ := inductionHypothesis
      rw [orderStatuses_append, orderStatuses_orderUpdate, ← List.cons_append]
      exact ⟨isChain_concat increasing last later, List.getLast?_concat⟩

/-- The broadcast statuses of an item increase one by one up to its current
status. -/
theorem itemStatuses_succeed
    (life : Life orderId first messages order)
    {itemId : Int32}
    {item : Item}
    (found : first.findItem itemId = some item) :
    ∃ current, order.findItem itemId = some current ∧
      Successive (item.status :: itemStatuses itemId messages) ∧
      (item.status :: itemStatuses itemId messages).getLast? = some current.status := by
  induction life with
  | created => exact ⟨item, found, List.isChain_singleton _, rfl⟩
  | itemUpdated messages order updatedId updatedItem newStatus life updatedFound
      allowed inductionHypothesis =>
      obtain ⟨current, currentFound, successive, last⟩ := inductionHypothesis
      by_cases own : itemId = updatedId
      · subst own
        rw [currentFound, Option.some.injEq] at updatedFound
        subst updatedFound
        have step : newStatus.rank = current.status.rank + 1 := by
          rcases allowed with ⟨begun, rfl⟩ | ⟨finished, rfl⟩
          · rw [begun]
            rfl
          · rw [finished]
            rfl
        refine ⟨current.setStatus newStatus, ?_, ?_, ?_⟩
        · rw [Order.findItem_setItemStatus_self, currentFound]
          rfl
        · rw [itemStatuses_append, itemStatuses_itemUpdate_self, ← List.cons_append]
          exact isChain_concat successive last step
        · rw [itemStatuses_append, itemStatuses_itemUpdate_self, ← List.cons_append]
          exact List.getLast?_concat
      · refine ⟨current, ?_, ?_, ?_⟩
        · rwa [Order.findItem_setItemStatus_other own]
        · rwa [itemStatuses_append, itemStatuses_itemUpdate_other own,
            List.append_nil]
        · rwa [itemStatuses_append, itemStatuses_itemUpdate_other own,
            List.append_nil]
  | orderUpdated messages order newStatus life later notDelivered
      inductionHypothesis =>
      obtain ⟨current, currentFound, successive, last⟩ := inductionHypothesis
      exact ⟨current, currentFound, by simpa using successive, by simpa using last⟩

/-- Nothing is broadcast for items the order does not have. -/
theorem itemStatuses_eq_nil
    (life : Life orderId first messages order)
    {itemId : Int32}
    (absent : first.findItem itemId = none) :
    order.findItem itemId = none ∧ itemStatuses itemId messages = [] := by
  induction life with
  | created => exact ⟨absent, rfl⟩
  | itemUpdated messages order updatedId updatedItem newStatus life updatedFound
      allowed inductionHypothesis =>
      obtain ⟨stillAbsent, none⟩ := inductionHypothesis
      have other : itemId ≠ updatedId := by
        rintro rfl
        rw [stillAbsent] at updatedFound
        cases updatedFound
      refine ⟨?_, ?_⟩
      · rwa [Order.findItem_setItemStatus_other other]
      · rw [itemStatuses_append, none, itemStatuses_itemUpdate_other other,
          List.append_nil]
  | orderUpdated messages order newStatus life later notDelivered
      inductionHypothesis =>
      exact ⟨inductionHypothesis.1, by simpa using inductionHypothesis.2⟩

/-- The broadcasts after the creation are updates, and none is a delivery. -/
theorem messages_are_updates
    (life : Life orderId first messages order) :
    ∀ message ∈ messages,
      (message.type = .dispItemUpdate ∨ message.type = .dispOrderUpdate) ∧
        message ≠ .ofOrderStatus .dispOrderUpdate orderId .delivered := by
  induction life with
  | created => simp
  | itemUpdated messages order itemId item newStatus life found allowed
      inductionHypothesis =>
      intro message member
      rcases List.mem_append.mp member with old | new
      · exact inductionHypothesis message old
      · rw [List.mem_singleton] at new
        rw [new]
        exact ⟨Or.inl rfl, by simp [Message.ofItemStatus, Message.ofOrderStatus]⟩
  | orderUpdated messages order newStatus life later notDelivered
      inductionHypothesis =>
      intro message member
      rcases List.mem_append.mp member with old | new
      · exact inductionHypothesis message old
      · rw [List.mem_singleton] at new
        rw [new]
        exact ⟨Or.inr rfl, by simpa [Message.ofOrderStatus] using notDelivered⟩

end Life

/-! ## The server's updates are steps of a life -/

/-- A status derived from the items is unchanged or a step forward. -/
theorem newOrderStatus_cases
    (order : Order)
    (newStatus : ItemStatus) :
    newOrderStatus order newStatus = order.status ∨
      order.status.rank < (newOrderStatus order newStatus).rank ∧
        (newOrderStatus order newStatus = .inProgress ∨
          newOrderStatus order newStatus = .done) := by
  unfold newOrderStatus
  split
  · next begun =>
    right
    rw [begun.1]
    exact ⟨by decide, Or.inl rfl⟩
  · split
    · next underWay =>
      split
      · right
        refine ⟨?_, Or.inr rfl⟩
        rcases underWay with status | status <;> rw [status] <;> decide
      · exact Or.inl rfl
    · exact Or.inl rfl

/-- An item update of the server continues the life of the order. -/
theorem Life.update
    {orderId itemId : Int32}
    {first order : Order}
    {messages : List Message}
    {item : Item}
    {newStatus : ItemStatus}
    (life : Life orderId first messages order)
    (found : order.findItem itemId = some item)
    (allowed : ItemStep item.status newStatus) :
    Life orderId first
      (messages ++ itemUpdateMessages orderId itemId newStatus order)
      (itemUpdatedOrder itemId newStatus order) := by
  have updated := Life.itemUpdated messages order itemId item newStatus life found
    allowed
  rcases newOrderStatus_cases (order.setItemStatus itemId newStatus) newStatus with
    same | ⟨later, forward⟩
  · simp only [itemUpdateMessages, itemUpdatedOrder, same, if_true]
    exact updated
  · have different : newOrderStatus (order.setItemStatus itemId newStatus)
        newStatus ≠ (order.setItemStatus itemId newStatus).status := by
      intro same
      rw [same] at later
      exact Nat.lt_irrefl _ later
    have notDelivered : newOrderStatus (order.setItemStatus itemId newStatus)
        newStatus ≠ .delivered := by
      rcases forward with status | status <;> rw [status] <;> decide
    have both := Life.orderUpdated _ _ _ updated later notDelivered
    simp only [itemUpdateMessages, itemUpdatedOrder, different, if_false]
    rwa [List.append_assoc] at both

end Server
end OrderTracking
