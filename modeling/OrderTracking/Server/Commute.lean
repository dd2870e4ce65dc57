import OrderTracking.Server.Step

/-!
# Updates of different items commute

Calls of `update_item` that name different items leave the same orders behind in
whatever order they are executed, and each of them returns or throws what it
would alone. The order status is the delicate part: it is derived from the old
one, the new item status and a scan of the items.
-/

namespace OrderTracking
namespace Server

/-- A call of `update_item`. -/
structure ItemUpdate where
  orderId : Int32
  itemId : Int32
  newStatus : ItemStatus

namespace ItemUpdate

/-- The item a call names. -/
def target (update : ItemUpdate) : Int32 × Int32 :=
  (update.orderId, update.itemId)

/-- The code of a call. -/
def code (update : ItemUpdate) : Code Server Unit :=
  updateItem update.orderId update.itemId update.newStatus

/-- The server after a call. -/
def after (server : Server) (update : ItemUpdate) : Server :=
  perform server (.updateItem update.orderId update.itemId update.newStatus)

/-- What a call returns or throws. -/
def outcome (server : Server) (update : ItemUpdate) : Except Exception Unit :=
  match update.code.run server with
  | .ok _ _ => .ok ()
  | .error exception _ => .error exception

/-- The calls with their outcomes, executed one after the other. -/
def outcomes : Server → List ItemUpdate → List (ItemUpdate × Except Exception Unit)
  | _, [] => []
  | server, update :: updates =>
      (update, update.outcome server) :: outcomes (after server update) updates

/-- The server after the calls, executed one after the other. -/
def afterAll (server : Server) (updates : List ItemUpdate) : Server :=
  updates.foldl after server

end ItemUpdate

/-! ## The order status -/

/-- The loop that looks for an unfinished item finds none. -/
def Completed (order : Order) : Prop :=
  ∀ item ∈ order.visited, item.status = .done

instance (order : Order) : Decidable (Completed order) :=
  inferInstanceAs (Decidable (∀ item ∈ order.visited, item.status = .done))

/-- The status an order gets from its old one, the new status of an item and
whether it is completed then. -/
def derivedStatus (old : OrderStatus) (newStatus : ItemStatus) (completed : Bool) :
    OrderStatus :=
  if old = .new ∧ newStatus = .inProgress then .inProgress
  else if old = .inProgress ∨ old = .new then
    if completed then .done else old
  else old

theorem newOrderStatus_eq (order : Order) (newStatus : ItemStatus) :
    newOrderStatus order newStatus =
      derivedStatus order.status newStatus (Completed order) := by
  have scan : (order.visited.all fun item => item.status = .done) =
      decide (Completed order) := by
    rw [Bool.eq_iff_iff, List.all_eq_true, decide_eq_true_iff]
    simp only [decide_eq_true_eq, Completed]
  rw [newOrderStatus, derivedStatus, scan]

/-- Two derivations commute when an order stays completed, and is completed by the
begin of an item only if it was so before. -/
theorem derivedStatus_comm
    {leftStatus rightStatus : ItemStatus}
    {afterLeft afterRight afterBoth : Bool}
    (left : leftStatus = .inProgress ∨ leftStatus = .done)
    (right : rightStatus = .inProgress ∨ rightStatus = .done)
    (leftLater : afterLeft → afterBoth)
    (rightLater : afterRight → afterBoth)
    (leftEarlier : leftStatus ≠ .done → afterBoth → afterRight)
    (rightEarlier : rightStatus ≠ .done → afterBoth → afterLeft)
    (old : OrderStatus) :
    derivedStatus (derivedStatus old leftStatus afterLeft) rightStatus afterBoth =
      derivedStatus (derivedStatus old rightStatus afterRight) leftStatus afterBoth := by
  cases afterBoth with
  | false =>
      obtain rfl : afterLeft = false := by simpa using leftLater
      obtain rfl : afterRight = false := by simpa using rightLater
      rcases left with rfl | rfl <;> rcases right with rfl | rfl <;>
        cases old <;> rfl
  | true =>
      rcases left with rfl | rfl
      · -- the left update begins an item, so the right one alone completes the order
        obtain rfl : afterRight = true := by simpa using leftEarlier
        rcases right with rfl | rfl
        · obtain rfl : afterLeft = true := by simpa using rightEarlier
          rfl
        · cases old <;> cases afterLeft <;> rfl
      · rcases right with rfl | rfl
        · obtain rfl : afterLeft = true := by simpa using rightEarlier
          cases old <;> cases afterRight <;> rfl
        · cases old <;> cases afterLeft <;> cases afterRight <;> rfl

/-- An order that counts as completed still does after an update of an item that
is not done, and the other way round: the loop does not reach that item. -/
theorem visited_of_completed
    {order : Order}
    {itemId : Int32}
    {item : Item}
    (completed : Completed order)
    (found : order.findItem itemId = some item)
    (notDone : item.status ≠ .done)
    (newStatus : ItemStatus) :
    (order.setItemStatus itemId newStatus).visited = order.visited := by
  apply Order.visited_setItemStatus_of_unseen
  intro other member same
  have seen : item ∈ order.visited :=
    find?_mem_take found member (by simpa using same)
  exact notDone (completed item seen)

theorem Completed.later
    {order : Order}
    {itemId : Int32}
    {item : Item}
    (completed : Completed order)
    (found : order.findItem itemId = some item)
    (notDone : item.status ≠ .done)
    (newStatus : ItemStatus) :
    Completed (order.setItemStatus itemId newStatus) := by
  rw [Completed, visited_of_completed completed found notDone]
  exact completed

/-- An order that is completed although an item has just been begun was completed
before. -/
theorem Completed.earlier
    {order : Order}
    {itemId : Int32}
    {item : Item}
    {newStatus : ItemStatus}
    (completed : Completed (order.setItemStatus itemId newStatus))
    (found : order.findItem itemId = some item)
    (notDone : newStatus ≠ .done) :
    Completed order := by
  have foundUpdated : (order.setItemStatus itemId newStatus).findItem itemId =
      some (item.setStatus newStatus) := by
    rw [Order.findItem_setItemStatus_self, found]
    rfl
  have back : (order.setItemStatus itemId newStatus).setItemStatus itemId item.status =
      order := by
    rw [Order.setItemStatus_setItemStatus_self, Order.setItemStatus_eq_self found]
  have unseen := visited_of_completed completed foundUpdated notDone item.status
  rw [back] at unseen
  rw [Completed, unseen]
  exact completed

/-- The status a second item update derives. -/
theorem itemUpdatedOrder_itemUpdatedOrder
    (first second : Int32)
    (firstStatus secondStatus : ItemStatus)
    (order : Order) :
    itemUpdatedOrder second secondStatus (itemUpdatedOrder first firstStatus order) =
      ((order.setItemStatus first firstStatus).setItemStatus second
        secondStatus).setStatus
        (derivedStatus
          (derivedStatus order.status firstStatus
            (Completed (order.setItemStatus first firstStatus)))
          secondStatus
          (Completed
            ((order.setItemStatus first firstStatus).setItemStatus second
              secondStatus))) := by
  simp only [itemUpdatedOrder, newOrderStatus_eq, Order.setItemStatus_setStatus,
    Order.setStatus_setStatus, Order.setItemStatus_status, Order.setStatus_status]
  rfl

theorem ItemStep.target
    {cur newStatus : ItemStatus}
    (allowed : ItemStep cur newStatus) :
    newStatus = .inProgress ∨ newStatus = .done := by
  rcases allowed with ⟨-, begun⟩ | ⟨-, finished⟩
  · exact Or.inl begun
  · exact Or.inr finished

theorem ItemStep.source_ne_done
    {cur newStatus : ItemStatus}
    (allowed : ItemStep cur newStatus) :
    cur ≠ .done := by
  rcases allowed with ⟨new, -⟩ | ⟨begun, -⟩
  · simp [new]
  · simp [begun]

/-- Updates of two items of an order commute. -/
theorem itemUpdatedOrder_comm
    {order : Order}
    {left right : Int32}
    {leftItem rightItem : Item}
    {leftStatus rightStatus : ItemStatus}
    (different : left ≠ right)
    (leftFound : order.findItem left = some leftItem)
    (leftAllowed : ItemStep leftItem.status leftStatus)
    (rightFound : order.findItem right = some rightItem)
    (rightAllowed : ItemStep rightItem.status rightStatus) :
    itemUpdatedOrder right rightStatus (itemUpdatedOrder left leftStatus order) =
      itemUpdatedOrder left leftStatus (itemUpdatedOrder right rightStatus order) := by
  have rightFound' : (order.setItemStatus left leftStatus).findItem right =
      some rightItem := by
    rwa [Order.findItem_setItemStatus_other different.symm]
  have leftFound' : (order.setItemStatus right rightStatus).findItem left =
      some leftItem := by
    rwa [Order.findItem_setItemStatus_other different]
  have both := Order.setItemStatus_comm different leftStatus rightStatus order
  rw [itemUpdatedOrder_itemUpdatedOrder, itemUpdatedOrder_itemUpdatedOrder, ← both]
  congr 1
  apply derivedStatus_comm leftAllowed.target rightAllowed.target
  · simp only [decide_eq_true_eq]
    intro completed
    exact completed.later rightFound' rightAllowed.source_ne_done rightStatus
  · simp only [decide_eq_true_eq]
    intro completed
    rw [both]
    exact completed.later leftFound' leftAllowed.source_ne_done leftStatus
  · simp only [decide_eq_true_eq]
    intro begun completed
    rw [both] at completed
    exact completed.earlier leftFound' begun
  · simp only [decide_eq_true_eq]
    intro begun completed
    exact completed.earlier rightFound' begun

/-! ## The stored orders -/

namespace ItemUpdate

variable {orders : OrderMap} {update other : ItemUpdate}

/-- The status of the item a call names, if the order is stored and has it. -/
def found (orders : OrderMap) (update : ItemUpdate) : Option (Option ItemStatus) :=
  (orders.lookup update.orderId).map fun order =>
    (order.findItem update.itemId).map Item.status

/-- The call is accepted when these orders are stored. -/
def Applies (orders : OrderMap) (update : ItemUpdate) : Prop :=
  ∃ cur, found orders update = some (some cur) ∧ ItemStep cur update.newStatus

/-- The stored orders after a call. -/
def updatedOrders (orders : OrderMap) (update : ItemUpdate) : OrderMap :=
  (after { initial with myOrders := orders } update).myOrders

theorem applies_iff :
    Applies orders update ↔
      ∃ order item, orders.lookup update.orderId = some order ∧
        order.findItem update.itemId = some item ∧
        ItemStep item.status update.newStatus := by
  unfold Applies found
  constructor
  · rintro ⟨cur, isFound, allowed⟩
    obtain ⟨order, stored, hasItem⟩ := Option.map_eq_some_iff.mp isFound
    obtain ⟨item, itemFound, rfl⟩ := Option.map_eq_some_iff.mp hasItem
    exact ⟨order, item, stored, itemFound, allowed⟩
  · rintro ⟨order, item, stored, itemFound, allowed⟩
    exact ⟨item.status, by simp [stored, itemFound], allowed⟩

theorem after_of_not_applies
    {server : Server}
    (refused : ¬ Applies server.myOrders update) :
    after server update = server := by
  rw [applies_iff] at refused
  exact perform_updateItem_refused refused

/-- An accepted call replaces the order it names. -/
theorem after_myOrders_of_stored
    {server : Server}
    {order : Order}
    {item : Item}
    (stored : server.myOrders.lookup update.orderId = some order)
    (itemFound : order.findItem update.itemId = some item)
    (allowed : ItemStep item.status update.newStatus) :
    (after server update).myOrders = server.myOrders.insert update.orderId
      (itemUpdatedOrder update.itemId update.newStatus order) := by
  rw [after, perform_updateItem stored itemFound allowed, itemUpdated_myOrders]

theorem updatedOrders_of_stored
    {order : Order}
    {item : Item}
    (stored : orders.lookup update.orderId = some order)
    (itemFound : order.findItem update.itemId = some item)
    (allowed : ItemStep item.status update.newStatus) :
    updatedOrders orders update = orders.insert update.orderId
      (itemUpdatedOrder update.itemId update.newStatus order) :=
  after_myOrders_of_stored stored itemFound allowed

theorem updatedOrders_of_not_applies
    (refused : ¬ Applies orders update) :
    updatedOrders orders update = orders := by
  rw [updatedOrders, after_of_not_applies refused]

/-- Nothing but the stored orders decides what a call does to them. -/
theorem after_myOrders (server : Server) (update : ItemUpdate) :
    (after server update).myOrders = updatedOrders server.myOrders update := by
  by_cases applies : Applies server.myOrders update
  · obtain ⟨order, item, stored, itemFound, allowed⟩ := applies_iff.mp applies
    rw [after_myOrders_of_stored stored itemFound allowed,
      updatedOrders_of_stored stored itemFound allowed]
  · rw [after_of_not_applies applies, updatedOrders_of_not_applies applies]

/-- A call does not touch the items others name. -/
theorem found_updatedOrders
    (different : update.target ≠ other.target) :
    found (updatedOrders orders update) other = found orders other := by
  by_cases applies : Applies orders update
  · obtain ⟨order, item, stored, itemFound, allowed⟩ := applies_iff.mp applies
    rw [updatedOrders_of_stored stored itemFound allowed]
    by_cases sameOrder : other.orderId = update.orderId
    · have otherItem : other.itemId ≠ update.itemId := by
        intro sameItem
        exact different (Prod.ext sameOrder.symm sameItem.symm)
      have kept : (itemUpdatedOrder update.itemId update.newStatus order).findItem
          other.itemId = order.findItem other.itemId :=
        Order.findItem_setItemStatus_other otherItem update.newStatus order
      rw [found, found, sameOrder, Finmap.lookup_insert, stored, Option.map_some,
        Option.map_some, kept]
    · rw [found, found, Finmap.lookup_insert_of_ne _ sameOrder]
  · rw [updatedOrders_of_not_applies applies]

theorem applies_updatedOrders
    (different : update.target ≠ other.target) :
    Applies (updatedOrders orders update) other ↔ Applies orders other := by
  rw [Applies, Applies, found_updatedOrders different]

/-- Two accepted calls commute. -/
theorem updatedOrders_comm_of_applies
    (different : update.target ≠ other.target)
    (applies : Applies orders update)
    (otherApplies : Applies orders other) :
    updatedOrders (updatedOrders orders update) other =
      updatedOrders (updatedOrders orders other) update := by
  obtain ⟨order, item, stored, itemFound, allowed⟩ := applies_iff.mp applies
  obtain ⟨otherOrder, otherItem, otherStored, otherFound, otherAllowed⟩ :=
    applies_iff.mp otherApplies
  rw [updatedOrders_of_stored stored itemFound allowed,
    updatedOrders_of_stored otherStored otherFound otherAllowed]
  by_cases sameOrder : update.orderId = other.orderId
  · have differentItem : update.itemId ≠ other.itemId := by
      intro sameItem
      exact different (Prod.ext sameOrder sameItem)
    rw [← sameOrder] at otherStored ⊢
    rw [stored, Option.some.injEq] at otherStored
    subst otherStored
    have otherFound' : (itemUpdatedOrder update.itemId update.newStatus order).findItem
        other.itemId = some otherItem := by
      rw [← otherFound]
      exact Order.findItem_setItemStatus_other differentItem.symm update.newStatus order
    have itemFound' : (itemUpdatedOrder other.itemId other.newStatus order).findItem
        update.itemId = some item := by
      rw [← itemFound]
      exact Order.findItem_setItemStatus_other differentItem other.newStatus order
    rw [updatedOrders_of_stored (by rw [← sameOrder, Finmap.lookup_insert]) otherFound'
        otherAllowed,
      updatedOrders_of_stored (Finmap.lookup_insert _) itemFound' allowed, ← sameOrder,
      Finmap.insert_insert, Finmap.insert_insert,
      itemUpdatedOrder_comm differentItem itemFound allowed otherFound otherAllowed]
  · have otherStored' : (orders.insert update.orderId
        (itemUpdatedOrder update.itemId update.newStatus order)).lookup other.orderId =
          some otherOrder := by
      rwa [Finmap.lookup_insert_of_ne _ (Ne.symm sameOrder)]
    have stored' : (orders.insert other.orderId
        (itemUpdatedOrder other.itemId other.newStatus otherOrder)).lookup
          update.orderId = some order := by
      rwa [Finmap.lookup_insert_of_ne _ sameOrder]
    rw [updatedOrders_of_stored otherStored' otherFound otherAllowed,
      updatedOrders_of_stored stored' itemFound allowed,
      Finmap.insert_insert_of_ne _ sameOrder]

/-- Calls that name different items commute. -/
theorem updatedOrders_comm
    (different : update.target ≠ other.target)
    (orders : OrderMap) :
    updatedOrders (updatedOrders orders update) other =
      updatedOrders (updatedOrders orders other) update := by
  by_cases applies : Applies orders update
  · by_cases otherApplies : Applies orders other
    · exact updatedOrders_comm_of_applies different applies otherApplies
    · have still := (applies_updatedOrders different).not.mpr otherApplies
      rw [updatedOrders_of_not_applies still, updatedOrders_of_not_applies otherApplies]
  · have still := (applies_updatedOrders different.symm).not.mpr applies
    rw [updatedOrders_of_not_applies applies, updatedOrders_of_not_applies still]

/-! ## Outcomes -/

/-- The text a refused call throws, from the status of the item it names. -/
def refusal (newStatus : ItemStatus) : Option (Option ItemStatus) → String
  | none => "Order with order_id is not found"
  | some none => "Item with item_id is not found"
  | some (some cur) =>
      if cur = newStatus then
        "Must enter a new status. Cannot update to item's current status"
      else "Status change is invalid"

theorem outcome_of_applies
    {server : Server}
    (applies : Applies server.myOrders update) :
    update.outcome server = .ok () := by
  obtain ⟨order, item, stored, itemFound, allowed⟩ := applies_iff.mp applies
  rw [outcome, code, updateItem_run stored itemFound allowed]

theorem outcome_of_not_applies
    {server : Server}
    (refused : ¬ Applies server.myOrders update) :
    update.outcome server = .error
      (.semanticError (refusal update.newStatus (found server.myOrders update))) := by
  rw [applies_iff] at refused
  unfold outcome code found
  simp only [updateItem, EStateM.run_bind, EStateM.run_get]
  cases stored : server.myOrders.lookup update.orderId with
  | none => rfl
  | some order =>
      cases itemFound : order.findItem update.itemId with
      | none =>
          simp only [Option.map_some, itemFound]
          rfl
      | some item =>
          have notAllowed : ¬ ((item.status = .new ∧ update.newStatus = .inProgress) ∨
              (item.status = .inProgress ∧ update.newStatus = .done)) := fun allowed =>
            refused ⟨order, item, stored, itemFound, allowed⟩
          simp only [Option.map_some, itemFound, notAllowed, if_false, refusal]
          by_cases same : item.status = update.newStatus
          · simp only [same, if_true]
            rfl
          · simp only [same, if_false]
            rfl

/-- Nothing but the status of the item it names decides what a call returns or
throws. -/
theorem outcome_eq_of_found
    {server final : Server}
    (same : found final.myOrders update = found server.myOrders update) :
    update.outcome final = update.outcome server := by
  by_cases applies : Applies server.myOrders update
  · have finalApplies : Applies final.myOrders update := by
      rwa [Applies, same]
    rw [outcome_of_applies applies, outcome_of_applies finalApplies]
  · have finalRefused : ¬ Applies final.myOrders update := by
      rwa [Applies, same]
    rw [outcome_of_not_applies applies, outcome_of_not_applies finalRefused, same]

/-- A call returns or throws `SemanticError`. -/
theorem outcome_cases (server : Server) (update : ItemUpdate) :
    update.outcome server = .ok () ∨
      ∃ what, update.outcome server = .error (.semanticError what) := by
  by_cases applies : Applies server.myOrders update
  · exact Or.inl (outcome_of_applies applies)
  · exact Or.inr ⟨_, outcome_of_not_applies applies⟩

/-- Among calls that name different items, each has the outcome it would have
alone. -/
theorem outcomes_eq_map
    {updates : List ItemUpdate}
    (different : updates.Pairwise fun update other => update.target ≠ other.target)
    (server : Server) :
    outcomes server updates =
      updates.map fun update => (update, update.outcome server) := by
  induction updates generalizing server with
  | nil => rfl
  | cons update updates inductionHypothesis =>
      rw [List.pairwise_cons] at different
      rw [outcomes, inductionHypothesis different.2, List.map_cons]
      congr 1
      apply List.map_congr_left
      intro other member
      have sameOutcome : other.outcome (after server update) = other.outcome server := by
        apply outcome_eq_of_found
        rw [after_myOrders, found_updatedOrders (different.1 other member)]
      rw [sameOutcome]

theorem afterAll_myOrders (server : Server) (updates : List ItemUpdate) :
    (afterAll server updates).myOrders =
      updates.foldl updatedOrders server.myOrders := by
  induction updates generalizing server with
  | nil => rfl
  | cons update updates inductionHypothesis =>
      rw [afterAll, List.foldl_cons, List.foldl_cons, ← after_myOrders]
      exact inductionHypothesis (after server update)

/-- Calls that name different items leave the same orders behind in every
permutation, and each returns or throws `SemanticError` the same in all of them. -/
theorem updates_commute
    {updates permuted : List ItemUpdate}
    (different : updates.Pairwise fun update other => update.target ≠ other.target)
    (permutation : updates.Perm permuted)
    (server : Server) :
    (afterAll server permuted).myOrders = (afterAll server updates).myOrders ∧
      (outcomes server permuted).Perm (outcomes server updates) ∧
      ∀ update result, (update, result) ∈ outcomes server updates →
        result = .ok () ∨ ∃ what, result = .error (.semanticError what) := by
  have symmetric : Std.Symm fun update other : ItemUpdate =>
      update.target ≠ other.target := ⟨fun _ _ => Ne.symm⟩
  have differentPermuted := different.perm permutation fun {_ _} => Ne.symm
  refine ⟨?_, ?_, ?_⟩
  · rw [afterAll_myOrders, afterAll_myOrders]
    apply permutation.symm.foldl_eq'
    intro update member other otherMember orders
    by_cases same : update = other
    · rw [same]
    · exact updatedOrders_comm (differentPermuted.forall member otherMember same) orders
  · rw [outcomes_eq_map different, outcomes_eq_map differentPermuted]
    exact (permutation.map _).symm
  · intro update result member
    rw [outcomes_eq_map different, List.mem_map] at member
    obtain ⟨_, -, equal⟩ := member
    cases equal
    exact outcome_cases server update

/-- The server has an order of a soup and a tea. -/
def soupAndTea : Server :=
  initial.created
    ⟨1, .new, [⟨1, 1, .new, ascii "soup", 1⟩, ⟨1, 2, .new, ascii "tea", 1⟩]⟩

/-- The soup and the tea are begun in either order. -/
theorem updates_commute_soupAndTea :
    (afterAll soupAndTea [⟨1000, 2, .inProgress⟩, ⟨1000, 1, .inProgress⟩]).myOrders =
      (afterAll soupAndTea
        [⟨1000, 1, .inProgress⟩, ⟨1000, 2, .inProgress⟩]).myOrders :=
  (updates_commute (by decide) (List.Perm.swap _ _ []) soupAndTea).1

end ItemUpdate

end Server
end OrderTracking
