import OrderTracking.Server.Store

/-!
# The exact effect of an update

When `update_item` and `update_order` throw, and what they do to the orders and
to the queues when they do not. On a throw they change nothing.
-/

namespace OrderTracking
namespace Server

/-- The code throws `SemanticError` on this server. -/
def ThrowsSemanticError (code : Code Server α) (server : Server) : Prop :=
  ∃ what final, code.run server = .error (.semanticError what) final

/-- Whatever the code throws on this server, it leaves it as it was. -/
def KeepsOnThrow (code : Code Server α) (server : Server) : Prop :=
  ∀ exception final, code.run server = .error exception final → final = server

/-- The messages go to the back of the queue of every registered client, and to
no other queue. -/
def Enqueues (messages : List Message) (server final : Server) : Prop :=
  ∀ client, final.queues client =
    if client ∈ server.myClients then server.queues client ++ messages
    else server.queues client

/-! ## Item updates -/

/-- The order is not stored, it has no such item, or the item may not get the
status. -/
def ItemUpdateRefused (server : Server) (orderId itemId : Int32)
    (newStatus : ItemStatus) : Prop :=
  server.myOrders.lookup orderId = none ∨
    ∃ order, server.myOrders.lookup orderId = some order ∧
      (order.findItem itemId = none ∨
        ∃ item, order.findItem itemId = some item ∧ ¬ ItemStep item.status newStatus)

/-- The status of an order after an item got a new status and left it with these
items. -/
def updatedStatus (old : OrderStatus) (newStatus : ItemStatus) (items : List Item) :
    OrderStatus :=
  if old = .new ∧ newStatus = .inProgress then .inProgress
  else if (old = .new ∨ old = .inProgress) ∧ ∀ item ∈ items, item.status = .done then
    .done
  else old

/-- The order is new or in progress, and the item update does not begin it. -/
def MayComplete (old : OrderStatus) (newStatus : ItemStatus) : Prop :=
  old = .new ∧ newStatus ≠ .inProgress ∨ old = .inProgress

/-- What holds of the new status however many items the order has: an order under
way becomes `DONE` exactly when no item that the loop visits is left, so always
when all are `DONE`. -/
structure StatusFollows (order : Order) (newStatus : ItemStatus)
    (items : List Item) (status : OrderStatus) : Prop where
  begun : order.status = .new → newStatus = .inProgress → status = .inProgress
  unchanged : order.status ≠ .new → order.status ≠ .inProgress →
    status = order.status
  unchanged_or_done : MayComplete order.status newStatus →
    status = order.status ∨ status = .done
  done : MayComplete order.status newStatus →
    (∀ item ∈ items, item.status = .done) → status = .done
  done_iff : MayComplete order.status newStatus →
    (status = .done ↔
      ∀ item ∈ { order with items := items }.visited, item.status = .done)

/-- The first item with the id got the new status, which left the order with these
items, the order got a status, nothing else changed, and the displays were told. -/
structure ItemUpdateEffect (orderId itemId : Int32) (newStatus : ItemStatus)
    (server final : Server) (order : Order) (items : List Item)
    (status : OrderStatus) : Prop where
  stored : server.myOrders.lookup orderId = some order
  first : ∃ before item after, order.items = before ++ item :: after ∧
    item.id = itemId ∧ (∀ other ∈ before, other.id ≠ itemId) ∧
    items = before ++ item.setStatus newStatus :: after
  myOrders : final.myOrders = server.myOrders.insert orderId
    { order with status := status, items := items }
  nextOrderId : final.nextOrderId = server.nextOrderId
  myClients : final.myClients = server.myClients
  queues : Enqueues
    (.ofItemStatus .dispItemUpdate orderId itemId newStatus ::
      if status = order.status then []
      else [.ofOrderStatus .dispOrderUpdate orderId status])
    server final

/-- Refusal is the negation of what an accepted update needs. -/
theorem itemUpdateRefused_iff
    {server : Server}
    {orderId itemId : Int32}
    {newStatus : ItemStatus} :
    ItemUpdateRefused server orderId itemId newStatus ↔
      ¬ ∃ order item, server.myOrders.lookup orderId = some order ∧
        order.findItem itemId = some item ∧ ItemStep item.status newStatus := by
  unfold ItemUpdateRefused
  cases server.myOrders.lookup orderId with
  | none => simp
  | some order =>
      cases found : order.findItem itemId with
      | none => simp [found]
      | some item => simp [found]

theorem updateItem_throws_iff
    (server : Server)
    (orderId itemId : Int32)
    (newStatus : ItemStatus) :
    ThrowsSemanticError (updateItem orderId itemId newStatus) server ↔
      ItemUpdateRefused server orderId itemId newStatus := by
  rw [itemUpdateRefused_iff]
  constructor
  · rintro ⟨what, final, thrown⟩ ⟨order, item, stored, found, allowed⟩
    rw [updateItem_run stored found allowed] at thrown
    cases thrown
  · intro refused
    obtain ⟨what, thrown⟩ := updateItem_run_refused refused
    exact ⟨what, server, thrown⟩

theorem updateItem_keepsOnThrow
    (server : Server)
    (orderId itemId : Int32)
    (newStatus : ItemStatus) :
    KeepsOnThrow (updateItem orderId itemId newStatus) server := by
  intro exception final thrown
  by_cases accepted : ∃ order item, server.myOrders.lookup orderId = some order ∧
      order.findItem itemId = some item ∧ ItemStep item.status newStatus
  · obtain ⟨order, item, stored, found, allowed⟩ := accepted
    rw [updateItem_run stored found allowed] at thrown
    cases thrown
  · obtain ⟨what, refused⟩ := updateItem_run_refused accepted
    rw [refused] at thrown
    cases thrown
    rfl

/-- Where the item that `find_item` finds stands in the order. -/
theorem exists_split_of_findItem
    {order : Order}
    {itemId : Int32}
    {item : Item}
    (found : order.findItem itemId = some item)
    (newStatus : ItemStatus) :
    ∃ before after, order.items = before ++ item :: after ∧
      (∀ other ∈ before, other.id ≠ itemId) ∧
      (order.setItemStatus itemId newStatus).items =
        before ++ item.setStatus newStatus :: after := by
  obtain ⟨isItem, before, after, split, others⟩ :=
    List.find?_eq_some_iff_append.mp found
  have different : ∀ other ∈ before, other.id ≠ itemId := by
    simpa using others
  have noMatch : (before.any fun other => other.id == itemId) = false := by
    simpa using different
  refine ⟨before, after, split, different, ?_⟩
  rw [Order.setItemStatus, split, updateFirst_append, noMatch]
  simp only [Bool.false_eq_true, if_false, updateFirst, if_pos isItem]

/-- The order status the source derives is the one above when an `int` can count
the items. -/
theorem newOrderStatus_eq_updatedStatus
    {order : Order}
    (countable : order.items.length < 2 ^ 31)
    (newStatus : ItemStatus) :
    newOrderStatus order newStatus =
      updatedStatus order.status newStatus order.items := by
  unfold newOrderStatus updatedStatus
  rw [Order.visited_of_length_lt countable]
  split
  · rfl
  · by_cases underWay : order.status = .inProgress ∨ order.status = .new
    · simp [underWay, Or.comm.mp underWay]
    · have notUnderWay : ¬ (order.status = .new ∨ order.status = .inProgress) :=
        fun either => underWay (Or.comm.mp either)
      simp [underWay, notUnderWay]

theorem not_begun_of_mayComplete
    {old : OrderStatus}
    {newStatus : ItemStatus}
    (underWay : MayComplete old newStatus) :
    ¬ (old = .new ∧ newStatus = .inProgress) := by
  rintro ⟨rfl, rfl⟩
  rcases underWay with ⟨-, notBegin⟩ | inProgress
  · exact notBegin rfl
  · cases inProgress

/-- The order status the source derives for an order of any length. -/
theorem statusFollows_newOrderStatus
    (order : Order)
    (itemId : Int32)
    (newStatus : ItemStatus) :
    StatusFollows order newStatus (order.setItemStatus itemId newStatus).items
      (newOrderStatus (order.setItemStatus itemId newStatus) newStatus) := by
  have done_iff : MayComplete order.status newStatus →
      (newOrderStatus (order.setItemStatus itemId newStatus) newStatus = .done ↔
        ∀ item ∈ (order.setItemStatus itemId newStatus).visited,
          item.status = .done) := by
    intro underWay
    constructor
    · intro isDone item visited
      by_contra notDone
      have kept : newOrderStatus (order.setItemStatus itemId newStatus) newStatus =
          order.status :=
        newOrderStatus_incomplete (not_begun_of_mayComplete underWay)
          fun allDone => notDone (allDone item visited)
      rcases underWay with ⟨new, -⟩ | inProgress
      · rw [kept, new] at isDone
        cases isDone
      · rw [kept, inProgress] at isDone
        cases isDone
    · intro allDone
      exact newOrderStatus_complete underWay.symm allDone
  constructor
  case begun =>
    rintro new rfl
    exact newOrderStatus_begin new
  case unchanged =>
    intro notNew notInProgress
    simp [newOrderStatus, notNew, notInProgress]
  case unchanged_or_done =>
    intro underWay
    by_cases allDone : ∀ item ∈ (order.setItemStatus itemId newStatus).visited,
        item.status = .done
    · exact Or.inr ((done_iff underWay).mpr allDone)
    · exact Or.inl (newOrderStatus_incomplete (not_begun_of_mayComplete underWay) allDone)
  case done =>
    intro underWay allDone
    -- the loop visits no others, even where it misses some
    exact (done_iff underWay).mpr fun item visited =>
      allDone item (Order.mem_of_mem_visited visited)
  case done_iff => exact done_iff

/-- An accepted item update has the effect it should have, with the order status
the source derives. -/
theorem updateItem_effect
    {server : Server}
    {orderId itemId : Int32}
    {newStatus : ItemStatus}
    (accepted : ¬ ItemUpdateRefused server orderId itemId newStatus) :
    ∃ final order, (updateItem orderId itemId newStatus).run server = .ok () final ∧
      ItemUpdateEffect orderId itemId newStatus server final order
        (order.setItemStatus itemId newStatus).items
        (newOrderStatus (order.setItemStatus itemId newStatus) newStatus) := by
  rw [itemUpdateRefused_iff, not_not] at accepted
  obtain ⟨order, item, stored, found, allowed⟩ := accepted
  obtain ⟨before, after, split, others, updated⟩ :=
    exists_split_of_findItem found newStatus
  refine ⟨_, order, updateItem_run stored found allowed, ?_⟩
  exact
    { stored := stored
      first := ⟨before, item, after, split, Order.findItem_id found, others, updated⟩
      myOrders := itemUpdated_myOrders orderId itemId newStatus order server
      nextOrderId := itemUpdated_nextOrderId orderId itemId newStatus order server
      myClients := itemUpdated_myClients orderId itemId newStatus order server
      queues := itemUpdated_queues orderId itemId newStatus order server }

/-! ## Order updates -/

/-- The order is not stored, or it is not done, or the status is another one than
`DELIVERED`. -/
def OrderUpdateRefused (server : Server) (orderId : Int32) (newStatus : OrderStatus) :
    Prop :=
  server.myOrders.lookup orderId = none ∨
    ∃ order, server.myOrders.lookup orderId = some order ∧
      ¬ (order.status = .done ∧ newStatus = .delivered)

/-- The order was removed, nothing else changed, and the displays were told. -/
structure OrderUpdateEffect (orderId : Int32) (server final : Server) : Prop where
  myOrders : final.myOrders = server.myOrders.erase orderId
  nextOrderId : final.nextOrderId = server.nextOrderId
  myClients : final.myClients = server.myClients
  queues : Enqueues [.ofOrderStatus .dispOrderUpdate orderId .delivered] server final

theorem orderUpdateRefused_iff
    {server : Server}
    {orderId : Int32}
    {newStatus : OrderStatus} :
    OrderUpdateRefused server orderId newStatus ↔
      ¬ ((∃ order, server.myOrders.lookup orderId = some order ∧
        order.status = .done) ∧ newStatus = .delivered) := by
  unfold OrderUpdateRefused
  cases server.myOrders.lookup orderId with
  | none => simp
  | some order => simp

theorem updateOrder_throws_iff
    (server : Server)
    (orderId : Int32)
    (newStatus : OrderStatus) :
    ThrowsSemanticError (updateOrder orderId newStatus) server ↔
      OrderUpdateRefused server orderId newStatus := by
  rw [orderUpdateRefused_iff]
  constructor
  · rintro ⟨what, final, thrown⟩ ⟨⟨order, stored, done⟩, rfl⟩
    rw [updateOrder_run stored done] at thrown
    cases thrown
  · intro refused
    obtain ⟨what, thrown⟩ := updateOrder_run_refused refused
    exact ⟨what, server, thrown⟩

theorem updateOrder_keepsOnThrow
    (server : Server)
    (orderId : Int32)
    (newStatus : OrderStatus) :
    KeepsOnThrow (updateOrder orderId newStatus) server := by
  intro exception final thrown
  by_cases accepted : (∃ order, server.myOrders.lookup orderId = some order ∧
      order.status = .done) ∧ newStatus = .delivered
  · obtain ⟨⟨order, stored, done⟩, rfl⟩ := accepted
    rw [updateOrder_run stored done] at thrown
    cases thrown
  · obtain ⟨what, refused⟩ := updateOrder_run_refused accepted
    rw [refused] at thrown
    cases thrown
    rfl

theorem updateOrder_effect
    {server : Server}
    {orderId : Int32}
    {newStatus : OrderStatus}
    (accepted : ¬ OrderUpdateRefused server orderId newStatus) :
    ∃ final, (updateOrder orderId newStatus).run server = .ok () final ∧
      OrderUpdateEffect orderId server final := by
  rw [orderUpdateRefused_iff, not_not] at accepted
  obtain ⟨⟨order, stored, done⟩, rfl⟩ := accepted
  refine ⟨_, updateOrder_run stored done, ?_⟩
  exact
    { myOrders := delivered_myOrders orderId server
      nextOrderId := delivered_nextOrderId orderId server
      myClients := delivered_myClients orderId server
      queues := delivered_queues orderId server }

/-! ## Both updates -/

/-- Both updates throw `SemanticError` exactly when they should, change nothing
when they throw, and otherwise do exactly what they should. Only for the test for
`DONE` does an `int` have to count the order's items. -/
theorem updates_exact (server : Server) (orderId : Int32) :
    (∀ itemId newStatus,
      (ThrowsSemanticError (updateItem orderId itemId newStatus) server ↔
        ItemUpdateRefused server orderId itemId newStatus) ∧
      KeepsOnThrow (updateItem orderId itemId newStatus) server ∧
      (¬ ItemUpdateRefused server orderId itemId newStatus →
        ∃ final order items status,
          (updateItem orderId itemId newStatus).run server = .ok () final ∧
          ItemUpdateEffect orderId itemId newStatus server final order items status ∧
          StatusFollows order newStatus items status ∧
          (order.items.length < 2 ^ 31 →
            status = updatedStatus order.status newStatus items))) ∧
    ∀ newStatus,
      (ThrowsSemanticError (updateOrder orderId newStatus) server ↔
        OrderUpdateRefused server orderId newStatus) ∧
      KeepsOnThrow (updateOrder orderId newStatus) server ∧
      (¬ OrderUpdateRefused server orderId newStatus →
        ∃ final, (updateOrder orderId newStatus).run server = .ok () final ∧
          OrderUpdateEffect orderId server final) := by
  constructor
  · intro itemId newStatus
    refine ⟨updateItem_throws_iff server orderId itemId newStatus,
      updateItem_keepsOnThrow server orderId itemId newStatus, ?_⟩
    intro accepted
    obtain ⟨final, order, ran, effect⟩ := updateItem_effect accepted
    refine ⟨final, order, _, _, ran, effect, ?_, ?_⟩
    · exact statusFollows_newOrderStatus order itemId newStatus
    intro countable
    apply newOrderStatus_eq_updatedStatus
    rwa [Order.setItemStatus, length_updateFirst]
  · intro newStatus
    exact ⟨updateOrder_throws_iff server orderId newStatus,
      updateOrder_keepsOnThrow server orderId newStatus, updateOrder_effect⟩

/-- An order of so many soups, all on the stove. -/
def soups (count : Nat) : Order where
  id := 1000
  status := .inProgress
  items := List.replicate count ⟨1000, 1, .inProgress, ascii "soup", 1⟩

theorem findItem_soups
    {count : Nat}
    (positive : 0 < count) :
    (soups count).findItem 1 = some ⟨1000, 1, .inProgress, ascii "soup", 1⟩ := by
  obtain ⟨others, rfl⟩ := Nat.exists_eq_add_of_lt positive
  rw [Nat.zero_add]
  rfl

/-- One of several soups is finished, the others are not. -/
theorem soups_not_all_done
    {count : Nat}
    (several : 1 < count) :
    ¬ ∀ item ∈ ((soups count).setItemStatus 1 .done).items, item.status = .done := by
  obtain ⟨others, rfl⟩ := Nat.exists_eq_add_of_lt several
  rw [Nat.add_comm 1 others]
  intro allDone
  have second := allDone ⟨1000, 1, .inProgress, ascii "soup", 1⟩
    (by simp [soups, Order.setItemStatus, List.replicate_succ, updateFirst])
  cases second

/-- The loop over an order looks at none of `2 ^ 31` items. -/
theorem visited_soups
    {count : Nat}
    (many : count = 2 ^ 31) :
    ((soups count).setItemStatus 1 .done).visited = [] := by
  rw [Order.visited_eq_nil_iff, Order.getNumItems_toInt, Order.setItemStatus,
    length_updateFirst, soups, List.length_replicate, Int.bmod_def]
  omega

theorem newOrderStatus_soups
    {count : Nat}
    (unseen : ((soups count).setItemStatus 1 .done).visited = []) :
    newOrderStatus ((soups count).setItemStatus 1 .done) .done = .done := by
  apply newOrderStatus_complete (Or.inl rfl)
  simp [unseen]

/-- A server that stores this order. -/
def cooking (order : Order) : Server :=
  setOrder order.id order initial

theorem lookup_cooking (order : Order) :
    (cooking order).myOrders.lookup order.id = some order :=
  Finmap.lookup_insert _

/-- Finishing a soup the loop does not look at is not followed by the status
above. -/
theorem soups_done_early_of_unseen
    {count : Nat}
    (several : 1 < count)
    (unseen : ((soups count).setItemStatus 1 .done).visited = []) :
    ¬ ItemUpdateRefused (cooking (soups count)) 1000 1 .done ∧
      ¬ ∃ final order items,
        (updateItem 1000 1 .done).run (cooking (soups count)) = .ok () final ∧
        ItemUpdateEffect 1000 1 .done (cooking (soups count)) final order items
          (updatedStatus order.status .done items) := by
  have stored : (cooking (soups count)).myOrders.lookup 1000 = some (soups count) :=
    lookup_cooking (soups count)
  have found := findItem_soups (Nat.lt_of_succ_lt several)
  have allowed : ItemStep .inProgress .done := by decide
  constructor
  · rw [itemUpdateRefused_iff, not_not]
    exact ⟨_, _, stored, found, allowed⟩
  · rintro ⟨final, order, items, ran, effect⟩
    rw [updateItem_run stored found allowed] at ran
    obtain rfl : itemUpdated 1000 1 .done (soups count) (cooking (soups count)) =
        final := by
      cases ran
      rfl
    have changed := congrArg (Finmap.lookup 1000) effect.myOrders
    rw [itemUpdated_myOrders, Finmap.lookup_insert, Finmap.lookup_insert,
      Option.some.injEq] at changed
    have isItems := congrArg Order.items changed
    have isStatus := congrArg Order.status changed
    have same := effect.stored
    rw [stored, Option.some.injEq] at same
    rw [itemUpdatedOrder_status, newOrderStatus_soups unseen] at isStatus
    rw [itemUpdatedOrder_items] at isItems
    have notDone := soups_not_all_done several
    rw [isItems] at notDone
    subst same
    simp [updatedStatus, notDone, soups] at isStatus

theorem soups_done_early :
    ¬ ItemUpdateRefused (cooking (soups (2 ^ 31))) 1000 1 .done ∧
      ¬ ∃ final order items,
        (updateItem 1000 1 .done).run (cooking (soups (2 ^ 31))) = .ok () final ∧
        ItemUpdateEffect 1000 1 .done (cooking (soups (2 ^ 31))) final order items
          (updatedStatus order.status .done items) :=
  soups_done_early_of_unseen (Nat.one_lt_two_pow (by decide)) (visited_soups rfl)

end Server
end OrderTracking
