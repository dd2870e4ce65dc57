import OrderTracking.Server.Life
import OrderTracking.Server.Store

/-!
# Orders the kitchen completes

The stored order is where a sequence of item updates leads from the created
order. An order that starts out new, with every item new that can be addressed,
becomes done only after each of its items was begun and finished, and after it
was itself announced as in progress and as done. An order that cannot be
completed never becomes done.
-/

namespace OrderTracking
namespace Server

/-- The broadcasts of a sequence of item updates of an order, and the order they
lead to. -/
inductive History (orderId : Int32) (first : Order) : List Message → Order → Prop
  | created : History orderId first [] first
  | updated (messages : List Message) (order : Order) (itemId : Int32)
      (item : Item) (newStatus : ItemStatus)
      (history : History orderId first messages order)
      (found : order.findItem itemId = some item)
      (allowed : ItemStep item.status newStatus) :
      History orderId first
        (messages ++ itemUpdateMessages orderId itemId newStatus order)
        (itemUpdatedOrder itemId newStatus order)

theorem History.life
    {orderId : Int32}
    {first order : Order}
    {messages : List Message}
    (history : History orderId first messages order) :
    Life orderId first messages order := by
  induction history with
  | created => exact .created
  | updated messages order itemId item newStatus history found allowed
      inductionHypothesis =>
      exact inductionHypothesis.update found allowed

/-! ## Orders that cannot be completed -/

/-- Some item cannot be addressed, because an earlier one has its id, and is not
done. -/
def Shadowed (order : Order) : Prop :=
  ∃ front item back, order.items = front ++ item :: back ∧
    item.id ∈ front.map Item.id ∧ item.status ≠ .done

/-- No update, or no sequence of updates, completes the order. -/
def Stuck (order : Order) : Prop :=
  (∀ item ∈ order.items, item.status = .done) ∨ Shadowed order

/-- Every item that can be addressed is new. -/
def AllNew (order : Order) : Prop :=
  ∀ itemId item, order.findItem itemId = some item → item.status = .new

/-- An order that is delivered only after the kitchen has made it, if it is ever
delivered. -/
structure Sound (order : Order) : Prop where
  countable : order.items.length < 2 ^ 31
  cases : order.status = .delivered ∨ (order.status ≠ .done ∧ Stuck order) ∨
    (order.status = .new ∧ AllNew order)

/-- A shadowed item is never updated. -/
theorem shadowed_itemUpdatedOrder
    {order : Order}
    (shadowed : Shadowed order)
    (itemId : Int32)
    (newStatus : ItemStatus) :
    Shadowed (itemUpdatedOrder itemId newStatus order) := by
  obtain ⟨front, item, back, split, shadow, notDone⟩ := shadowed
  have items : (itemUpdatedOrder itemId newStatus order).items =
      updateFirst (fun item => item.id == itemId) (Item.setStatus newStatus)
        order.items := rfl
  by_cases inFront : front.any fun item => item.id == itemId
  · refine ⟨updateFirst (fun item => item.id == itemId) (Item.setStatus newStatus)
      front, item, back, ?_, ?_, notDone⟩
    · rw [items, split, updateFirst_append, if_pos inFront]
    · rw [map_updateFirst Item.id]
      · exact shadow
      · intro other
        rfl
  · have different : (item.id == itemId) = false := by
      rw [beq_eq_false_iff_ne]
      rintro rfl
      obtain ⟨earlier, member, same⟩ := List.mem_map.mp shadow
      exact inFront (List.any_eq_true.mpr ⟨earlier, member, by simpa using same⟩)
    refine ⟨front, item, updateFirst (fun item => item.id == itemId)
      (Item.setStatus newStatus) back, ?_, shadow, notDone⟩
    rw [items, split, updateFirst_append, if_neg inFront, updateFirst]
    simp [different]

theorem Shadowed.not_all_done
    {order : Order}
    (shadowed : Shadowed order) :
    ¬ ∀ item ∈ order.items, item.status = .done := by
  obtain ⟨front, item, back, split, -, notDone⟩ := shadowed
  exact fun all => notDone (all item (by simp [split]))

namespace History

variable {orderId : Int32} {first order : Order} {messages : List Message}

theorem length_items
    (history : History orderId first messages order) :
    order.items.length = first.items.length := by
  induction history with
  | created => rfl
  | updated messages order itemId item newStatus history found allowed
      inductionHypothesis =>
      rw [← inductionHypothesis]
      exact length_items_itemUpdatedOrder itemId newStatus order

theorem id_eq
    (history : History orderId first messages order) :
    order.id = first.id := by
  induction history with
  | created => rfl
  | updated messages order itemId item newStatus history found allowed
      inductionHypothesis => exact inductionHypothesis

/-- Item updates leave the order ids of the items alone. -/
theorem items_orderId
    (history : History orderId first messages order) :
    order.items.map Item.orderId = first.items.map Item.orderId := by
  induction history with
  | created => rfl
  | updated messages order itemId item newStatus history found allowed
      inductionHypothesis =>
      rw [← inductionHypothesis]
      exact orderIds_itemUpdatedOrder itemId newStatus order

theorem shadowed
    (history : History orderId first messages order)
    (shadowed : Shadowed first) : Shadowed order := by
  induction history with
  | created => exact shadowed
  | updated messages order itemId item newStatus history found allowed
      inductionHypothesis =>
      exact shadowed_itemUpdatedOrder inductionHypothesis itemId newStatus

/-- An order all of whose items are done is never updated. -/
theorem eq_first
    (history : History orderId first messages order)
    (done : ∀ item ∈ first.items, item.status = .done) : order = first := by
  induction history with
  | created => rfl
  | updated messages order itemId item newStatus history found allowed
      inductionHypothesis =>
      have isDone := done item (inductionHypothesis ▸ Order.findItem_mem found)
      rw [isDone] at allowed
      rcases allowed with ⟨new, -⟩ | ⟨inProgress, -⟩
      · cases new
      · cases inProgress

/-- An order that became done has only items that are done. -/
theorem all_done
    (history : History orderId first messages order)
    (countable : first.items.length < 2 ^ 31)
    (notDone : first.status ≠ .done)
    (done : order.status = .done) :
    ∀ item ∈ order.items, item.status = .done := by
  induction history with
  | created => exact absurd done notDone
  | updated messages order itemId item newStatus history found allowed
      inductionHypothesis =>
      have visited := Order.visited_setItemStatus
        (by rwa [history.length_items]) itemId newStatus
      by_cases all : ∀ item ∈ (order.setItemStatus itemId newStatus).items,
          item.status = .done
      · exact all
      · -- The status was done before, so there was nothing left to update.
        have derived : newOrderStatus (order.setItemStatus itemId newStatus)
            newStatus = .done := done
        have notBegin : ¬ (order.status = .new ∧ newStatus = .inProgress) := by
          rintro ⟨new, rfl⟩
          have begun : newOrderStatus (order.setItemStatus itemId .inProgress)
              .inProgress = .inProgress := newOrderStatus_begin new
          rw [begun] at derived
          cases derived
        have unchanged : newOrderStatus (order.setItemStatus itemId newStatus)
            newStatus = order.status := by
          apply newOrderStatus_incomplete
          · exact notBegin
          · rwa [visited]
        rw [unchanged] at derived
        have isDone := inductionHypothesis derived item (Order.findItem_mem found)
        rw [isDone] at allowed
        rcases allowed with ⟨new, -⟩ | ⟨inProgress, -⟩
        · cases new
        · cases inProgress

/-- A stuck order does not become done. -/
theorem not_done_of_stuck
    (history : History orderId first messages order)
    (countable : first.items.length < 2 ^ 31)
    (notDone : first.status ≠ .done)
    (stuck : Stuck first) : order.status ≠ .done := by
  intro done
  rcases stuck with allDone | shadowed
  · rw [history.eq_first allDone] at done
    exact notDone done
  · exact (history.shadowed shadowed).not_all_done
      (history.all_done countable notDone done)

/-- A new order whose items are new is announced as in progress first. -/
theorem begins
    (history : History orderId first messages order)
    (new : first.status = .new)
    (allNew : AllNew first) :
    (order = first ∧ messages = []) ∨
      order.status ≠ .new ∧ ∃ rest, orderStatuses messages = .inProgress :: rest := by
  induction history with
  | created => exact Or.inl ⟨rfl, rfl⟩
  | updated messages order itemId item newStatus history found allowed
      inductionHypothesis =>
      right
      rcases inductionHypothesis with ⟨rfl, rfl⟩ | ⟨begun, rest, announced⟩
      · -- The first update begins an item, and the order with it.
        have isNew := allNew itemId item found
        rw [isNew] at allowed
        rcases allowed with ⟨-, rfl⟩ | ⟨inProgress, -⟩
        · have status : newOrderStatus (order.setItemStatus itemId .inProgress)
              .inProgress = .inProgress := newOrderStatus_begin new
          have changed : ¬ OrderStatus.inProgress =
              (order.setItemStatus itemId .inProgress).status := by
            rw [Order.setItemStatus_status, new]
            decide
          refine ⟨?_, [], ?_⟩
          · simp [itemUpdatedOrder, status]
          · simp only [itemUpdateMessages, status, changed, if_false]
            rfl
        · cases inProgress
      · refine ⟨?_, rest ++ orderStatuses
          (itemUpdateMessages orderId itemId newStatus order), ?_⟩
        · intro stillNew
          have derived : newOrderStatus (order.setItemStatus itemId newStatus)
              newStatus = .new := stillNew
          rcases newOrderStatus_cases (order.setItemStatus itemId newStatus)
              newStatus with same | ⟨-, forward⟩
          · exact begun (same.symm.trans derived)
          · rw [derived] at forward
            rcases forward with status | status <;> cases status
        · rw [orderStatuses_append, announced, List.cons_append]

end History

/-! ## What was announced about a completed order -/

/-- What the kitchen and the displays have seen of an order before it may be
delivered. -/
structure Made (orderId : Int32) (order : Order) (broadcasts : List Message) : Prop where
  done : ∀ item ∈ order.items, item.status = .done
  itemUpdates : ∀ item ∈ order.items,
    [.ofItemStatus .dispItemUpdate orderId item.id .inProgress,
      .ofItemStatus .dispItemUpdate orderId item.id .done].Sublist broadcasts
  orderUpdates :
    [.ofOrderStatus .dispOrderUpdate orderId .inProgress,
      .ofOrderStatus .dispOrderUpdate orderId .done].Sublist broadcasts

theorem Made.mono
    {orderId : Int32}
    {order : Order}
    {fewer more : List Message}
    (made : Made orderId order fewer)
    (sublist : fewer.Sublist more) : Made orderId order more where
  done := made.done
  itemUpdates := fun item member => (made.itemUpdates item member).trans sublist
  orderUpdates := made.orderUpdates.trans sublist

namespace Life

variable {orderId : Int32} {first order : Order} {messages : List Message}

/-- The broadcasts of a life are told apart by their statuses. -/
theorem orderUpdates_eq
    (life : Life orderId first messages order) :
    (messages.filter fun message => message.type = .dispOrderUpdate) =
      (orderStatuses messages).map (.ofOrderStatus .dispOrderUpdate orderId) := by
  induction life with
  | created => rfl
  | itemUpdated messages order itemId item newStatus life found allowed
      inductionHypothesis =>
      rw [List.filter_append, inductionHypothesis, orderStatuses_append,
        orderStatuses_itemUpdate, List.append_nil]
      simp [Message.ofItemStatus]
  | orderUpdated messages order newStatus life later notDelivered
      inductionHypothesis =>
      rw [List.filter_append, inductionHypothesis, orderStatuses_append,
        orderStatuses_orderUpdate, List.map_append]
      simp [Message.ofOrderStatus]

theorem itemUpdates_eq
    (life : Life orderId first messages order)
    (itemId : Int32) :
    (messages.filter fun message =>
        message.type = .dispItemUpdate ∧ message.itemId = itemId) =
      (itemStatuses itemId messages).map
        (.ofItemStatus .dispItemUpdate orderId itemId) := by
  induction life with
  | created => rfl
  | itemUpdated messages order updatedId item newStatus life found allowed
      inductionHypothesis =>
      rw [List.filter_append, inductionHypothesis, itemStatuses_append,
        List.map_append]
      by_cases own : itemId = updatedId
      · subst own
        simp [itemStatuses, Message.ofItemStatus]
      · rw [itemStatuses_itemUpdate_other own]
        simp [Message.ofItemStatus, Ne.symm own]
  | orderUpdated messages order newStatus life later notDelivered
      inductionHypothesis =>
      rw [List.filter_append, inductionHypothesis, itemStatuses_append,
        itemStatuses_orderUpdate, List.append_nil]
      simp [Message.ofOrderStatus]

end Life

theorem itemStatus_rank_injective : Function.Injective ItemStatus.rank := by
  intro left right same
  cases left <;> cases right <;> first | rfl | cases same

theorem itemStatus_rank_le (status : ItemStatus) : status.rank ≤ 3 := by
  cases status <;> decide

/-- From NEW to DONE there is one way for an item. -/
theorem successive_new_done
    {statuses : List ItemStatus}
    (successive : Successive (.new :: statuses))
    (last : (ItemStatus.new :: statuses).getLast? = some .done) :
    statuses = [.inProgress, .done] := by
  rcases statuses with _ | ⟨second, _ | ⟨third, _ | ⟨fourth, others⟩⟩⟩
  · cases last
  · rw [Successive, List.isChain_cons_cons] at successive
    simp only [List.getLast?_cons_cons, List.getLast?_singleton,
      Option.some.injEq] at last
    rw [last] at successive
    cases successive.1
  · simp only [Successive, List.isChain_cons_cons] at successive
    have isSecond : second = .inProgress := itemStatus_rank_injective successive.1
    subst isSecond
    have isThird : third = .done := itemStatus_rank_injective successive.2.1
    rw [isThird]
  · simp only [Successive, List.isChain_cons_cons] at successive
    have bound := itemStatus_rank_le fourth
    have start : ItemStatus.new.rank = 1 := rfl
    omega

/-- Increasing statuses end no lower than they start. -/
theorem increasing_rank_le
    {start final : OrderStatus}
    {statuses : List OrderStatus}
    (increasing : Increasing (start :: statuses))
    (last : (start :: statuses).getLast? = some final) :
    start.rank ≤ final.rank := by
  induction statuses generalizing start with
  | nil =>
      rw [List.getLast?_singleton, Option.some.injEq] at last
      rw [last]
  | cons next statuses inductionHypothesis =>
      rw [List.getLast?_cons_cons] at last
      rw [Increasing, List.isChain_cons_cons] at increasing
      have rest := inductionHypothesis increasing.2 last
      exact Nat.le_of_lt (Nat.lt_of_lt_of_le increasing.1 rest)

/-- From IN_PROGRESS to DONE there is one way for an order. -/
theorem increasing_inProgress_done
    {statuses : List OrderStatus}
    (increasing : Increasing (.inProgress :: statuses))
    (last : (OrderStatus.inProgress :: statuses).getLast? = some .done) :
    statuses = [.done] := by
  rcases statuses with _ | ⟨second, _ | ⟨third, others⟩⟩
  · cases last
  · simpa using last
  · simp only [List.getLast?_cons_cons] at last
    simp only [Increasing, List.isChain_cons_cons] at increasing
    have rest := increasing_rank_le increasing.2.2 last
    have start : OrderStatus.inProgress.rank = 2 := rfl
    have final : OrderStatus.done.rank = 3 := rfl
    omega

/-- A sound order that became done was made. -/
theorem History.made
    {orderId : Int32}
    {first order : Order}
    {messages : List Message}
    (history : History orderId first messages order)
    (sound : Sound first)
    (done : order.status = .done) :
    Made orderId order messages := by
  obtain ⟨increasing, last⟩ := history.life.orderStatuses_increase
  rcases sound.cases with delivered | ⟨notDone, stuck⟩ | ⟨new, allNew⟩
  · have bound := increasing_rank_le increasing last
    rw [delivered, done] at bound
    exact absurd bound (by decide)
  · exact absurd done (history.not_done_of_stuck sound.countable notDone stuck)
  · have notDone : first.status ≠ .done := by
      rw [new]
      decide
    have allDone := history.all_done sound.countable notDone done
    refine ⟨allDone, fun item member => ?_, ?_⟩
    · obtain ⟨current, found⟩ := Order.exists_findItem_of_mem member
      cases firstFound : first.findItem item.id with
      | none =>
          rw [(history.life.itemStatuses_eq_nil firstFound).1] at found
          cases found
      | some original =>
          obtain ⟨other, otherFound, successive, lastItem⟩ :=
            history.life.itemStatuses_succeed firstFound
          rw [found, Option.some.injEq] at otherFound
          subst otherFound
          rw [allNew item.id original firstFound] at successive lastItem
          rw [allDone current (Order.findItem_mem found)] at lastItem
          have statuses := successive_new_done successive lastItem
          have updates := history.life.itemUpdates_eq item.id
          rw [statuses] at updates
          have announced : (messages.filter fun message =>
              message.type = .dispItemUpdate ∧ message.itemId = item.id).Sublist
              messages := List.filter_sublist
          rwa [updates] at announced
    · rcases history.begins new allNew with ⟨same, -⟩ | ⟨-, rest, announced⟩
      · rw [same, new] at done
        cases done
      · rw [announced, Increasing, List.isChain_cons_cons] at increasing
        rw [announced, List.getLast?_cons_cons, done] at last
        have final := increasing_inProgress_done increasing.2 last
        rw [final] at announced
        have updates := history.life.orderUpdates_eq
        rw [announced] at updates
        have sublist : (messages.filter fun message =>
            message.type = .dispOrderUpdate).Sublist messages := List.filter_sublist
        rwa [updates] at sublist

/-! ## Runs -/

/-- Setting the ids of an order leaves it sound. -/
theorem sound_assigned
    {order : Order}
    (sound : Sound order)
    (orderId : Int32) :
    Sound (assigned orderId order) := by
  have items := assigned_items sound.countable orderId
  refine ⟨?_, ?_⟩
  · rw [items, List.length_map]
    exact sound.countable
  · rw [assigned_status]
    rcases sound.cases with delivered | ⟨notDone, stuck⟩ | ⟨new, allNew⟩
    · exact Or.inl delivered
    · refine Or.inr (Or.inl ⟨notDone, ?_⟩)
      rcases stuck with allDone | ⟨front, item, back, split, shadow, itemNotDone⟩
      · left
        rw [items]
        intro item member
        obtain ⟨old, isOld, rfl⟩ := List.mem_map.mp member
        exact allDone old isOld
      · right
        refine ⟨front.map (Item.setOrderId orderId), item.setOrderId orderId,
          back.map (Item.setOrderId orderId), ?_, ?_, itemNotDone⟩
        · rw [items, split, List.map_append, List.map_cons]
        · rwa [List.map_map]
    · refine Or.inr (Or.inr ⟨new, ?_⟩)
      intro itemId item found
      rw [Order.findItem, items, List.find?_map, Option.map_eq_some_iff] at found
      obtain ⟨old, isOld, rfl⟩ := found
      exact allNew itemId old isOld

/-- A stored order is what item updates have made of the one that was stored under
its id, unless the id is given out again. -/
theorem exists_history_performAll
    {server : Server}
    {orderId : Int32}
    {first : Order}
    (stored : server.myOrders.lookup orderId = some first)
    (given : orderId.toInt < server.nextOrderId.toInt)
    {operations : List Operation}
    (room : server.nextOrderId.toInt + creations operations < 2 ^ 31)
    {order : Order}
    (later : (performAll server operations).myOrders.lookup orderId = some order) :
    ∃ messages, History orderId first messages order := by
  induction operations using List.reverseRecOn generalizing order with
  | nil =>
      rw [performAll_nil, stored, Option.some.injEq] at later
      subst later
      exact ⟨[], .created⟩
  | append_singleton operations operation inductionHypothesis =>
      rw [creations_concat, Nat.cast_add] at room
      have next : (performAll server operations).nextOrderId.toInt =
          server.nextOrderId.toInt + creations operations := by
        have low := server.nextOrderId.le_toInt
        rw [nextOrderId_performAll_eq, Int32.toInt_ofInt_of_le (by omega) (by omega)]
      have earlier : ∀ other result,
          (performAll server operations).myOrders.lookup other = some result →
            other = orderId → ∃ messages, History orderId first messages result := by
        rintro other result isStored rfl
        exact inductionHypothesis (by omega) isStored
      have change := change_perform (performAll server operations) operation
      suffices kept : ∀ other result, (perform (performAll server operations)
          operation).myOrders.lookup other = some result →
            other = orderId → ∃ messages, History orderId first messages result by
        rw [performAll_concat] at later
        exact kept orderId order later rfl
      generalize perform (performAll server operations) operation = final at change ⊢
      cases change with
      | refused => exact earlier
      | created newOrder =>
          rw [created_myOrders]
          refine forall_lookup_insert (fun other result _ => earlier other result) ?_
          intro same
          rw [same] at next
          omega
      | itemUpdated updatedId itemId newStatus current item _ isStored found allowed =>
          rw [itemUpdated_myOrders]
          refine forall_lookup_insert (fun other result _ => earlier other result) ?_
          intro own
          obtain ⟨messages, history⟩ := earlier updatedId current isStored own
          exact ⟨_, history.updated messages current itemId item newStatus found allowed⟩
      | delivered deliveredId current _ isStored done =>
          rw [delivered_myOrders]
          exact forall_lookup_erase fun other result _ => earlier other result

/-- Every stored order has a history that the broadcasts record. -/
def Recorded (server : Server) : Prop :=
  ∀ orderId order, server.myOrders.lookup orderId = some order →
    ∃ first messages, History orderId first messages order ∧ Sound first ∧
      messages.Sublist server.broadcasts

/-- Further broadcasts leave a history recorded. -/
theorem Recorded.later
    {server : Server}
    (recorded : Recorded server)
    (announced : List Message)
    {orderId : Int32}
    {order : Order}
    (stored : server.myOrders.lookup orderId = some order) :
    ∃ first messages, History orderId first messages order ∧ Sound first ∧
      messages.Sublist (server.broadcasts ++ announced) := by
  obtain ⟨first, messages, history, sound, sublist⟩ := recorded orderId order stored
  exact ⟨first, messages, history, sound,
    sublist.trans (List.sublist_append_left _ announced)⟩

/-- What one call preserves. -/
theorem Recorded.change
    {operation : Operation}
    {server final : Server}
    (recorded : Recorded server)
    (change : Change operation server final)
    (sound : ∀ order, operation = .createOrder order → Sound order) :
    Recorded final := by
  cases change with
  | refused => exact recorded
  | created order =>
      unfold Recorded
      rw [created_myOrders, created_broadcasts]
      refine forall_lookup_insert (fun _ _ _ => recorded.later _) ?_
      exact ⟨_, [], .created, sound_assigned (sound order rfl) _, List.nil_sublist _⟩
  | itemUpdated updatedId itemId newStatus order item _ stored found allowed =>
      unfold Recorded
      rw [itemUpdated_myOrders, itemUpdated_broadcasts]
      refine forall_lookup_insert (fun _ _ _ => recorded.later _) ?_
      obtain ⟨first, messages, history, firstSound, sublist⟩ :=
        recorded updatedId order stored
      exact ⟨first, _, history.updated messages order itemId item newStatus found
        allowed, firstSound, sublist.append (List.Sublist.refl _)⟩
  | delivered deliveredId order _ stored done =>
      unfold Recorded
      rw [delivered_myOrders, delivered_broadcasts]
      exact forall_lookup_erase fun _ _ _ => recorded.later _

/-- What a run preserves. -/
theorem recorded_performAll
    {operations : List Operation}
    (sound : ∀ order, .createOrder order ∈ operations → Sound order) :
    Recorded (performAll initial operations) := by
  induction operations using List.reverseRecOn with
  | nil =>
      intro orderId order stored
      cases stored
  | append_singleton operations operation inductionHypothesis =>
      rw [performAll_concat]
      refine (inductionHypothesis fun order member =>
        sound order (List.mem_append_left _ member)).change
        (change_perform _ operation) ?_
      rintro order rfl
      exact sound order (by simp)

/-- A stored order that is done was made. -/
theorem Recorded.made
    {server : Server}
    (recorded : Recorded server)
    {orderId : Int32}
    {order : Order}
    (stored : server.myOrders.lookup orderId = some order)
    (done : order.status = .done) :
    Made orderId order server.broadcasts := by
  obtain ⟨first, messages, history, sound, sublist⟩ := recorded orderId order stored
  exact (history.made sound done).mono sublist

/-! ## Deliveries -/

/-- No item update broadcasts a delivery. -/
theorem delivery_not_mem_itemUpdateMessages
    (orderId deliveredId itemId : Int32)
    (newStatus : ItemStatus)
    (order : Order) :
    Message.ofOrderStatus .dispOrderUpdate deliveredId .delivered ∉
      itemUpdateMessages orderId itemId newStatus order := by
  intro member
  rcases mem_itemUpdateMessages member with itemMessage | ⟨changed, orderMessage⟩
  · cases congrArg Message.type itemMessage
  · have status : .delivered =
        newOrderStatus (order.setItemStatus itemId newStatus) newStatus :=
      congrArg Message.orderStatus orderMessage
    rcases newOrderStatus_cases (order.setItemStatus itemId newStatus) newStatus with
      same | ⟨-, forward⟩
    · exact changed same
    · rw [← status] at forward
      rcases forward with impossible | impossible <;> cases impossible

/-- A call that broadcasts a delivery found the order done. -/
theorem Change.done_of_delivery
    {operation : Operation}
    {server final : Server}
    {messages : List Message}
    {orderId : Int32}
    (change : Change operation server final)
    (broadcasts : final.broadcasts = server.broadcasts ++ messages)
    (delivery : .ofOrderStatus .dispOrderUpdate orderId .delivered ∈ messages) :
    ∃ order, server.myOrders.lookup orderId = some order ∧ order.status = .done := by
  cases change with
  | refused =>
      rw [List.self_eq_append_right] at broadcasts
      rw [broadcasts] at delivery
      cases delivery
  | created order =>
      rw [created_broadcasts, List.append_cancel_left_eq] at broadcasts
      rw [← broadcasts, List.mem_singleton] at delivery
      cases congrArg Message.type delivery
  | itemUpdated updatedId itemId newStatus order item _ stored found allowed =>
      rw [itemUpdated_broadcasts, List.append_cancel_left_eq] at broadcasts
      rw [← broadcasts] at delivery
      exact absurd delivery (delivery_not_mem_itemUpdateMessages _ _ _ _ _)
  | delivered deliveredId order _ stored done =>
      rw [delivered_broadcasts, List.append_cancel_left_eq] at broadcasts
      rw [← broadcasts, List.mem_singleton] at delivery
      have sameId : orderId = deliveredId := congrArg Message.orderId delivery
      rw [sameId]
      exact ⟨order, stored, done⟩

end Server
end OrderTracking
