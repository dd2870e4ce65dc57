import OrderTracking.Server.Commute
import OrderTracking.Server.Life
import OrderTracking.Server.Store

/-!
# Completing an order

An order whose items are all new can be completed, item by item in every
arrangement, exactly when no two of its items have the same id: `update_item`
reaches only the first item with an id.
-/

namespace OrderTracking
namespace Server

open ItemUpdate

/-- Begin an item and finish it. -/
def makeItem (orderId : Int32) (item : Item) : Code Server Unit := do
  updateItem orderId item.id .inProgress
  updateItem orderId item.id .done

/-- Make the items one after the other. -/
def makeAll (orderId : Int32) (arrangement : List Item) : Code Server Unit :=
  arrangement.forM (makeItem orderId)

/-- The order is created, its items are made in this arrangement, it is delivered,
and nothing is thrown. All its items were done before the delivery, it is gone
after it, and the other orders are as they were. -/
def CanBeCompleted (server : Server) (order : Order) (arrangement : List Item) :
    Prop :=
  ∃ orderId stored made cooked final,
    (createOrder order).run server = .ok orderId stored ∧
    (makeAll orderId arrangement).run stored = .ok () made ∧
    made.myOrders.lookup orderId = some cooked ∧
    cooked.items = (assigned orderId order).items.map (Item.setStatus .done) ∧
    (updateOrder orderId .delivered).run made = .ok () final ∧
    final.myOrders.lookup orderId = none ∧
    ∀ other, other ≠ orderId →
      final.myOrders.lookup other = server.myOrders.lookup other

/-! ## Making an item -/

/-- The order after an item was begun and finished. -/
def itemMade (itemId : Int32) (order : Order) : Order :=
  itemUpdatedOrder itemId .done (itemUpdatedOrder itemId .inProgress order)

/-- The item with this id, in the order with this id, has this status. -/
def HasStatus (server : Server) (orderId itemId : Int32) (status : ItemStatus) : Prop :=
  found server.myOrders ⟨orderId, itemId, status⟩ = some (some status)

theorem HasStatus.unique
    {server : Server}
    {orderId itemId : Int32}
    {first second : ItemStatus}
    (hasFirst : HasStatus server orderId itemId first)
    (hasSecond : HasStatus server orderId itemId second) :
    first = second :=
  Option.some.inj (Option.some.inj (hasFirst.symm.trans hasSecond))

theorem code_run_iff
    {update : ItemUpdate}
    {server final : Server} :
    update.code.run server = .ok () final ↔
      Applies server.myOrders update ∧ final = after server update := by
  by_cases applies : Applies server.myOrders update
  · obtain ⟨order, item, stored, itemFound, allowed⟩ := applies_iff.mp applies
    rw [code, updateItem_run stored itemFound allowed, after,
      perform_updateItem stored itemFound allowed]
    simp [applies, eq_comm]
  · have refused := applies
    rw [applies_iff] at refused
    obtain ⟨what, thrown⟩ := updateItem_run_refused refused
    rw [code, thrown]
    simp [applies]

/-- An accepted call gives the item it names the status it names. -/
theorem found_updatedOrders_self
    {orders : OrderMap}
    {update : ItemUpdate}
    (applies : Applies orders update) :
    found (updatedOrders orders update) update = some (some update.newStatus) := by
  obtain ⟨order, item, stored, itemFound, allowed⟩ := applies_iff.mp applies
  have updated : (itemUpdatedOrder update.itemId update.newStatus order).findItem
      update.itemId = some (item.setStatus update.newStatus) := by
    have onlyFirst := Order.findItem_setItemStatus_self update.itemId update.newStatus
      order
    rw [itemFound] at onlyFirst
    exact onlyFirst
  rw [updatedOrders_of_stored stored itemFound allowed, found, Finmap.lookup_insert,
    Option.map_some, updated]
  rfl

/-- The server after an item was begun and finished. -/
def afterItem (server : Server) (orderId itemId : Int32) : Server :=
  after (after server ⟨orderId, itemId, .inProgress⟩) ⟨orderId, itemId, .done⟩

/-- Both calls that make a new item are accepted. -/
theorem applies_of_new
    {server : Server}
    {orderId itemId : Int32}
    (new : HasStatus server orderId itemId .new) :
    Applies server.myOrders ⟨orderId, itemId, .inProgress⟩ ∧
      Applies (after server ⟨orderId, itemId, .inProgress⟩).myOrders
        ⟨orderId, itemId, .done⟩ := by
  have begins : Applies server.myOrders ⟨orderId, itemId, .inProgress⟩ :=
    ⟨.new, new, Or.inl ⟨rfl, rfl⟩⟩
  have begun := found_updatedOrders_self begins
  rw [← after_myOrders] at begun
  exact ⟨begins, .inProgress, begun, Or.inr ⟨rfl, rfl⟩⟩

/-- An item can be made exactly when it is new. -/
theorem makeItem_run_iff
    {server final : Server}
    {orderId : Int32}
    {item : Item} :
    (makeItem orderId item).run server = .ok () final ↔
      HasStatus server orderId item.id .new ∧
        final = afterItem server orderId item.id := by
  rw [makeItem, Code.run_bind_eq_ok]
  constructor
  · rintro ⟨⟨⟩, begun, begins, finishes⟩
    have first := (@code_run_iff ⟨orderId, item.id, .inProgress⟩ server begun).mp begins
    have second := (@code_run_iff ⟨orderId, item.id, .done⟩ begun final).mp finishes
    obtain ⟨⟨cur, isFound, allowed⟩, rfl⟩ := first
    have new : cur = .new := by
      rcases allowed with ⟨new, -⟩ | ⟨-, impossible⟩
      · exact new
      · cases impossible
    rw [new] at isFound
    exact ⟨isFound, second.2⟩
  · rintro ⟨new, rfl⟩
    obtain ⟨begins, finishes⟩ := applies_of_new new
    exact ⟨(), _, code_run_iff.mpr ⟨begins, rfl⟩, code_run_iff.mpr ⟨finishes, rfl⟩⟩

/-- A made item is done. -/
theorem hasStatus_afterItem_self
    {server : Server}
    {orderId itemId : Int32}
    (new : HasStatus server orderId itemId .new) :
    HasStatus (afterItem server orderId itemId) orderId itemId .done := by
  rw [HasStatus, afterItem, after_myOrders]
  exact found_updatedOrders_self (applies_of_new new).2

/-- Making an item does not touch the others. -/
theorem hasStatus_afterItem_other
    {orderId itemId other : Int32}
    (different : other ≠ itemId)
    (server : Server)
    (status : ItemStatus) :
    HasStatus (afterItem server orderId itemId) orderId other status ↔
      HasStatus server orderId other status := by
  have apart : ∀ newStatus, (⟨orderId, itemId, newStatus⟩ : ItemUpdate).target ≠
      (⟨orderId, other, status⟩ : ItemUpdate).target := by
    intro newStatus
    simp [target, different.symm]
  rw [HasStatus, HasStatus, afterItem, after_myOrders, found_updatedOrders (apart .done),
    after_myOrders, found_updatedOrders (apart .inProgress)]

/-- The items that are still to be made stay new. -/
theorem allNew_afterItem
    {server : Server}
    {orderId : Int32}
    {item : Item}
    {rest : List Item}
    (allNew : ∀ other ∈ item :: rest, HasStatus server orderId other.id .new)
    (distinct : ((item :: rest).map Item.id).Nodup) :
    ∀ other ∈ rest, HasStatus (afterItem server orderId item.id) orderId other.id .new := by
  rw [List.map_cons, List.nodup_cons] at distinct
  intro other member
  have different : other.id ≠ item.id := by
    intro same
    exact distinct.1 (same ▸ List.mem_map_of_mem member)
  rw [hasStatus_afterItem_other different]
  exact allNew other (List.mem_cons_of_mem item member)

/-! ## Making all items -/

/-- The server after items were made. -/
def afterItems (server : Server) (orderId : Int32) (arrangement : List Item) : Server :=
  arrangement.foldl (fun server item => afterItem server orderId item.id) server

/-- Items can be made one after the other exactly when all are new and no two have
the same id. -/
theorem makeAll_run_iff
    {server final : Server}
    {orderId : Int32}
    {arrangement : List Item} :
    (makeAll orderId arrangement).run server = .ok () final ↔
      ((∀ item ∈ arrangement, HasStatus server orderId item.id .new) ∧
        (arrangement.map Item.id).Nodup) ∧
        final = afterItems server orderId arrangement := by
  induction arrangement generalizing server with
  | nil =>
      simp only [makeAll, List.forM_eq_forM, List.forM_nil, EStateM.run_pure]
      simp [afterItems, eq_comm]
  | cons item rest inductionHypothesis =>
      rw [makeAll, List.forM_eq_forM, List.forM_cons, Code.run_bind_eq_ok]
      constructor
      · rintro ⟨⟨⟩, middle, first, later⟩
        obtain ⟨new, rfl⟩ := makeItem_run_iff.mp first
        obtain ⟨⟨allNew, distinct⟩, rfl⟩ := inductionHypothesis.mp later
        have notLater : ∀ other ∈ rest, other.id ≠ item.id := by
          intro other member same
          have again := allNew other member
          rw [same] at again
          cases again.unique (hasStatus_afterItem_self new)
        refine ⟨⟨?_, ?_⟩, rfl⟩
        · intro other member
          rcases List.mem_cons.mp member with rfl | later
          · exact new
          · exact (hasStatus_afterItem_other (notLater other later) server .new).mp
              (allNew other later)
        · rw [List.map_cons, List.nodup_cons]
          refine ⟨?_, distinct⟩
          intro again
          obtain ⟨other, member, same⟩ := List.mem_map.mp again
          exact notLater other member same
      · rintro ⟨⟨allNew, distinct⟩, rfl⟩
        have stillNew := allNew_afterItem allNew distinct
        rw [List.map_cons, List.nodup_cons] at distinct
        have new := allNew item List.mem_cons_self
        exact ⟨(), _, makeItem_run_iff.mpr ⟨new, rfl⟩,
          inductionHypothesis.mpr ⟨⟨stillNew, distinct.2⟩, rfl⟩⟩

/-! ## The order that is made -/

/-- The order after items were made. -/
def itemsMade (arrangement : List Item) (order : Order) : Order :=
  arrangement.foldl (fun order item => itemMade item.id order) order

/-- The statuses an order that is being made can have. -/
def UnderWay (order : Order) : Prop :=
  order.status = .new ∨ order.status = .inProgress ∨ order.status = .done

theorem updatedOrders_of_applies
    {orders : OrderMap}
    {update : ItemUpdate}
    {order : Order}
    (stored : orders.lookup update.orderId = some order)
    (applies : Applies orders update) :
    updatedOrders orders update = orders.insert update.orderId
      (itemUpdatedOrder update.itemId update.newStatus order) := by
  obtain ⟨other, item, otherStored, itemFound, allowed⟩ := applies_iff.mp applies
  rw [stored, Option.some.injEq] at otherStored
  subst otherStored
  exact updatedOrders_of_stored stored itemFound allowed

theorem afterItem_myOrders
    {server : Server}
    {orderId itemId : Int32}
    {order : Order}
    (stored : server.myOrders.lookup orderId = some order)
    (new : HasStatus server orderId itemId .new) :
    (afterItem server orderId itemId).myOrders =
      server.myOrders.insert orderId (itemMade itemId order) := by
  obtain ⟨begins, finishes⟩ := applies_of_new new
  have begun := updatedOrders_of_applies stored begins
  rw [← after_myOrders] at begun
  have finished := updatedOrders_of_applies
    (by rw [begun, Finmap.lookup_insert]) finishes
  rw [afterItem, after_myOrders, finished, begun, Finmap.insert_insert]
  rfl

/-- Making items replaces the order and keeps the others. -/
theorem afterItems_myOrders
    {server : Server}
    {orderId : Int32}
    {arrangement : List Item}
    {order : Order}
    (stored : server.myOrders.lookup orderId = some order)
    (allNew : ∀ item ∈ arrangement, HasStatus server orderId item.id .new)
    (distinct : (arrangement.map Item.id).Nodup) :
    (afterItems server orderId arrangement).myOrders =
      server.myOrders.insert orderId (itemsMade arrangement order) := by
  induction arrangement generalizing server order with
  | nil => exact (insert_eq_self_of_lookup stored).symm
  | cons item rest inductionHypothesis =>
      have stillNew := allNew_afterItem allNew distinct
      have first := afterItem_myOrders stored (allNew item List.mem_cons_self)
      rw [List.map_cons, List.nodup_cons] at distinct
      have later := inductionHypothesis (by rw [first, Finmap.lookup_insert]) stillNew
        distinct.2
      rw [afterItems, List.foldl_cons, ← afterItems, later, first, Finmap.insert_insert]
      rfl

theorem itemMade_items (itemId : Int32) (order : Order) :
    (itemMade itemId order).items = (order.setItemStatus itemId .done).items := by
  rw [← Order.setItemStatus_setItemStatus_self itemId .inProgress .done order]
  rfl

/-- Making items marks them done. -/
theorem itemsMade_items
    {order : Order}
    (distinct : (order.items.map Item.id).Nodup)
    (arrangement : List Item) :
    (itemsMade arrangement order).items = order.items.map fun item =>
      if item.id ∈ arrangement.map Item.id then item.setStatus .done else item := by
  induction arrangement generalizing order with
  | nil => simp [itemsMade]
  | cons item rest inductionHypothesis =>
      have first : (itemMade item.id order).items = order.items.map fun other =>
          if other.id = item.id then other.setStatus .done else other := by
        rw [itemMade_items]
        exact updateFirst_eq_map distinct item.id (Item.setStatus .done)
      have sameIds : (itemMade item.id order).items.map Item.id =
          order.items.map Item.id := by
        rw [itemMade_items]
        apply map_updateFirst
        intro other
        rfl
      rw [itemsMade, List.foldl_cons, ← itemsMade,
        inductionHypothesis (by rwa [sameIds]), first, List.map_map]
      apply List.map_congr_left
      intro other member
      by_cases isItem : other.id = item.id
      · simp [isItem]
      · simp [isItem]

/-- Making every item of an order with different ids marks them all done. -/
theorem itemsMade_all
    {order : Order}
    {arrangement : List Item}
    (distinct : (order.items.map Item.id).Nodup)
    (all : ∀ item ∈ order.items, item.id ∈ arrangement.map Item.id) :
    (itemsMade arrangement order).items = order.items.map (Item.setStatus .done) := by
  rw [itemsMade_items distinct]
  apply List.map_congr_left
  intro item member
  rw [if_pos (all item member)]

theorem underWay_itemUpdatedOrder
    {order : Order}
    (underWay : UnderWay order)
    (itemId : Int32)
    (newStatus : ItemStatus) :
    UnderWay (itemUpdatedOrder itemId newStatus order) := by
  rcases newOrderStatus_cases (order.setItemStatus itemId newStatus) newStatus with
    same | ⟨-, inProgress | done⟩
  · rw [UnderWay, itemUpdatedOrder_status, same]
    exact underWay
  · exact Or.inr (Or.inl inProgress)
  · exact Or.inr (Or.inr done)

theorem underWay_itemsMade
    {order : Order}
    (underWay : UnderWay order)
    (arrangement : List Item) :
    UnderWay (itemsMade arrangement order) := by
  induction arrangement generalizing order with
  | nil => exact underWay
  | cons item rest inductionHypothesis =>
      apply inductionHypothesis
      exact underWay_itemUpdatedOrder (underWay_itemUpdatedOrder underWay _ _) _ _

/-- Finishing the last item of an order finishes the order. -/
theorem itemMade_status
    {order : Order}
    {itemId : Int32}
    (underWay : UnderWay order)
    (allDone : ∀ item ∈ (itemMade itemId order).items, item.status = .done) :
    (itemMade itemId order).status = .done := by
  have begun := underWay_itemUpdatedOrder underWay itemId .inProgress
  have visited : ∀ item ∈ ((itemUpdatedOrder itemId .inProgress order).setItemStatus
      itemId .done).visited, item.status = .done := by
    intro item member
    exact allDone item (Order.mem_of_mem_visited member)
  rcases begun with new | inProgress | done
  · exact newOrderStatus_complete (Or.inr ⟨new, by decide⟩) visited
  · exact newOrderStatus_complete (Or.inl inProgress) visited
  · rcases newOrderStatus_done ((itemUpdatedOrder itemId .inProgress order).setItemStatus
      itemId .done) with same | finished
    · exact same.trans done
    · exact finished

/-- An order all of whose items were made is done. -/
theorem itemsMade_status
    {order : Order}
    {arrangement : List Item}
    (underWay : UnderWay order)
    (nonempty : arrangement ≠ [])
    (allDone : ∀ item ∈ (itemsMade arrangement order).items, item.status = .done) :
    (itemsMade arrangement order).status = .done := by
  obtain ⟨front, last, rfl⟩ := arrangement.eq_nil_or_concat.resolve_left nonempty
  rw [itemsMade, List.concat_eq_append, List.foldl_append] at allDone ⊢
  exact itemMade_status (underWay_itemsMade underWay front) allDone

theorem itemsMade_all_status
    {order : Order}
    {arrangement : List Item}
    (underWay : UnderWay order)
    (nonempty : arrangement ≠ [])
    (distinct : (order.items.map Item.id).Nodup)
    (all : ∀ item ∈ order.items, item.id ∈ arrangement.map Item.id) :
    (itemsMade arrangement order).status = .done := by
  apply itemsMade_status underWay nonempty
  rw [itemsMade_all distinct all]
  intro item member
  obtain ⟨other, -, rfl⟩ := List.mem_map.mp member
  rfl

/-! ## Stored orders -/

/-- Storing an order changes nothing in its items but their order ids. -/
theorem map_items_assigned
    {projection : Item → β}
    (keeps : ∀ orderId item, projection (Item.setOrderId orderId item) = projection item)
    (orderId : Int32)
    (order : Order) :
    (assigned orderId order).items.map projection = order.items.map projection := by
  have keepsAll : projection ∘ Item.setOrderId orderId = projection :=
    funext (keeps orderId)
  simp only [assigned, Order.setItemOrderIds, Order.setId, List.map_append,
    List.map_map, keepsAll]
  rw [← List.map_append, List.take_append_drop]

theorem ids_assigned (orderId : Int32) (order : Order) :
    (assigned orderId order).items.map Item.id = order.items.map Item.id :=
  map_items_assigned (fun _ _ => rfl) orderId order

theorem allNew_assigned
    {order : Order}
    (allNew : ∀ item ∈ order.items, item.status = .new)
    (orderId : Int32) :
    ∀ item ∈ (assigned orderId order).items, item.status = .new := by
  intro item member
  have statuses : (assigned orderId order).items.map Item.status =
      order.items.map Item.status :=
    map_items_assigned (fun _ _ => rfl) orderId order
  have isStatus : item.status ∈ order.items.map Item.status := by
    rw [← statuses]
    exact List.mem_map_of_mem member
  obtain ⟨other, otherMember, same⟩ := List.mem_map.mp isStatus
  rw [← same]
  exact allNew other otherMember

/-- Every item of an order of new items can be found, and is new. -/
theorem hasStatus_new
    {server : Server}
    {orderId itemId : Int32}
    {order : Order}
    (stored : server.myOrders.lookup orderId = some order)
    (allNew : ∀ item ∈ order.items, item.status = .new)
    (member : itemId ∈ order.items.map Item.id) :
    HasStatus server orderId itemId .new := by
  obtain ⟨item, itemMember, rfl⟩ := List.mem_map.mp member
  obtain ⟨first, isFirst⟩ := Order.exists_findItem_of_mem itemMember
  have new := allNew first (Order.findItem_mem isFirst)
  simp [HasStatus, found, stored, isFirst, new]

/-- An order of new items can be completed, in every arrangement of them, exactly
when their ids differ. -/
theorem canBeCompleted_iff
    {order : Order}
    {arrangement : List Item}
    (new : order.status = .new)
    (nonempty : order.items ≠ [])
    (allNew : ∀ item ∈ order.items, item.status = .new)
    (permutation : arrangement.Perm order.items)
    (server : Server) :
    CanBeCompleted server order arrangement ↔ (order.items.map Item.id).Nodup := by
  have ids := permutation.map Item.id
  constructor
  · rintro ⟨orderId, stored, made, cooked, final, creates, makes, -⟩
    exact ids.nodup_iff.mp (makeAll_run_iff.mp makes).1.2
  · intro distinct
    have stored : (server.created order).myOrders.lookup server.nextOrderId =
        some (assigned server.nextOrderId order) := by
      rw [created_myOrders, Finmap.lookup_insert]
    have stillNew : ∀ item ∈ arrangement,
        HasStatus (server.created order) server.nextOrderId item.id .new := by
      intro item member
      apply hasStatus_new stored (allNew_assigned allNew _)
      rw [ids_assigned, ← ids.mem_iff]
      exact List.mem_map_of_mem member
    have distinctArrangement := ids.nodup_iff.mpr distinct
    have made := afterItems_myOrders stored stillNew distinctArrangement
    have cooked : (afterItems (server.created order) server.nextOrderId
        arrangement).myOrders.lookup server.nextOrderId =
          some (itemsMade arrangement (assigned server.nextOrderId order)) := by
      rw [made, Finmap.lookup_insert]
    have distinctStored : ((assigned server.nextOrderId order).items.map Item.id).Nodup := by
      rwa [ids_assigned]
    have all : ∀ item ∈ (assigned server.nextOrderId order).items,
        item.id ∈ arrangement.map Item.id := by
      intro item member
      rw [ids.mem_iff, ← ids_assigned server.nextOrderId]
      exact List.mem_map_of_mem member
    have someItem : arrangement ≠ [] := by
      rintro rfl
      exact nonempty permutation.nil_eq.symm
    have underWay : UnderWay (assigned server.nextOrderId order) := Or.inl new
    have done := itemsMade_all_status underWay someItem distinctStored all
    refine ⟨server.nextOrderId, _, _, _, _, createOrder_run order server,
      makeAll_run_iff.mpr ⟨⟨stillNew, distinctArrangement⟩, rfl⟩, cooked,
      itemsMade_all distinctStored all, updateOrder_run cooked done, ?_, ?_⟩
    · rw [delivered_myOrders, Finmap.lookup_erase]
    · intro other different
      rw [delivered_myOrders, Finmap.lookup_erase_ne different, made,
        Finmap.lookup_insert_of_ne _ different, created_myOrders,
        Finmap.lookup_insert_of_ne _ different]

/-- A tea and a cake. -/
def teaAndCake (cakeId : Int32) : Order :=
  ⟨1, .new, [⟨1, 1, .new, ascii "tea", 1⟩, ⟨1, cakeId, .new, ascii "cake", 1⟩]⟩

theorem canBeCompleted_teaAndCake :
    CanBeCompleted initial (teaAndCake 2) (teaAndCake 2).items := by
  rw [canBeCompleted_iff rfl (by simp [teaAndCake]) (by simp [teaAndCake])
    (List.Perm.refl _)]
  decide

/-- With one id for both, only the tea can be reached. -/
theorem not_canBeCompleted_teaAndCake :
    ((teaAndCake 1).id = 1 ∧ (teaAndCake 1).status = .new ∧
      ∀ item ∈ (teaAndCake 1).items, item.status = .new ∧ 1 ≤ item.qty) ∧
    ¬ CanBeCompleted initial (teaAndCake 1) (teaAndCake 1).items := by
  refine ⟨⟨rfl, rfl, by decide⟩, ?_⟩
  rintro ⟨orderId, stored, made, cooked, final, creates, makes, -⟩
  have distinct := (makeAll_run_iff.mp makes).1.2
  exact absurd distinct (by decide)

end Server
end OrderTracking
