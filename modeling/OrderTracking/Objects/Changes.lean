import OrderTracking.Objects.Server

/-!
# Changing and making orders

What changes an order, or an item of it, changes no order that shares no item with it, and
is by value what `Order` says. An order is made of new items, each used once.
-/

namespace OrderTracking

namespace Memory

/-! ## Reading -/

theorem value_items
    (order : OrderPtr)
    (memory : Memory) :
    (memory.value order).items = memory.heap.read (memory.orders order).items := rfl

/-- The loops over an order visit the items that they visit by value. -/
theorem read_visited
    (order : OrderPtr)
    (memory : Memory) :
    memory.heap.read (memory.visited order) = (memory.value order).visited := by
  rw [Order.visited, Order.getNumItems, value_items, visited, Heap.read, Heap.read,
    List.map_take, List.length_map]

theorem findItem_value
    (order : OrderPtr)
    (itemId : Int32)
    (memory : Memory) :
    (memory.value order).findItem itemId =
      (memory.findItem order itemId).map memory.heap.cells := by
  rw [Order.findItem, value_items, Heap.read, List.find?_map]
  rfl

theorem newOrderStatus_value
    (order : OrderPtr)
    (newStatus : ItemStatus)
    (memory : Memory) :
    Server.newOrderStatus (memory.value order) newStatus =
      memory.newOrderStatus order newStatus := by
  rw [Server.newOrderStatus, ← read_visited, Heap.read, List.all_map]
  rfl

/-! ## Changes -/

/-- Only this order has changed, and the orders that share an item with it. -/
structure Changes (order : OrderPtr) (memory later : Memory) : Prop where
  items : ∀ other, (later.orders other).items = (memory.orders other).items
  next : later.heap.next = memory.heap.next
  others : ∀ other, other ≠ order →
    (∀ item ∈ (memory.orders order).items, item ∉ (memory.orders other).items) →
      later.value other = memory.value other

theorem Changes.refl
    (order : OrderPtr)
    (memory : Memory) :
    Changes order memory memory where
  items := fun _ => rfl
  next := rfl
  others := fun _ _ _ => rfl

theorem Changes.trans
    {order : OrderPtr}
    {memory later last : Memory}
    (first : Changes order memory later)
    (second : Changes order later last) :
    Changes order memory last where
  items := fun other => (second.items other).trans (first.items other)
  next := second.next.trans first.next
  others := by
    intro other different apart
    refine (second.others other different ?_).trans (first.others other different apart)
    rwa [first.items, first.items]

theorem changes_setOrder
    (order : OrderPtr)
    (memory : Memory)
    {object : OrderObject}
    {allocated : memory.heap.Allocated object.items}
    (items : object.items = (memory.orders order).items) :
    Changes order memory (memory.setOrder order object allocated) where
  items := by
    intro other
    by_cases own : other = order
    · subst own
      rw [setOrder_self, items]
    · rw [setOrder_other own]
  next := rfl
  others := by
    intro other different _
    rw [value, setOrder_other different]
    rfl

theorem changes_changeItem
    {order : OrderPtr}
    {item : ItemPtr}
    {memory : Memory}
    (member : item ∈ (memory.orders order).items)
    (change : Item → Item) :
    Changes order memory (memory.changeItem item change) where
  items := fun _ => rfl
  next := rfl
  others := fun _ _ apart => value_changeItem_of_not_mem (apart item member) change

theorem changes_changeItems
    {order : OrderPtr}
    {items : List ItemPtr}
    {memory : Memory}
    (members : ∀ item ∈ items, item ∈ (memory.orders order).items)
    (change : Item → Item) :
    Changes order memory
      (items.foldl (fun memory item => memory.changeItem item change) memory) := by
  induction items generalizing memory with
  | nil => exact .refl order memory
  | cons item items inductionHypothesis =>
      obtain ⟨first, others⟩ := List.forall_mem_cons.mp members
      have rest := @inductionHypothesis (memory.changeItem item change) others
      exact (changes_changeItem first change).trans rest

/-! ## What the changes are by value -/

theorem value_setId
    (order : OrderPtr)
    (id : Int32)
    (memory : Memory) :
    (memory.setId order id).value order = (memory.value order).setId id := by
  rw [value, setId, setOrder_self]
  rfl

theorem value_setStatus
    (order : OrderPtr)
    (status : OrderStatus)
    (memory : Memory) :
    (memory.setStatus order status).value order = (memory.value order).setStatus status := by
  rw [value, setStatus, setOrder_self]
  rfl

/-- A change of the item that `find_item` returns. -/
theorem value_changeItem
    {order : OrderPtr}
    {itemId : Int32}
    {item : ItemPtr}
    {memory : Memory}
    (distinct : (memory.orders order).items.Nodup)
    (found : memory.findItem order itemId = some item)
    (status : ItemStatus) :
    (memory.changeItem item (Item.setStatus status)).value order =
      (memory.value order).setItemStatus itemId status := by
  have first := @map_update_of_find? _ _ _ memory.heap.cells (fun item => item.id == itemId)
    _ distinct _ found (Item.setStatus status)
  rw [Order.setItemStatus, value_items, Heap.read, ← first]
  rfl

theorem orders_changeItems
    (items : List ItemPtr)
    (change : Item → Item)
    (memory : Memory) :
    (items.foldl (fun memory item => memory.changeItem item change) memory).orders =
        memory.orders ∧
      (items.foldl (fun memory item => memory.changeItem item change) memory).heap =
        items.foldl (fun heap item => heap.modify item change) memory.heap := by
  induction items generalizing memory with
  | nil => exact ⟨rfl, rfl⟩
  | cons item items inductionHypothesis => exact inductionHypothesis _

theorem value_setItemOrderIds
    {order : OrderPtr}
    {memory : Memory}
    (distinct : (memory.orders order).items.Nodup)
    (orderId : Int32) :
    (memory.setItemOrderIds order orderId).value order =
      (memory.value order).setItemOrderIds orderId := by
  obtain ⟨orders, heap⟩ :=
    orders_changeItems (memory.visited order) (Item.setOrderId orderId) memory
  have split : memory.visited order ++ (memory.orders order).items.drop _ = _ :=
    List.take_append_drop _ _
  rw [← split] at distinct
  have changed := Heap.read_foldl_modify distinct (Item.setOrderId orderId) memory.heap
  rw [split] at changed
  have count : (memory.value order).getNumItems =
      Int32.ofNat (memory.orders order).items.length := by
    rw [Order.getNumItems, value_items, Heap.read, List.length_map]
  rw [setItemOrderIds, value, orders, heap, changed, Order.setItemOrderIds, count, value_items,
    visited]
  simp only [Heap.read, List.map_take, List.map_drop]
  rfl

/-! ## New items -/

theorem appended_addNewItem
    (order : OrderPtr)
    (item : Item)
    (memory : Memory) :
    Appended order [item] memory (memory.addNewItem order item) where
  extended := Heap.extends_alloc _ _
  id := by simp [addNewItem, addItem, setOrder, makeShared]
  status := by simp [addNewItem, addItem, setOrder, makeShared]
  items := by
    refine ⟨[memory.heap.next], ?_, ?_, ?_⟩
    · simp [addNewItem, addItem, setOrder, makeShared]
    · exact Heap.read_alloc _ _
    · simp
  others := fun other different => Function.update_of_ne different _ _

theorem appended_addNewItems
    (order : OrderPtr)
    (items : List Item)
    (memory : Memory) :
    Appended order items memory
      (items.foldl (fun memory item => memory.addNewItem order item) memory) := by
  induction items generalizing memory with
  | nil => exact .nothing order memory
  | cons item items inductionHypothesis =>
      exact (appended_addNewItem order item memory).trans
        (inductionHypothesis (memory.addNewItem order item))

theorem distinct_addNewItem
    {order : OrderPtr}
    {memory : Memory}
    (distinct : (memory.orders order).items.Nodup)
    (item : Item) :
    ((memory.addNewItem order item).orders order).items.Nodup := by
  have new : memory.heap.next ∉ (memory.orders order).items := fun member =>
    absurd (memory.allocated order _ member) (lt_irrefl _)
  simp only [addNewItem, addItem, setOrder_self, makeShared]
  exact List.nodup_append.mpr ⟨distinct, List.nodup_singleton _, fun pointer member _ isNext =>
    fun same => new (List.mem_singleton.mp isNext ▸ same ▸ member)⟩

theorem distinct_addNewItems
    {order : OrderPtr}
    {memory : Memory}
    (distinct : (memory.orders order).items.Nodup)
    (items : List Item) :
    ((items.foldl (fun memory item => memory.addNewItem order item)
      memory).orders order).items.Nodup := by
  induction items generalizing memory with
  | nil => exact distinct
  | cons item items inductionHypothesis =>
      exact inductionHypothesis (distinct_addNewItem distinct item)

/-- The body of the loop of `operator=` adds a new item. -/
theorem distinct_copyItems
    {order : OrderPtr}
    {memory : Memory}
    (distinct : (memory.orders order).items.Nodup)
    (items : List ItemPtr) :
    ((items.foldl (fun memory item => memory.copyItem order item)
      memory).orders order).items.Nodup := by
  induction items generalizing memory with
  | nil => exact distinct
  | cons item items inductionHypothesis =>
      exact inductionHypothesis (distinct_addNewItem distinct (memory.heap.cells item).duplicate)

theorem distinct_copyConstruct
    {new other : OrderPtr}
    (different : new ≠ other)
    (id : Int32)
    (status : OrderStatus)
    (memory : Memory) :
    ((memory.copyConstruct new other id status).orders new).items.Nodup := by
  rw [copyConstruct, assign, if_pos different]
  simp only [setStatus, setOrder_self]
  apply distinct_copyItems
  rw [setId, setOrder_self, allocateOrder_self]
  exact List.nodup_nil

end Memory
end OrderTracking
