import OrderTracking.Cxx
import OrderTracking.Library.FirstMatch
import Mathlib.Data.List.TakeDrop

/-!
# Items and orders

The classes `Item` and `Order`. Objects are held by value: every copy the program
shares between an order, a message and a queue is a deep copy, so no two of them
alias, as `Objects.Assignment` shows. The number of items is an `int`, as in
`Order::get_num_items`, and the loops over an order are driven by it.
-/

namespace OrderTracking

/-- Client modes. -/
inductive ClientMode
  | invalid
  | updater
  | display
  deriving DecidableEq, Repr

/-- Statuses of an item. -/
inductive ItemStatus
  | invalid
  | new
  | inProgress
  | done
  deriving DecidableEq, Repr

/-- Statuses of an order. -/
inductive OrderStatus
  | invalid
  | new
  | inProgress
  | done
  | delivered
  deriving DecidableEq, Repr

/-- An item of an order. -/
structure Item where
  orderId : Int32
  id : Int32
  status : ItemStatus
  desc : Bytes
  qty : Int32
  deriving DecidableEq, Repr

namespace Item

/-- A deep copy of the item. -/
def duplicate (item : Item) : Item :=
  { orderId := item.orderId, id := item.id, status := item.status,
    desc := item.desc, qty := item.qty }

/-- `Item::operator==`. -/
def equals (item rhs : Item) : Bool :=
  item.id == rhs.id && item.orderId == rhs.orderId && item.status == rhs.status &&
    item.desc == rhs.desc && item.qty == rhs.qty

/-- Set the id of the order the item belongs to. -/
def setOrderId (orderId : Int32) (item : Item) : Item :=
  { item with orderId := orderId }

/-- Set the status of the item. -/
def setStatus (status : ItemStatus) (item : Item) : Item :=
  { item with status := status }

@[simp] theorem duplicate_eq (item : Item) : item.duplicate = item := rfl

theorem equals_iff (item rhs : Item) : item.equals rhs = true ↔ item = rhs := by
  cases item
  cases rhs
  simp only [equals, Bool.and_eq_true, beq_iff_eq, mk.injEq]
  constructor
  · rintro ⟨⟨⟨⟨id, orderId⟩, status⟩, desc⟩, qty⟩
    exact ⟨orderId, id, status, desc, qty⟩
  · rintro ⟨orderId, id, status, desc, qty⟩
    exact ⟨⟨⟨⟨id, orderId⟩, status⟩, desc⟩, qty⟩

@[simp] theorem setOrderId_orderId (orderId : Int32) (item : Item) :
    (item.setOrderId orderId).orderId = orderId := rfl

@[simp] theorem setOrderId_id (orderId : Int32) (item : Item) :
    (item.setOrderId orderId).id = item.id := rfl

@[simp] theorem setOrderId_status (orderId : Int32) (item : Item) :
    (item.setOrderId orderId).status = item.status := rfl

@[simp] theorem setOrderId_desc (orderId : Int32) (item : Item) :
    (item.setOrderId orderId).desc = item.desc := rfl

@[simp] theorem setOrderId_qty (orderId : Int32) (item : Item) :
    (item.setOrderId orderId).qty = item.qty := rfl

@[simp] theorem setStatus_orderId (status : ItemStatus) (item : Item) :
    (item.setStatus status).orderId = item.orderId := rfl

@[simp] theorem setStatus_id (status : ItemStatus) (item : Item) :
    (item.setStatus status).id = item.id := rfl

@[simp] theorem setStatus_status (status : ItemStatus) (item : Item) :
    (item.setStatus status).status = status := rfl

@[simp] theorem setStatus_desc (status : ItemStatus) (item : Item) :
    (item.setStatus status).desc = item.desc := rfl

@[simp] theorem setStatus_qty (status : ItemStatus) (item : Item) :
    (item.setStatus status).qty = item.qty := rfl

@[simp] theorem setStatus_setStatus
    (first second : ItemStatus)
    (item : Item) :
    (item.setStatus first).setStatus second = item.setStatus second := rfl

end Item

/-- An order with its items. -/
structure Order where
  id : Int32
  status : OrderStatus
  items : List Item
  deriving DecidableEq, Repr

namespace Order

/-- `Order::get_num_items`: the number of items, converted to `int`. -/
def getNumItems (order : Order) : Int32 :=
  Int32.ofNat order.items.length

/-- The items that `for (int i = 0; i < get_num_items(); ++i)` visits with
`at(i)`. The count never exceeds the number of items, so `at` never throws; it
is smaller from `2 ^ 31` items on. -/
def visited (order : Order) : List Item :=
  order.items.take order.getNumItems.toInt.toNat

/-- `Order::operator==`. The loop starts when the item counts agree, so that
`rhs.at(i)` visits as many items. -/
def equals (order rhs : Order) : Bool :=
  if order.id ≠ rhs.id ∨ order.status ≠ rhs.status ∨
      order.getNumItems ≠ rhs.getNumItems then false
  else (order.visited.zip rhs.visited).all fun (item, other) => item.equals other

/-- Set the id of the order. -/
def setId (id : Int32) (order : Order) : Order :=
  { order with id := id }

/-- Set the status of the order. -/
def setStatus (status : OrderStatus) (order : Order) : Order :=
  { order with status := status }

/-- Append an item. -/
def addItem (order : Order) (item : Item) : Order :=
  { order with items := order.items ++ [item] }

/-- The first item with the given item id. -/
def findItem (order : Order) (itemId : Int32) : Option Item :=
  order.items.find? fun item => item.id == itemId

/-- Set the status of the item that `findItem` returns a pointer to. -/
def setItemStatus (itemId : Int32) (status : ItemStatus) (order : Order) : Order :=
  { order with
    items := updateFirst (fun item => item.id == itemId)
      (Item.setStatus status) order.items }

/-- Set the order id of every item a loop over the order visits. -/
def setItemOrderIds (orderId : Int32) (order : Order) : Order :=
  let count := order.getNumItems.toInt.toNat
  { order with
    items := (order.items.take count).map (Item.setOrderId orderId) ++
      order.items.drop count }

/-- `Order::operator=` on a target other than the source: the duplicated items
are appended to the target's. -/
def assign (target source : Order) : Order :=
  { id := source.id
    status := source.status
    items := target.items ++ source.items.map Item.duplicate }

/-- A deep copy of the order: the copy constructor assigns to an order without
items. -/
def duplicate (order : Order) : Order :=
  assign { id := 0, status := .invalid, items := [] } order

theorem assign_eq (target source : Order) :
    target.assign source =
      ⟨source.id, source.status, target.items ++ source.items⟩ := by
  have same : source.items.map Item.duplicate = source.items :=
    List.map_id source.items
  rw [assign, same]

@[simp] theorem duplicate_eq (order : Order) : order.duplicate = order := by
  rw [duplicate, assign_eq, List.nil_append]

@[simp] theorem setStatus_id (status : OrderStatus) (order : Order) :
    (order.setStatus status).id = order.id := rfl

@[simp] theorem setStatus_status (status : OrderStatus) (order : Order) :
    (order.setStatus status).status = status := rfl

@[simp] theorem setStatus_items (status : OrderStatus) (order : Order) :
    (order.setStatus status).items = order.items := rfl

@[simp] theorem setItemStatus_id
    (itemId : Int32) (status : ItemStatus) (order : Order) :
    (order.setItemStatus itemId status).id = order.id := rfl

@[simp] theorem setItemStatus_status
    (itemId : Int32) (status : ItemStatus) (order : Order) :
    (order.setItemStatus itemId status).status = order.status := rfl

@[simp] theorem setItemStatus_setStatus
    (itemId : Int32)
    (itemStatus : ItemStatus)
    (status : OrderStatus)
    (order : Order) :
    (order.setStatus status).setItemStatus itemId itemStatus =
      (order.setItemStatus itemId itemStatus).setStatus status := rfl

@[simp] theorem setStatus_setStatus
    (first second : OrderStatus)
    (order : Order) :
    (order.setStatus first).setStatus second = order.setStatus second := rfl

/-- A later status of the same item replaces an earlier one. -/
@[simp] theorem setItemStatus_setItemStatus_self
    (itemId : Int32)
    (first second : ItemStatus)
    (order : Order) :
    (order.setItemStatus itemId first).setItemStatus itemId second =
      order.setItemStatus itemId second := by
  simp only [setItemStatus, mk.injEq, true_and]
  apply updateFirst_updateFirst_self
  · intro item
    rfl
  · intro item
    rfl

/-- Status updates of items with different ids commute. -/
theorem setItemStatus_comm
    {left right : Int32}
    (different : left ≠ right)
    (first second : ItemStatus)
    (order : Order) :
    (order.setItemStatus left first).setItemStatus right second =
      (order.setItemStatus right second).setItemStatus left first := by
  simp only [setItemStatus, mk.injEq, true_and]
  apply updateFirst_comm
  · intro item
    rfl
  · intro item
    rfl
  · intro item isLeft
    simp only [beq_iff_eq] at isLeft
    simp [isLeft, different]

theorem setItemStatus_of_findItem_eq_none
    {itemId : Int32}
    {order : Order}
    (absent : order.findItem itemId = none)
    (status : ItemStatus) :
    order.setItemStatus itemId status = order := by
  rw [setItemStatus, updateFirst_of_find?_eq_none absent]

@[simp] theorem findItem_setItemStatus_self
    (itemId : Int32)
    (status : ItemStatus)
    (order : Order) :
    (order.setItemStatus itemId status).findItem itemId =
      (order.findItem itemId).map (Item.setStatus status) := by
  apply find?_updateFirst_self
  intro item
  rfl

theorem findItem_setItemStatus_other
    {itemId other : Int32}
    (different : other ≠ itemId)
    (status : ItemStatus)
    (order : Order) :
    (order.setItemStatus itemId status).findItem other =
      order.findItem other := by
  apply find?_updateFirst_other
  · intro item
    rfl
  · intro item isItem
    simp only [beq_iff_eq] at isItem
    simp [isItem, different.symm]

theorem findItem_id
    {order : Order}
    {itemId : Int32}
    {item : Item}
    (found : order.findItem itemId = some item) : item.id = itemId := by
  simpa using List.find?_some found

theorem findItem_mem
    {order : Order}
    {itemId : Int32}
    {item : Item}
    (found : order.findItem itemId = some item) : item ∈ order.items :=
  List.mem_of_find?_eq_some found

theorem exists_findItem_of_mem
    {order : Order}
    {item : Item}
    (member : item ∈ order.items) :
    ∃ first, order.findItem item.id = some first := by
  rw [← Option.isSome_iff_exists, findItem, List.find?_isSome]
  exact ⟨item, member, by simp⟩

/-! ## The item count -/

theorem mem_of_mem_visited
    {order : Order}
    {item : Item}
    (member : item ∈ order.visited) : item ∈ order.items :=
  List.mem_of_mem_take member

theorem getNumItems_toInt (order : Order) :
    order.getNumItems.toInt = (order.items.length : Int).bmod (2 ^ 32) := by
  rw [getNumItems, Int32.toInt_ofNat']
  rfl

theorem length_visited (order : Order) :
    order.visited.length = order.getNumItems.toInt.toNat := by
  have count := order.getNumItems_toInt
  have below : (order.items.length : Int).bmod (2 ^ 32) ≤ order.items.length := by
    rw [Int.bmod_def]
    split <;> omega
  rw [visited, List.length_take]
  omega

/-- The loops visit every item exactly when an `int` can count them. -/
theorem visited_eq_items_iff (order : Order) :
    order.visited = order.items ↔ order.items.length < 2 ^ 31 := by
  have below := order.getNumItems.toInt_lt
  have count := order.getNumItems_toInt
  rw [visited, List.take_eq_self_iff]
  constructor
  · intro enough
    omega
  · intro small
    rw [count, Int.bmod_eq_of_le (by omega) (by omega)]
    omega

theorem visited_of_length_lt
    {order : Order}
    (countable : order.items.length < 2 ^ 31) :
    order.visited = order.items :=
  order.visited_eq_items_iff.mpr countable

/-- An update of an item the loops do not reach does not show in what they visit. -/
theorem visited_setItemStatus_of_unseen
    {order : Order}
    {itemId : Int32}
    (unseen : ∀ item ∈ order.visited, item.id ≠ itemId)
    (status : ItemStatus) :
    (order.setItemStatus itemId status).visited = order.visited := by
  have count : (order.setItemStatus itemId status).getNumItems = order.getNumItems := by
    rw [getNumItems, setItemStatus, length_updateFirst]
    rfl
  rw [visited, count]
  apply take_updateFirst
  intro item member
  simpa using unseen item member

/-- Setting the status an item has changes nothing. -/
theorem setItemStatus_eq_self
    {order : Order}
    {itemId : Int32}
    {item : Item}
    (found : order.findItem itemId = some item) :
    order.setItemStatus itemId item.status = order := by
  rw [setItemStatus, updateFirst_eq_self found rfl]

theorem visited_setItemStatus
    {order : Order}
    (countable : order.items.length < 2 ^ 31)
    (itemId : Int32)
    (status : ItemStatus) :
    (order.setItemStatus itemId status).visited =
      (order.setItemStatus itemId status).items := by
  apply visited_of_length_lt
  rwa [setItemStatus, length_updateFirst]

/-- The loops visit nothing exactly when the item count is not positive. -/
theorem visited_eq_nil_iff (order : Order) :
    order.visited = [] ↔ order.getNumItems.toInt ≤ 0 := by
  have count := order.getNumItems_toInt
  rw [visited, List.take_eq_nil_iff]
  constructor
  · rintro (zero | empty)
    · omega
    · rw [count, empty]
      decide
  · intro notPositive
    left
    omega

theorem getNumItems_eq_zero_iff (order : Order) :
    order.getNumItems = 0 ↔ order.getNumItems.toInt = 0 := by
  rw [← Int32.toInt_inj]
  rfl

theorem setItemOrderIds_of_length_lt
    {order : Order}
    (countable : order.items.length < 2 ^ 31)
    (orderId : Int32) :
    (order.setItemOrderIds orderId).items =
      order.items.map (Item.setOrderId orderId) := by
  have all := visited_of_length_lt countable
  rw [visited, List.take_eq_self_iff] at all
  simp only [setItemOrderIds]
  rw [List.take_of_length_le all, List.drop_of_length_le all, List.append_nil]

end Order
end OrderTracking
