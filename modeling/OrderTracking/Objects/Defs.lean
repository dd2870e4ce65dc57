import OrderTracking.Library.Heap
import OrderTracking.Model

/-!
# Order objects

The class `Order` with its addresses and pointers. An object holds pointers to its
items, and two objects may hold the same pointer, so what an assignment copies can
be told from what it shares.
-/

namespace OrderTracking

/-- An `Order *`. -/
abbrev OrderPtr := Nat

/-- A `std::shared_ptr<Item>`. -/
abbrev ItemPtr := Nat

/-- An object of the class `Order`. -/
structure OrderObject where
  id : Int32
  status : OrderStatus
  items : List ItemPtr

/-- The `Order` objects by their addresses, and the items. An order only holds
pointers to items that exist. -/
structure Memory where
  orders : OrderPtr → OrderObject
  heap : Heap Item
  allocated : ∀ order, heap.Allocated (orders order).items

namespace Memory

/-- The order an object represents. -/
def value (memory : Memory) (order : OrderPtr) : Order where
  id := (memory.orders order).id
  status := (memory.orders order).status
  items := memory.heap.read (memory.orders order).items

/-- Replace an object. -/
def setOrder (memory : Memory) (order : OrderPtr) (object : OrderObject)
    (allocated : memory.heap.Allocated object.items) : Memory where
  orders := Function.update memory.orders order object
  heap := memory.heap
  allocated := by
    intro other
    by_cases own : other = order
    · subst own
      rwa [Function.update_self]
    · rw [Function.update_of_ne own]
      exact memory.allocated other

@[simp] theorem setOrder_self
    (memory : Memory)
    (order : OrderPtr)
    (object : OrderObject)
    (allocated : memory.heap.Allocated object.items) :
    (memory.setOrder order object allocated).orders order = object :=
  Function.update_self ..

theorem setOrder_other
    {order other : OrderPtr}
    (otherwise : other ≠ order)
    {memory : Memory}
    {object : OrderObject}
    {allocated : memory.heap.Allocated object.items} :
    (memory.setOrder order object allocated).orders other = memory.orders other :=
  Function.update_of_ne otherwise ..

/-- `Order::set_id`. -/
def setId (order : OrderPtr) (id : Int32) (memory : Memory) : Memory :=
  memory.setOrder order { memory.orders order with id := id } (memory.allocated order)

/-- `Order::set_status`. -/
def setStatus (order : OrderPtr) (status : OrderStatus) (memory : Memory) : Memory :=
  memory.setOrder order { memory.orders order with status := status }
    (memory.allocated order)

/-- `std::make_shared<Item>`, which returns the pointer `next`. -/
def makeShared (item : Item) (memory : Memory) : Memory where
  orders := memory.orders
  heap := memory.heap.alloc item
  allocated := fun order => (memory.allocated order).later (Heap.extends_alloc item _)

/-- `Order::add_item`. -/
def addItem (memory : Memory) (order : OrderPtr) (item : ItemPtr)
    (allocated : item < memory.heap.next) : Memory :=
  let object := memory.orders order
  memory.setOrder order { object with items := object.items ++ [item] } (by
    intro pointer member
    rcases List.mem_append.mp member with old | new
    · exact memory.allocated order pointer old
    · rwa [List.mem_singleton.mp new])

/-- The body of the loop of `Order::operator=`: push back a duplicate of the item. -/
def copyItem (order : OrderPtr) (item : ItemPtr) (memory : Memory) : Memory :=
  (memory.makeShared (memory.heap.cells item).duplicate).addItem order memory.heap.next
    (Nat.lt_succ_self _)

/-- `Order::operator=`. -/
def assign (order rhs : OrderPtr) (memory : Memory) : Memory :=
  if order ≠ rhs then
    let memory := memory.setId order (memory.orders rhs).id
    let memory := (memory.orders rhs).items.foldl
      (fun memory item => memory.copyItem order item) memory
    memory.setStatus order (memory.orders rhs).status
  else memory

/-- A series of assignments to one order. -/
def assignAll (order : OrderPtr) (sources : List OrderPtr) (memory : Memory) : Memory :=
  sources.foldl (fun memory rhs => memory.assign order rhs) memory

/-- A new object at an address, before the body of its constructor. Its id and its
status are whatever was there. -/
def allocateOrder (new : OrderPtr) (id : Int32) (status : OrderStatus)
    (memory : Memory) : Memory :=
  memory.setOrder new ⟨id, status, []⟩ (Heap.allocated_nil _)

/-- `Order::Order(const Order &)`. -/
def copyConstruct (new other : OrderPtr) (id : Int32) (status : OrderStatus)
    (memory : Memory) : Memory :=
  (memory.allocateOrder new id status).assign new other

/-- `Order::duplicate`, for the address that `std::make_shared<Order>` finds. -/
def duplicate (order new : OrderPtr) (id : Int32) (status : OrderStatus)
    (memory : Memory) : OrderPtr × Memory :=
  (new, memory.copyConstruct new order id status)

/-- `Order::operator==`. -/
def equals (memory : Memory) (order rhs : OrderPtr) : Bool :=
  (memory.value order).equals (memory.value rhs)

/-- Change an item through a pointer to it, as `Item::set_order_id` and
`Item::set_status` do. -/
def changeItem (item : ItemPtr) (change : Item → Item) (memory : Memory) : Memory where
  orders := memory.orders
  heap := memory.heap.modify item change
  allocated := memory.allocated

end Memory
end OrderTracking
