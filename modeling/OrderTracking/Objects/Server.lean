import OrderTracking.Objects.Assignment
import OrderTracking.Server.Step

/-!
# The server on objects

The class `Server` with the pointers of the program. Orders and messages are objects
here: `my_orders`, the queues and the threads hold pointers to them, and an update of an
order changes its object, whoever holds a pointer to it. An object lives as long as a
`std::shared_ptr` holds it, so none is ever freed here.
-/

namespace OrderTracking

/-- A `std::shared_ptr<Message>`. -/
abbrev MessagePtr := Nat

/-! ## Messages -/

/-- An object of the class `Message`. -/
structure MessageObject where
  type : MessageType
  clientMode : ClientMode
  str : Bytes
  order : Option OrderPtr
  orderId : Int32
  orderStatus : OrderStatus
  itemId : Int32
  itemStatus : ItemStatus

namespace MessageObject

/-- The fields of a message, with this pointer to its order. -/
def of (msg : Message) (order : Option OrderPtr) : MessageObject where
  type := msg.type
  clientMode := msg.clientMode
  str := msg.str
  order := order
  orderId := msg.orderId
  orderStatus := msg.orderStatus
  itemId := msg.itemId
  itemStatus := msg.itemStatus

/-- With another pointer to an order. -/
def withOrder (object : MessageObject) (order : Option OrderPtr) : MessageObject :=
  { object with order := order }

/-- The message an object represents. -/
def value (object : MessageObject) (memory : Memory) : Message where
  type := object.type
  clientMode := object.clientMode
  str := object.str
  order := object.order.map memory.value
  orderId := object.orderId
  orderStatus := object.orderStatus
  itemId := object.itemId
  itemStatus := object.itemStatus

end MessageObject

/-! ## Items and orders -/

namespace Memory

theorem next_lt_makeShared
    (item : Item)
    (memory : Memory) :
    memory.heap.next < (memory.makeShared item).heap.next :=
  Nat.lt_succ_self _

/-- `add_item(std::make_shared<Item>(..))`. -/
def addNewItem (order : OrderPtr) (item : Item) (memory : Memory) : Memory :=
  (memory.makeShared item).addItem order memory.heap.next (memory.next_lt_makeShared item)

/-- The items that a loop over the order visits. -/
def visited (order : OrderPtr) (memory : Memory) : List ItemPtr :=
  (memory.orders order).items.take
    (Int32.ofNat (memory.orders order).items.length).toInt.toNat

/-- `Order::find_item`. -/
def findItem (order : OrderPtr) (itemId : Int32) (memory : Memory) : Option ItemPtr :=
  (memory.orders order).items.find? fun item => (memory.heap.cells item).id == itemId

/-- The loop of `create_order`: set the order id of every item. -/
def setItemOrderIds (order : OrderPtr) (orderId : Int32) (memory : Memory) : Memory :=
  (memory.visited order).foldl
    (fun memory item => memory.changeItem item (Item.setOrderId orderId)) memory

/-- The status of an order after one of its items got a new status. -/
def newOrderStatus (order : OrderPtr) (newStatus : ItemStatus) (memory : Memory) :
    OrderStatus :=
  let currentStatus := (memory.orders order).status
  if currentStatus = .new ∧ newStatus = .inProgress then .inProgress
  else if currentStatus = .inProgress ∨ currentStatus = .new then
    if (memory.visited order).all fun item => (memory.heap.cells item).status = .done then
      .done
    else currentStatus
  else currentStatus

end Memory

/-! ## The objects -/

/-- The orders, of which those below `nextOrder` exist, and the messages. -/
structure Objects where
  memory : Memory
  nextOrder : OrderPtr
  messages : Heap MessageObject

namespace Objects

/-- The order a pointer points to. -/
def order (objects : Objects) (order : OrderPtr) : Order :=
  objects.memory.value order

/-- The message a pointer points to. -/
def message (objects : Objects) (message : MessagePtr) : Message :=
  (objects.messages.cells message).value objects.memory

/-- `std::make_shared<Order>` and a loop that adds new items. -/
def makeOrder (order : Order) (objects : Objects) : OrderPtr × Objects :=
  let new := objects.nextOrder
  (new, { objects with
    memory := order.items.foldl (fun memory item => memory.addNewItem new item)
      (objects.memory.allocateOrder new order.id order.status)
    nextOrder := new + 1 })

/-- `Order::duplicate`. The id and the status of the new object are first what was at its
address. -/
def duplicateOrder (order : OrderPtr) (objects : Objects) : OrderPtr × Objects :=
  let new := objects.nextOrder
  let there := objects.memory.orders new
  (new, { objects with
    memory := (objects.memory.duplicate order new there.id there.status).2
    nextOrder := new + 1 })

/-- `std::make_shared<Message>`. -/
def makeMessage (object : MessageObject) (objects : Objects) : MessagePtr × Objects :=
  (objects.messages.next, { objects with messages := objects.messages.alloc object })

/-- `Message::duplicate`: `operator=` makes a deep copy of the order. -/
def duplicateMessage (message : MessagePtr) (objects : Objects) : MessagePtr × Objects :=
  let object := objects.messages.cells message
  match object.order with
  | none => objects.makeMessage object
  | some order =>
      let copied := objects.duplicateOrder order
      copied.2.makeMessage (object.withOrder (some copied.1))

/-- `Wire::decode` of a string that says this, to a new message: `operator=` copies it from
a temporary one. -/
def decode (msg : Message) (objects : Objects) : MessagePtr × Objects :=
  match msg.order with
  | none =>
      let temporary := objects.makeMessage (.of msg none)
      temporary.2.duplicateMessage temporary.1
  | some order =>
      let made := objects.makeOrder order
      let temporary := made.2.makeMessage (.of msg (some made.1))
      temporary.2.duplicateMessage temporary.1

/-- Duplicates of the orders, one after the other. -/
def duplicateOrders : List OrderPtr → Objects → List OrderPtr × Objects
  | [], objects => ([], objects)
  | order :: orders, objects =>
      let first := objects.duplicateOrder order
      let others := duplicateOrders orders first.2
      (first.1 :: others.1, others.2)

end Objects

/-! ## The server -/

/-- The class `Server` and the message queues of its clients. `broadcasts` and `copies` are
no fields of the program: they record the messages handed to `broadcast`, and the orders
that were copied for displays. -/
structure ObjectServer where
  objects : Objects
  myClients : Finset ClientPtr
  myOrders : Finmap fun _ : Int32 => OrderPtr
  nextOrderId : Int32
  queues : ClientPtr → List MessagePtr
  broadcasts : List MessagePtr
  copies : List OrderPtr

namespace ObjectServer

/-- The server before its first client. -/
def initial : ObjectServer where
  objects :=
    { memory := ⟨fun _ => ⟨0, .invalid, []⟩, ⟨fun _ => ⟨0, 0, .invalid, [], 0⟩, 0⟩,
        fun _ => Heap.allocated_nil _⟩
      nextOrder := 0
      messages := ⟨fun _ => .of .empty none, 0⟩ }
  myClients := ∅
  myOrders := ∅
  nextOrderId := 1000
  queues := fun _ => []
  broadcasts := []
  copies := []

/-- The loop over `my_clients` meets each client once. -/
def Lists (clients : List ClientPtr) (myClients : Finset ClientPtr) : Prop :=
  clients.Nodup ∧ ∀ client, client ∈ clients ↔ client ∈ myClients

/-- Change objects. -/
def modifyMemory (change : Memory → Memory) (server : ObjectServer) : ObjectServer :=
  { server with objects := { server.objects with memory := change server.objects.memory } }

/-- Make an object. -/
def make (create : Objects → Nat × Objects) : Code ObjectServer Nat := fun server =>
  .ok (create server.objects).1 { server with objects := (create server.objects).2 }

/-- The body of the loop of `broadcast`. -/
def enqueueCopy (message : MessagePtr) (client : ClientPtr) (server : ObjectServer) :
    ObjectServer :=
  let copied := server.objects.duplicateMessage message
  { server with
    objects := copied.2
    queues := Function.update server.queues client (server.queues client ++ [copied.1]) }

/-- Enqueue a copy of the message for each of the clients. -/
def broadcast (clients : List ClientPtr) (message : MessagePtr) (server : ObjectServer) :
    ObjectServer :=
  let server := clients.foldl (fun server client => enqueueCopy message client server) server
  { server with broadcasts := server.broadcasts ++ [message] }

/-- `create_order`. -/
def createOrder (clients : List ClientPtr) (order : OrderPtr) : Code ObjectServer Int32 := do
  let orderId := (← get).nextOrderId
  modify fun server => { server with nextOrderId := orderId + 1 }
  modify (modifyMemory (Memory.setId order orderId))
  modify (modifyMemory (Memory.setItemOrderIds order orderId))
  modify fun server => { server with myOrders := server.myOrders.insert orderId order }
  let copy ← make (Objects.duplicateOrder order)
  let message ← make (Objects.makeMessage (.of (.ofType .dispOrder) (some copy)))
  modify (broadcast clients message)
  return orderId

/-- `add_order(req.get_order()->duplicate())`, for the order of a request. -/
def addOrder (clients : List ClientPtr) (order : OrderPtr) : Code ObjectServer Int32 := do
  let copy ← make (Objects.duplicateOrder order)
  createOrder clients copy

/-- `update_item`. -/
def updateItem (clients : List ClientPtr) (orderId itemId : Int32)
    (newStatus : ItemStatus) : Code ObjectServer Unit := do
  match (← get).myOrders.lookup orderId with
  | none => throw (.semanticError "Order with order_id is not found")
  | some order =>
      match (← get).objects.memory.findItem order itemId with
      | none => throw (.semanticError "Item with item_id is not found")
      | some item =>
          let cur := ((← get).objects.memory.heap.cells item).status
          if (cur = .new ∧ newStatus = .inProgress) ∨
              (cur = .inProgress ∧ newStatus = .done) then do
            modify (modifyMemory (Memory.changeItem item (Item.setStatus newStatus)))
            let message ← make (Objects.makeMessage
              (.of (.ofItemStatus .dispItemUpdate orderId itemId newStatus) none))
            modify (broadcast clients message)
            let currentStatus := ((← get).objects.memory.orders order).status
            let newOrderStatus := (← get).objects.memory.newOrderStatus order newStatus
            if newOrderStatus ≠ currentStatus then do
              modify (modifyMemory (Memory.setStatus order newOrderStatus))
              let message ← make (Objects.makeMessage
                (.of (.ofOrderStatus .dispOrderUpdate orderId newOrderStatus) none))
              modify (broadcast clients message)
            else pure ()
          else if cur = newStatus then
            throw (.semanticError
              "Must enter a new status. Cannot update to item's current status")
          else throw (.semanticError "Status change is invalid")

/-- `update_order`. -/
def updateOrder (clients : List ClientPtr) (orderId : Int32) (newStatus : OrderStatus) :
    Code ObjectServer Unit := do
  match (← get).myOrders.lookup orderId with
  | none => throw (.semanticError "Order with order_id not found")
  | some order =>
      let current := ((← get).objects.memory.orders order).status
      if current ≠ .done ∨ newStatus ≠ .delivered then
        throw (.semanticError "cannot transition from current status to new_status")
      else do
        modify (modifyMemory (Memory.setStatus order newStatus))
        let message ← make (Objects.makeMessage
          (.of (.ofOrderStatus .dispOrderUpdate orderId newStatus) none))
        modify (broadcast clients message)
        modify fun server => { server with myOrders := server.myOrders.erase orderId }

/-- Register a display client. -/
def addClient (client : ClientPtr) : Code ObjectServer Unit :=
  modify fun server => { server with myClients := insert client server.myClients }

/-- Unregister a display client. -/
def removeClient (client : ClientPtr) : Code ObjectServer Unit :=
  modify fun server => { server with myClients := server.myClients.erase client }

/-- Take the first message of the queue of a client, if there is one. -/
def dequeue (client : ClientPtr) : Code ObjectServer (Option MessagePtr) := do
  match (← get).queues client with
  | [] => return none
  | message :: rest =>
      modify fun server =>
        { server with queues := Function.update server.queues client rest }
      return some message

/-- The loop over `my_orders` meets these orders. -/
def ListsOrders (orders : List OrderPtr) (server : ObjectServer) : Prop :=
  (orders : Multiset OrderPtr) = server.myOrders.entries.map fun entry => entry.2

/-- Copy all stored orders. -/
def snapshot (orders : List OrderPtr) : Code ObjectServer (List OrderPtr) := fun server =>
  let copied := Objects.duplicateOrders orders server.objects
  .ok copied.1 { server with
    objects := copied.2
    copies := server.copies ++ copied.1 }

end ObjectServer
end OrderTracking
