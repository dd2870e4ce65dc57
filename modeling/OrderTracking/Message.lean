import OrderTracking.Model

/-!
# Messages

The class `Message`: a type and the union of the data of all message types.
There is one constructor for each combination of data; it leaves the other
fields at their defaults.
-/

namespace OrderTracking

/-- Message types. -/
inductive MessageType
  | invalid
  | login
  | quit
  | orderNew
  | itemUpdate
  | orderUpdate
  | ok
  | error
  | dispOrder
  | dispItemUpdate
  | dispOrderUpdate
  | dispHeartbeat
  deriving DecidableEq, Repr

/-- A message between a client and the server. -/
structure Message where
  type : MessageType
  clientMode : ClientMode
  str : Bytes
  order : Option Order
  orderId : Int32
  orderStatus : OrderStatus
  itemId : Int32
  itemStatus : ItemStatus
  deriving DecidableEq, Repr

namespace Message

/-- `Message()`: every field empty or invalid. -/
def empty : Message where
  type := .invalid
  clientMode := .invalid
  str := []
  order := none
  orderId := -1
  orderStatus := .invalid
  itemId := -1
  itemStatus := .invalid

/-- `Message(type)`. -/
def ofType (type : MessageType) : Message :=
  { empty with type := type }

/-- `Message(type, str)`. -/
def ofStr (type : MessageType) (str : Bytes) : Message :=
  { empty with type := type, str := str }

/-- `Message(type, client_mode, str)`. -/
def ofMode (type : MessageType) (clientMode : ClientMode) (str : Bytes) :
    Message :=
  { empty with type := type, clientMode := clientMode, str := str }

/-- `Message(type, order)`. -/
def ofOrder (type : MessageType) (order : Option Order) : Message :=
  { empty with type := type, order := order }

/-- `Message(type, order_id, order_status)`. -/
def ofOrderStatus (type : MessageType) (orderId : Int32)
    (orderStatus : OrderStatus) : Message :=
  { empty with type := type, orderId := orderId, orderStatus := orderStatus }

/-- `Message(type, order_id, item_id, item_status)`. -/
def ofItemStatus (type : MessageType) (orderId itemId : Int32)
    (itemStatus : ItemStatus) : Message :=
  { empty with
    type := type, orderId := orderId, itemId := itemId, itemStatus := itemStatus }

/-- A copy of the message with a deep copy of its order, as the copy constructor
and `operator=` make it. -/
def duplicate (message : Message) : Message :=
  { message with order := message.order.map Order.duplicate }

@[simp] theorem duplicate_eq (message : Message) :
    message.duplicate = message := by
  have same : message.order.map Order.duplicate = message.order := by
    cases message.order <;> simp
  rw [duplicate, same]

/-- The operand of `Message::operator==` that compares the orders. -/
def ordersDiffer (order rhs : Option Order) : Bool :=
  match order with
  | none => false
  | some order =>
      match rhs with
      | none => true
      | some rhs => !order.equals rhs

/-- `Message::operator==`. -/
def equals (message rhs : Message) : Bool :=
  if message.type ≠ rhs.type ∨ message.clientMode ≠ rhs.clientMode ∨
      message.str ≠ rhs.str ∨ ordersDiffer message.order rhs.order ∨
      message.orderId ≠ rhs.orderId ∨ message.orderStatus ≠ rhs.orderStatus ∨
      message.itemId ≠ rhs.itemId ∨ message.itemStatus ≠ rhs.itemStatus then false
  else true

/-- Types whose only data is a string. -/
def IsText (type : MessageType) : Prop :=
  type = .quit ∨ type = .ok ∨ type = .error

/-- Types whose data is an order. -/
def IsOrder (type : MessageType) : Prop :=
  type = .orderNew ∨ type = .dispOrder

/-- Types whose data is an item and its status. -/
def IsItemUpdate (type : MessageType) : Prop :=
  type = .itemUpdate ∨ type = .dispItemUpdate

/-- Types whose data is an order id and a status. -/
def IsOrderUpdate (type : MessageType) : Prop :=
  type = .orderUpdate ∨ type = .dispOrderUpdate

instance (type : MessageType) : Decidable (IsText type) :=
  inferInstanceAs (Decidable (_ ∨ _))

instance (type : MessageType) : Decidable (IsOrder type) :=
  inferInstanceAs (Decidable (_ ∨ _))

instance (type : MessageType) : Decidable (IsItemUpdate type) :=
  inferInstanceAs (Decidable (_ ∨ _))

instance (type : MessageType) : Decidable (IsOrderUpdate type) :=
  inferInstanceAs (Decidable (_ ∨ _))

/-- Messages built by the constructor that belongs to their type. -/
inductive Built : Message → Prop
  | invalid : Built empty
  | heartbeat : Built (ofType .dispHeartbeat)
  | login (clientMode : ClientMode) (str : Bytes) :
      Built (ofMode .login clientMode str)
  | text (type : MessageType) (kind : IsText type) (str : Bytes) :
      Built (ofStr type str)
  | order (type : MessageType) (kind : IsOrder type) (order : Option Order) :
      Built (ofOrder type order)
  | itemUpdate (type : MessageType) (kind : IsItemUpdate type)
      (orderId itemId : Int32) (itemStatus : ItemStatus) :
      Built (ofItemStatus type orderId itemId itemStatus)
  | orderUpdate (type : MessageType) (kind : IsOrderUpdate type)
      (orderId : Int32) (orderStatus : OrderStatus) :
      Built (ofOrderStatus type orderId orderStatus)

end Message
end OrderTracking
