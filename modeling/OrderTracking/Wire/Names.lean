import OrderTracking.Library.NameTable
import OrderTracking.Message

/-!
# Names on the wire

The four tables that give client modes, message types and statuses their names,
and the functions that read them in both directions.
-/

namespace OrderTracking
namespace Wire

/-- `s_client_mode_to_str` and its inverse. -/
def clientModes : NameTable ClientMode Bytes where
  entries :=
    [(.invalid, ascii "INVALID"),
     (.updater, ascii "UPDATER"),
     (.display, ascii "DISPLAY")]
  invalid := .invalid
  noName := ascii "<invalid>"
  total := by
    intro value
    cases value <;> decide
  valuesNodup := by decide
  namesNodup := by decide

/-- `s_message_type_to_str` and its inverse. -/
def messageTypes : NameTable MessageType Bytes where
  entries :=
    [(.invalid, ascii "INVALID"),
     (.login, ascii "LOGIN"),
     (.quit, ascii "QUIT"),
     (.orderNew, ascii "ORDER_NEW"),
     (.itemUpdate, ascii "ITEM_UPDATE"),
     (.orderUpdate, ascii "ORDER_UPDATE"),
     (.ok, ascii "OK"),
     (.error, ascii "ERROR"),
     (.dispOrder, ascii "DISP_ORDER"),
     (.dispItemUpdate, ascii "DISP_ITEM_UPDATE"),
     (.dispOrderUpdate, ascii "DISP_ORDER_UPDATE"),
     (.dispHeartbeat, ascii "DISP_HEARTBEAT")]
  invalid := .invalid
  noName := ascii "<invalid>"
  total := by
    intro value
    cases value <;> decide
  valuesNodup := by decide
  namesNodup := by decide

/-- `s_item_status_to_str` and its inverse. -/
def itemStatuses : NameTable ItemStatus Bytes where
  entries :=
    [(.invalid, ascii "INVALID"),
     (.new, ascii "NEW"),
     (.inProgress, ascii "IN_PROGRESS"),
     (.done, ascii "DONE")]
  invalid := .invalid
  noName := ascii "<invalid>"
  total := by
    intro value
    cases value <;> decide
  valuesNodup := by decide
  namesNodup := by decide

/-- `s_order_status_to_str` and its inverse. -/
def orderStatuses : NameTable OrderStatus Bytes where
  entries :=
    [(.invalid, ascii "INVALID"),
     (.new, ascii "NEW"),
     (.inProgress, ascii "IN_PROGRESS"),
     (.done, ascii "DONE"),
     (.delivered, ascii "DELIVERED")]
  invalid := .invalid
  noName := ascii "<invalid>"
  total := by
    intro value
    cases value <;> decide
  valuesNodup := by decide
  namesNodup := by decide

/-- Convert a client mode to a string. -/
def clientModeToStr (clientMode : ClientMode) : Bytes :=
  clientModes.name clientMode

/-- Convert a string to a client mode. -/
def strToClientMode (s : Bytes) : ClientMode :=
  clientModes.value s

/-- Convert a message type to a string. -/
def messageTypeToStr (messageType : MessageType) : Bytes :=
  messageTypes.name messageType

/-- Convert a string to a message type. -/
def strToMessageType (s : Bytes) : MessageType :=
  messageTypes.value s

/-- Convert an item status to a string. -/
def itemStatusToStr (itemStatus : ItemStatus) : Bytes :=
  itemStatuses.name itemStatus

/-- Convert a string to an item status. -/
def strToItemStatus (s : Bytes) : ItemStatus :=
  itemStatuses.value s

/-- Convert an order status to a string. -/
def orderStatusToStr (orderStatus : OrderStatus) : Bytes :=
  orderStatuses.name orderStatus

/-- Convert a string to an order status. -/
def strToOrderStatus (s : Bytes) : OrderStatus :=
  orderStatuses.value s

@[simp] theorem strToClientMode_clientModeToStr (clientMode : ClientMode) :
    strToClientMode (clientModeToStr clientMode) = clientMode :=
  clientModes.value_name clientMode

@[simp] theorem strToMessageType_messageTypeToStr (messageType : MessageType) :
    strToMessageType (messageTypeToStr messageType) = messageType :=
  messageTypes.value_name messageType

@[simp] theorem strToItemStatus_itemStatusToStr (itemStatus : ItemStatus) :
    strToItemStatus (itemStatusToStr itemStatus) = itemStatus :=
  itemStatuses.value_name itemStatus

@[simp] theorem strToOrderStatus_orderStatusToStr (orderStatus : OrderStatus) :
    strToOrderStatus (orderStatusToStr orderStatus) = orderStatus :=
  orderStatuses.value_name orderStatus

theorem clientModeToStr_strToClientMode
    {s : Bytes}
    (valid : strToClientMode s ≠ .invalid) :
    clientModeToStr (strToClientMode s) = s :=
  clientModes.name_value valid

theorem messageTypeToStr_strToMessageType
    {s : Bytes}
    (valid : strToMessageType s ≠ .invalid) :
    messageTypeToStr (strToMessageType s) = s :=
  messageTypes.name_value valid

theorem itemStatusToStr_strToItemStatus
    {s : Bytes}
    (valid : strToItemStatus s ≠ .invalid) :
    itemStatusToStr (strToItemStatus s) = s :=
  itemStatuses.name_value valid

theorem orderStatusToStr_strToOrderStatus
    {s : Bytes}
    (valid : strToOrderStatus s ≠ .invalid) :
    orderStatusToStr (strToOrderStatus s) = s :=
  orderStatuses.name_value valid

/-! ## Names contain no separators -/

/-- The bytes names are made of: capital letters and underscores. -/
def IsNameByte (byte : UInt8) : Prop :=
  byte = 95 ∨ 65 ≤ byte ∧ byte ≤ 90

instance (byte : UInt8) : Decidable (IsNameByte byte) :=
  inferInstanceAs (Decidable (_ ∨ _ ∧ _))

theorem all_isNameByte_iff
    {text : Bytes} :
    (text.all fun byte => IsNameByte byte) = true ↔
      ∀ byte ∈ text, IsNameByte byte := by
  simp

theorem isNameByte_of_mem_clientModeToStr (clientMode : ClientMode) :
    ∀ byte ∈ clientModeToStr clientMode, IsNameByte byte := by
  rw [← all_isNameByte_iff]
  cases clientMode <;> decide

theorem isNameByte_of_mem_messageTypeToStr (messageType : MessageType) :
    ∀ byte ∈ messageTypeToStr messageType, IsNameByte byte := by
  rw [← all_isNameByte_iff]
  cases messageType <;> decide

theorem isNameByte_of_mem_itemStatusToStr (itemStatus : ItemStatus) :
    ∀ byte ∈ itemStatusToStr itemStatus, IsNameByte byte := by
  rw [← all_isNameByte_iff]
  cases itemStatus <;> decide

theorem isNameByte_of_mem_orderStatusToStr (orderStatus : OrderStatus) :
    ∀ byte ∈ orderStatusToStr orderStatus, IsNameByte byte := by
  rw [← all_isNameByte_iff]
  cases orderStatus <;> decide

end Wire
end OrderTracking
