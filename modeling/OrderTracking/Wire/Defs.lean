import OrderTracking.Util
import OrderTracking.Wire.Names

/-!
# Encoding and decoding messages

The functions of `wire.cpp`. `encode` writes its output parameter piece by piece
and `decode` assigns its output parameter at the end of a branch, so each runs
in the state of that parameter.
-/

namespace OrderTracking
namespace Wire

/-- Separates the fields of a message. -/
abbrev pipe : UInt8 := '|'.toUInt8

/-- Separates the fields of an order. -/
abbrev comma : UInt8 := ','.toUInt8

/-- Separates the items of an order. -/
abbrev semicolon : UInt8 := ';'.toUInt8

/-- Separates the fields of an item. -/
abbrev colon : UInt8 := ':'.toUInt8

/-! ## Encoding -/

/-- The text that one turn of the loop of `encode_order` appends for an item. -/
def encodeItem (item : Item) : Bytes :=
  Cxx.toString item.orderId ++ [colon] ++ Cxx.toString item.id ++ [colon] ++
    itemStatusToStr item.status ++
    ([colon] ++ item.desc ++ [colon] ++ Cxx.toString item.qty)

/-- Take in an order and turn it into a message string. -/
def encodeOrder (order : Option Order) : Except Exception Bytes :=
  match order with
  | none => .error (.invalidMessage "Order cannot be empty")
  | some order =>
      if order.getNumItems = 0 then
        .error (.invalidMessage "Order cannot be empty")
      else
        let s := Cxx.toString order.id ++ [comma] ++
          orderStatusToStr order.status ++ [comma]
        .ok (order.visited.zipIdx.foldl
          (fun s (item, i) =>
            (if i > 0 then s ++ [semicolon] else s) ++ encodeItem item) s)

/-- Encode the data in a message as a string. -/
def encode (msg : Message) : Code Bytes Unit := do
  set (messageTypeToStr msg.type)
  match msg.type with
  | .dispHeartbeat => pure ()
  | .login =>
      modify (· ++ ([pipe] ++ clientModeToStr msg.clientMode ++ [pipe] ++ msg.str))
  | .quit | .ok | .error =>
      modify (· ++ ([pipe] ++ msg.str))
  | .orderNew | .dispOrder => do
      let text ← encodeOrder msg.order
      modify (· ++ ([pipe] ++ text))
  | .itemUpdate | .dispItemUpdate =>
      modify (· ++ ([pipe] ++ Cxx.toString msg.orderId ++ [pipe] ++
        Cxx.toString msg.itemId ++ [pipe] ++ itemStatusToStr msg.itemStatus))
  | .orderUpdate | .dispOrderUpdate =>
      modify (· ++ ([pipe] ++ Cxx.toString msg.orderId ++ [pipe] ++
        orderStatusToStr msg.orderStatus))
  | .invalid => throw (.invalidMessage "Message type was not recognized")

/-! ## Decoding -/

/-- Read a number that is at least `min`. -/
def validateIdMessage (s : Bytes) (min : Int32) : Except Exception Int32 :=
  if s.isEmpty then
    .error (.invalidMessage "message is empty")
  else if s.any fun c => c < '0'.toUInt8 || c > '9'.toUInt8 then
    .error (.invalidMessage "invalid character detected")
  else
    match Cxx.stoi s with
    | .ok current =>
        if current < min then
          .error (.invalidMessage "out-of-range character detected")
        else .ok current
    | .error .outOfRange =>
        .error (.invalidMessage "out-of-range character detected")
    | .error exception => .error exception

/-- One turn of the loop of `decode_order`: validate an item and build it. -/
def decodeItem (itemStr : Bytes) : Except Exception Item := do
  match ← Util.split itemStr colon with
  | [orderIdStr, idStr, statusStr, desc, qtyStr] =>
      let orderId ← validateIdMessage orderIdStr 1
      let id ← validateIdMessage idStr 1
      let status := strToItemStatus statusStr
      if status = .invalid then
        .error (.invalidMessage "Item status not of valid format")
      else
        let qty ← validateIdMessage qtyStr 1
        return { orderId, id, status, desc, qty }
  | _ => .error (.invalidMessage "Item message format invalid")

/-- `decode_order` once the id, the status and the items have been cut out. -/
def decodeOrderFields (idStr statusStr itemsStr : Bytes) :
    Except Exception Order := do
  let myId ← validateIdMessage idStr 1
  let myStatus := strToOrderStatus statusStr
  if myStatus = .invalid then
    .error (.invalidMessage "Order status invalid")
  else if itemsStr.isEmpty then
    .error (.invalidMessage "Cannot submit an empty order")
  else
    let itemStrs ← Util.split itemsStr semicolon
    if itemStrs.isEmpty then
      .error (.invalidMessage "Cannot submit an empty order")
    else
      itemStrs.foldlM
        (fun order itemStr => do
          let item ← decodeItem itemStr
          return order.addItem item)
        { id := myId, status := myStatus, items := [] }

/-- Take in a message string and turn it into an order. -/
def decodeOrder (s : Bytes) : Except Exception Order :=
  match Cxx.find s comma 0 with
  | none =>
      .error (.invalidMessage
        "Missing comma separating order id from order status")
  | some idDelim =>
      match Cxx.find s comma (idDelim + 1) with
      | none =>
          .error (.invalidMessage
            "Missing comma separating order status from order items")
      | some statusDelim => do
          let idStr ← Cxx.substr s 0 idDelim
          let statusStr ← Cxx.substr s (idDelim + 1) (statusDelim - idDelim - 1)
          let itemsStr ← Cxx.substrFrom s (statusDelim + 1)
          decodeOrderFields idStr statusStr itemsStr

/-- The branch of `decode` for a heartbeat. -/
def decodeHeartbeat (messageType : MessageType) (fields : List Bytes) :
    Code Message Unit :=
  match fields with
  | [] => set (Message.ofType messageType)
  | _ => throw (.invalidMessage "Invalid format for DISP_HEARTBEAT")

/-- The branch of `decode` for a login. -/
def decodeLogin (messageType : MessageType) (fields : List Bytes) :
    Code Message Unit :=
  match fields with
  | [modeStr, str] =>
      let myMode := strToClientMode modeStr
      if myMode = .invalid then throw (.invalidMessage "Invalid client mode")
      else set (Message.ofMode messageType myMode str)
  | _ => throw (.invalidMessage "Invalid format for LOGIN message")

/-- The branch of `decode` for the messages that carry a string. -/
def decodeText (messageType : MessageType) (fields : List Bytes) :
    Code Message Unit :=
  match fields with
  | [str] => set (Message.ofStr messageType str)
  | _ => throw (.invalidMessage "Invalid quit, ok, or error message")

/-- The branch of `decode` for the messages that carry an order. -/
def decodeOrderMessage (messageType : MessageType) (fields : List Bytes) :
    Code Message Unit :=
  match fields with
  | [orderStr] => do
      let order ← decodeOrder orderStr
      set (Message.ofOrder messageType order).duplicate
  | _ => throw (.invalidMessage "Invalid order message")

/-- The branch of `decode` for item updates. -/
def decodeItemUpdate (messageType : MessageType) (fields : List Bytes) :
    Code Message Unit :=
  match fields with
  | [orderIdStr, itemIdStr, statusStr] => do
      let orderId ← validateIdMessage orderIdStr 1
      let itemId ← validateIdMessage itemIdStr 1
      let myStatus := strToItemStatus statusStr
      if myStatus = .invalid then
        throw (.invalidMessage "Item status id not valid")
      else set (Message.ofItemStatus messageType orderId itemId myStatus)
  | _ => throw (.invalidMessage "Invalid item message format")

/-- The branch of `decode` for order updates. -/
def decodeOrderUpdate (messageType : MessageType) (fields : List Bytes) :
    Code Message Unit :=
  match fields with
  | [orderIdStr, statusStr] => do
      let orderId ← validateIdMessage orderIdStr 1
      let orderStatus := strToOrderStatus statusStr
      if orderStatus = .invalid then
        throw (.invalidMessage "Order status not valid")
      else set (Message.ofOrderStatus messageType orderId orderStatus)
  | _ => throw (.invalidMessage "Order update message format not valid")

/-- The branches of `decode`, by message type. -/
def decodeFields (messageType : MessageType) (fields : List Bytes) :
    Code Message Unit :=
  match messageType with
  | .invalid => throw (.invalidMessage "message type not recognized")
  | .dispHeartbeat => decodeHeartbeat messageType fields
  | .login => decodeLogin messageType fields
  | .quit | .ok | .error => decodeText messageType fields
  | .orderNew | .dispOrder => decodeOrderMessage messageType fields
  | .itemUpdate | .dispItemUpdate => decodeItemUpdate messageType fields
  | .orderUpdate | .dispOrderUpdate => decodeOrderUpdate messageType fields

/-- Decode an encoded message, using the decoded data to populate the output
parameter. -/
def decode (s : Bytes) : Code Message Unit := do
  match ← Util.split s pipe with
  | [] => throw (.invalidMessage "empty message string")
  | typeStr :: fields => decodeFields (strToMessageType typeStr) fields

end Wire
end OrderTracking
