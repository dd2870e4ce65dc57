import OrderTracking.Server.Step
import OrderTracking.Wire.Defs

/-!
# Updater sessions

The loop of `Client::update_chat`. Each turn handles one received string in the
state of the server and of the strings the session has sent. `add_order` is
`create_order`, and sends succeed.
-/

namespace OrderTracking
namespace Updater

/-- What a turn of the loop acts on. -/
structure Session where
  server : Server
  sent : List Bytes

/-- Encode a message and send it to the client. -/
def sendMsg (msg : Message) : Code Session Unit := fun session =>
  match (Wire.encode msg).run [] with
  | .ok _ out => .ok () { session with sent := session.sent ++ [out] }
  | .error exception _ => .error exception session

/-- Call the server. -/
def call (code : Code Server α) : Code Session α := fun session =>
  match code.run session.server with
  | .ok value server => .ok value { session with server := server }
  | .error exception server => .error exception { session with server := server }

/-- The `switch` on a decoded request. Returns whether the session ends. -/
def handle (req : Message) : Code Session Bool := do
  match req.type with
  | .quit =>
      sendMsg (.ofStr .ok (ascii "goodbye"))
      return true
  | .orderNew =>
      match req.order with
      | none => throw (.semanticError "ORDER_NEW missing order")
      | some order =>
          if order.id ≠ 1 then
            throw (.semanticError "ORDER_NEW must have order id of 1")
          else
            let newId ← call (Server.createOrder order.duplicate)
            sendMsg (.ofStr .ok (ascii "Created order id " ++ Cxx.toString newId))
            return false
  | .itemUpdate =>
      call (Server.updateItem req.orderId req.itemId req.itemStatus)
      sendMsg (.ofStr .ok (ascii "successful item update"))
      return false
  | .orderUpdate =>
      call (Server.updateOrder req.orderId req.orderStatus)
      sendMsg (.ofStr .ok (ascii "successful order update"))
      return false
  | _ => throw (.protocolError "unexpected message type from updater")

/-- One turn of the loop of `update_chat`, on a received string. Returns whether
the session ends. -/
def updateChat (raw : Bytes) : Code Session Bool := fun session =>
  match (Wire.decode raw).run .empty with
  | .error exception _ => .error exception session
  | .ok _ req =>
      match (handle req).run session with
      | .ok ends session => .ok ends session
      | .error (.semanticError what) session =>
          (do sendMsg (.ofStr .error (ascii what)); return false : Code Session Bool).run
            session
      | .error exception session => .error exception session

/-- The server after one received string was handled. -/
def serve (server : Server) (raw : Bytes) : Server :=
  match (updateChat raw).run ⟨server, []⟩ with
  | .ok _ session => session.server
  | .error _ session => session.server

/-- The server after the strings of any number of sessions were handled in this
order. -/
def serveAll (server : Server) (raws : List Bytes) : Server :=
  replay serve server raws

/-- The call a decoded request leads to. -/
def operation (req : Message) : Option Server.Operation :=
  match req.type with
  | .orderNew =>
      match req.order with
      | none => none
      | some order => if order.id ≠ 1 then none else some (.createOrder order)
  | .itemUpdate => some (.updateItem req.orderId req.itemId req.itemStatus)
  | .orderUpdate => some (.updateOrder req.orderId req.orderStatus)
  | _ => none

/-- The call a received string leads to. -/
def request (raw : Bytes) : Option Server.Operation :=
  match (Wire.decode raw).run .empty with
  | .error _ _ => none
  | .ok _ req => operation req

end Updater
end OrderTracking
