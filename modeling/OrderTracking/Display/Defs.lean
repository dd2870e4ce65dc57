import OrderTracking.Server.Defs

/-!
# The display client

The loop of `receive` in the display client's main program, from a decoded
message on. Its state is the map of orders it shows.
-/

namespace OrderTracking
namespace Display

/-- One turn of the loop of `receive`, on a decoded message. -/
def receiveMessage (msg : Message) : Code OrderMap Unit := do
  if msg.type = .dispHeartbeat then pure ()
  else if msg.type = .dispOrder then
    match msg.order with
    | none => throw (.protocolError "DISP_ORDER missing order")
    | some order => modify fun orders => orders.insert order.id order
  else if msg.type = .dispItemUpdate then
    match (← get).lookup msg.orderId with
    | none => pure ()
    | some order =>
        match order.findItem msg.itemId with
        | none => pure ()
        | some _ =>
            modify fun orders => orders.insert msg.orderId
              (order.setItemStatus msg.itemId msg.itemStatus)
  else if msg.type = .dispOrderUpdate then
    match (← get).lookup msg.orderId with
    | none => pure ()
    | some order =>
        if msg.orderStatus = .delivered then
          modify fun orders => orders.erase msg.orderId
        else
          modify fun orders =>
            orders.insert msg.orderId (order.setStatus msg.orderStatus)
  else throw (.protocolError "invalid response")

/-- The loop of `receive` on a list of decoded messages. -/
def receive (msgs : List Message) : Code OrderMap Unit :=
  msgs.forM receiveMessage

end Display
end OrderTracking
