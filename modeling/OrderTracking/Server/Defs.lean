import Mathlib.Data.Finmap
import OrderTracking.Message

/-!
# The server

The class `Server` and the message queues of its clients. Every operation holds
`my_lock` from its first access to its last, and broadcasts inside it, so it is
one atomic step on the state below. `broadcasts` is no field of the program: it
records every message handed to `broadcast`, whoever is registered.
-/

namespace OrderTracking

/-- A map from order ids to orders. -/
abbrev OrderMap := Finmap fun _ : Int32 => Order

/-- A pointer to a client. -/
abbrev ClientPtr := Nat

/-- The state shared by the threads of the server. -/
structure Server where
  myClients : Finset ClientPtr
  myOrders : OrderMap
  nextOrderId : Int32
  queues : ClientPtr → List Message
  broadcasts : List Message

namespace Server

/-- The server before its first client. -/
def initial : Server where
  myClients := ∅
  myOrders := ∅
  nextOrderId := 1000
  queues := fun _ => []
  broadcasts := []

/-- Append a message to the queue of a client. -/
def enqueue (client : ClientPtr) (message : Message) (server : Server) : Server :=
  { server with
    queues := Function.update server.queues client
      (server.queues client ++ [message]) }

/-- Enqueue a copy of the message for each registered client. -/
def broadcast (message : Message) (server : Server) : Server :=
  { server with
    queues := fun client =>
      if client ∈ server.myClients then
        server.queues client ++ [message.duplicate]
      else server.queues client
    broadcasts := server.broadcasts ++ [message] }

/-- Set the order stored under an id. -/
def setOrder (orderId : Int32) (order : Order) (server : Server) : Server :=
  { server with myOrders := server.myOrders.insert orderId order }

/-- Create a new order, broadcast it and return its id. -/
def createOrder (order : Order) : Code Server Int32 := do
  let orderId := (← get).nextOrderId
  modify fun server => { server with nextOrderId := orderId + 1 }
  let order := (order.setId orderId).setItemOrderIds orderId
  modify (setOrder orderId order)
  modify (broadcast (.ofOrder .dispOrder (some order.duplicate)))
  return orderId

/-- The status of an order after one of its items got a new status. -/
def newOrderStatus (order : Order) (newStatus : ItemStatus) : OrderStatus :=
  if order.status = .new ∧ newStatus = .inProgress then .inProgress
  else if order.status = .inProgress ∨ order.status = .new then
    if order.visited.all (·.status = .done) then .done else order.status
  else order.status

/-- Update an item, and its order's status if that changes with it. -/
def updateItem (orderId itemId : Int32) (newStatus : ItemStatus) :
    Code Server Unit := do
  match (← get).myOrders.lookup orderId with
  | none => throw (.semanticError "Order with order_id is not found")
  | some order =>
      match order.findItem itemId with
      | none => throw (.semanticError "Item with item_id is not found")
      | some item =>
          let cur := item.status
          if (cur = .new ∧ newStatus = .inProgress) ∨
              (cur = .inProgress ∧ newStatus = .done) then do
            let order := order.setItemStatus itemId newStatus
            modify (setOrder orderId order)
            modify (broadcast
              (.ofItemStatus .dispItemUpdate orderId itemId newStatus))
            let currentStatus := order.status
            let newOrderStatus := newOrderStatus order newStatus
            if newOrderStatus ≠ currentStatus then do
              modify (setOrder orderId (order.setStatus newOrderStatus))
              modify (broadcast
                (.ofOrderStatus .dispOrderUpdate orderId newOrderStatus))
            else pure ()
          else if cur = newStatus then
            throw (.semanticError
              "Must enter a new status. Cannot update to item's current status")
          else throw (.semanticError "Status change is invalid")

/-- Deliver an order, which removes it. -/
def updateOrder (orderId : Int32) (newStatus : OrderStatus) :
    Code Server Unit := do
  match (← get).myOrders.lookup orderId with
  | none => throw (.semanticError "Order with order_id not found")
  | some order =>
      let current := order.status
      if current ≠ .done ∨ newStatus ≠ .delivered then
        throw (.semanticError "cannot transition from current status to new_status")
      else do
        modify (setOrder orderId (order.setStatus newStatus))
        modify (broadcast (.ofOrderStatus .dispOrderUpdate orderId newStatus))
        modify fun server =>
          { server with myOrders := server.myOrders.erase orderId }

/-- Register a display client. -/
def addClient (client : ClientPtr) : Code Server Unit :=
  modify fun server =>
    { server with myClients := insert client server.myClients }

/-- Unregister a display client. -/
def removeClient (client : ClientPtr) : Code Server Unit :=
  modify fun server => { server with myClients := server.myClients.erase client }

/-- Take the first message of the queue of a client, if there is one. -/
def dequeue (client : ClientPtr) : Code Server (Option Message) := do
  match (← get).queues client with
  | [] => return none
  | message :: rest =>
      modify fun server =>
        { server with queues := Function.update server.queues client rest }
      return some message

/-- The orders are copies of all stored orders, in the order in which the hash
tables happen to list them. -/
def IsSnapshot (orders : List Order) (server : Server) : Prop :=
  (orders : Multiset Order) =
    server.myOrders.entries.map fun entry => entry.2.duplicate

end Server
end OrderTracking
