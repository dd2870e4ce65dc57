import OrderTracking.Library.LockOrder
import OrderTracking.Server.Defs

/-!
# The mutexes of the server

What the operations of `Server` and `MessageQueue` do to `my_lock` and to the
`m_lock` of each client's queue, on every path through them. An operation that
holds `my_lock` follows the server as it is then: a `Guard` releases the mutex
when its block ends, by an exception too.
-/

namespace OrderTracking
namespace Locking

/-- `my_lock` of the server, and `m_lock` of the queue of a client. -/
inductive Mutex
  | myLock
  | mLock (client : ClientPtr)
  deriving DecidableEq

/-- A step on the mutexes. -/
abbrev Action := LockOrder.Action Mutex

/-- A block whose first declaration is `Guard my_guard(my_lock)`. -/
def guarded (body : List Action) : List Action :=
  .lock .myLock :: (body ++ [.unlock .myLock])

/-- `MessageQueue::enqueue`. -/
def enqueue (client : ClientPtr) : List Action :=
  [.lock (.mLock client), .unlock (.mLock client)]

/-- `MessageQueue::dequeue`, which returns early when its wait fails. -/
def dequeue (client : ClientPtr) (waited : Bool) : List Action :=
  if waited then [.lock (.mLock client), .unlock (.mLock client)] else []

/-- `Server::broadcast`, in the order in which it meets the clients. -/
def broadcast (clients : List ClientPtr) : List Action :=
  clients.flatMap enqueue

/-- `Server::create_order`. -/
def createOrder (clients : List ClientPtr) : List Action :=
  guarded (broadcast clients)

/-- `Server::update_item`. -/
def updateItem (server : Server) (clients : List ClientPtr) (orderId itemId : Int32)
    (newStatus : ItemStatus) : List Action :=
  guarded
    (match server.myOrders.lookup orderId with
    | none => []
    | some order =>
        match order.findItem itemId with
        | none => []
        | some item =>
            let cur := item.status
            if (cur = .new ∧ newStatus = .inProgress) ∨
                (cur = .inProgress ∧ newStatus = .done) then
              let order := order.setItemStatus itemId newStatus
              broadcast clients ++
                if Server.newOrderStatus order newStatus ≠ order.status then
                  broadcast clients
                else []
            else [])

/-- `Server::update_order`. -/
def updateOrder (server : Server) (clients : List ClientPtr) (orderId : Int32)
    (newStatus : OrderStatus) : List Action :=
  guarded
    (match server.myOrders.lookup orderId with
    | none => []
    | some order =>
        if order.status ≠ .done ∨ newStatus ≠ .delivered then []
        else broadcast clients)

/-- `Server::add_client`. -/
def addClient : List Action := guarded []

/-- `Server::remove_client`. -/
def removeClient : List Action := guarded []

/-- `Server::send_order_message`, with the copied orders. -/
def sendOrderMessage (orders : List Order) (client : ClientPtr) : List Action :=
  guarded [] ++ orders.flatMap fun _ => enqueue client

/-- The order in which a loop over `my_clients` meets its elements. -/
def Lists (clients : List ClientPtr) (server : Server) : Prop :=
  clients.Nodup ∧ ∀ client, client ∈ clients ↔ client ∈ server.myClients

/-- The paths through the operations, whatever server they find. -/
inductive Operation : List Action → Prop
  | createOrder (server : Server) (clients : List ClientPtr)
      (lists : Lists clients server) :
      Operation (createOrder clients)
  | updateItem (server : Server) (clients : List ClientPtr)
      (orderId itemId : Int32) (newStatus : ItemStatus)
      (lists : Lists clients server) :
      Operation (updateItem server clients orderId itemId newStatus)
  | updateOrder (server : Server) (clients : List ClientPtr)
      (orderId : Int32) (newStatus : OrderStatus)
      (lists : Lists clients server) :
      Operation (updateOrder server clients orderId newStatus)
  | addClient : Operation addClient
  | removeClient : Operation removeClient
  | sendOrderMessage (server : Server) (orders : List Order) (client : ClientPtr)
      (copied : server.IsSnapshot orders) :
      Operation (sendOrderMessage orders client)
  | enqueue (client : ClientPtr) : Operation (enqueue client)
  | dequeue (client : ClientPtr) (waited : Bool) : Operation (dequeue client waited)

/-- The owners of the mutexes and what the threads have left of their operations. -/
abbrev State (Thread : Type) := LockOrder.State Thread Mutex

/-- The states any number of threads can lead to. -/
def Reachable {Thread : Type} [DecidableEq Thread] (state : State Thread) : Prop :=
  LockOrder.Reachable Operation state

end Locking
end OrderTracking
