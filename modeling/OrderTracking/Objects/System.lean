import OrderTracking.Client.System
import OrderTracking.Objects.Server

/-!
# The threads on objects

The threads of the server with the pointers they hold. An updater decodes a request to a
message object. A display sends what its pointers point to when it sends it, which may be
long after it copied an order or took a message from its queue, and without a lock.
-/

namespace OrderTracking

/-! ## Updaters -/

namespace ObjectUpdater

/-- What a turn of the loop of `update_chat` acts on. -/
structure Session where
  server : ObjectServer
  sent : List Bytes

/-- Encode a temporary message and send it to the client. -/
def sendMsg (msg : Message) : Code Session Unit := fun session =>
  match (Wire.encode msg).run [] with
  | .ok _ out => .ok () { session with sent := session.sent ++ [out] }
  | .error exception _ => .error exception session

/-- Call the server. -/
def call (code : Code ObjectServer α) : Code Session α := fun session =>
  match code.run session.server with
  | .ok value server => .ok value { session with server := server }
  | .error exception server => .error exception { session with server := server }

/-- The `switch` on a decoded request. Returns whether the session ends. -/
def handle (clients : List ClientPtr) (req : MessagePtr) : Code Session Bool := do
  let object := (← get).server.objects.messages.cells req
  match object.type with
  | .quit =>
      sendMsg (.ofStr .ok (ascii "goodbye"))
      return true
  | .orderNew =>
      match object.order with
      | none => throw (.semanticError "ORDER_NEW missing order")
      | some order =>
          if ((← get).server.objects.memory.orders order).id ≠ 1 then
            throw (.semanticError "ORDER_NEW must have order id of 1")
          else
            let newId ← call (ObjectServer.addOrder clients order)
            sendMsg (.ofStr .ok (ascii "Created order id " ++ Cxx.toString newId))
            return false
  | .itemUpdate =>
      call (ObjectServer.updateItem clients object.orderId object.itemId object.itemStatus)
      sendMsg (.ofStr .ok (ascii "successful item update"))
      return false
  | .orderUpdate =>
      call (ObjectServer.updateOrder clients object.orderId object.orderStatus)
      sendMsg (.ofStr .ok (ascii "successful order update"))
      return false
  | _ => throw (.protocolError "unexpected message type from updater")

/-- One turn of the loop of `update_chat`, on a received string. -/
def updateChat (clients : List ClientPtr) (raw : Bytes) : Code Session Bool := fun session =>
  match (Wire.decode raw).run .empty with
  | .error exception _ => .error exception session
  | .ok _ msg =>
      let decoded := session.server.objects.decode msg
      let session :=
        { session with server := { session.server with objects := decoded.2 } }
      match (handle clients decoded.1).run session with
      | .ok ends session => .ok ends session
      | .error (.semanticError what) session =>
          (do sendMsg (.ofStr .error (ascii what)); return false : Code Session Bool).run
            session
      | .error exception session => .error exception session

end ObjectUpdater

namespace ObjectClient

/-- One turn of the loop of `update_chat`, with the server. -/
def updateChat (clients : List ClientPtr) : Code (ObjectServer × Client) Bool :=
  fun (server, client) =>
    match Client.receive.run client with
    | .error exception client => .error exception (server, client)
    | .ok raw client =>
        match (ObjectUpdater.updateChat clients raw).run ⟨server, []⟩ with
        | .error exception session =>
            match (session.sent.forM Client.send).run client with
            | .error failure client => .error failure (session.server, client)
            | .ok _ client => .error exception (session.server, client)
        | .ok ends session =>
            match (session.sent.forM Client.send).run client with
            | .error failure client => .error failure (session.server, client)
            | .ok _ client => .ok ends (session.server, client)

/-- What the destructor does first. -/
def unregister (self : ClientPtr) (client : Client) : Code ObjectServer Unit :=
  if client.mode = .display then ObjectServer.removeClient self else pure ()

end ObjectClient

/-! ## Displays -/

/-- What the thread of a display is about to send: a temporary message that points to a
copied order, a message from its queue, or a heartbeat. -/
inductive Unsent
  | order (order : OrderPtr)
  | message (message : MessagePtr)
  | heartbeat

/-- What would be sent now. -/
def Unsent.value (objects : Objects) : Unsent → Message
  | .order copy => .ofOrder .dispOrder (some (objects.order copy))
  | .message taken => objects.message taken
  | .heartbeat => .ofType .dispHeartbeat

/-! ## Threads -/

/-- How far a client is. -/
inductive ObjectPhase
  | accepted
  | login
  | updater
  | registering
  | copying
  | sending (unsent : List Unsent)
  | closing (how : End)
  | unregistered (how : End)

namespace ObjectPhase

/-- The phase with what would be sent now. -/
def value (objects : Objects) : ObjectPhase → Phase
  | accepted => .accepted
  | login => .login
  | updater => .updater
  | registering => .registering
  | copying => .copying
  | sending unsent => .sending (unsent.map (Unsent.value objects))
  | closing how => .closing how
  | unregistered how => .unregistered how

/-- What is about to be sent. -/
def unsent : ObjectPhase → List Unsent
  | sending unsent => unsent
  | _ => []

end ObjectPhase

/-- A client with its progress, the client as it was accepted, and its serial number. -/
structure ObjectSession where
  client : Client
  phase : ObjectPhase
  origin : Client
  serial : Nat

/-- The session with what would be sent now. -/
def ObjectSession.value (objects : Objects) (session : ObjectSession) : Session where
  client := session.client
  phase := session.phase.value objects
  origin := session.origin
  serial := session.serial

/-- The server, the clients by their addresses and the number of clients created. -/
structure ObjectSystem where
  server : ObjectServer
  clients : ClientPtr → Option ObjectSession
  created : Nat

/-- A step of the thread of a client, or of the server loop before the thread exists. -/
inductive ObjectSession.Step (self : ClientPtr) :
    ObjectServer → ObjectSession → ObjectServer → ObjectSession → Prop
  | spawn (client origin : Client) (serial : Nat) (server : ObjectServer) :
      Step self server ⟨client, .accepted, origin, serial⟩
        server ⟨client, .login, origin, serial⟩
  | spawnFailed (client origin : Client) (serial : Nat) (server : ObjectServer) :
      Step self server ⟨client, .accepted, origin, serial⟩
        server ⟨client, .closing .notStarted, origin, serial⟩
  | login (client next origin : Client) (serial : Nat) (server : ObjectServer)
      (ran : Client.login.run client = .ok () next) :
      Step self server ⟨client, .login, origin, serial⟩ server
        ⟨next, if next.mode = .updater then .updater else .registering, origin, serial⟩
  | loginFailed (exception : Exception) (client next origin : Client) (serial : Nat)
      (server : ObjectServer)
      (ran : Client.login.run client = .error exception next) :
      Step self server ⟨client, .login, origin, serial⟩ server
        ⟨next, .closing (.thrown exception), origin, serial⟩
  | turn (clients : List ClientPtr) (ends : Bool) (client next origin : Client)
      (serial : Nat) (server final : ObjectServer)
      (lists : ObjectServer.Lists clients server.myClients)
      (ran : (ObjectClient.updateChat clients).run (server, client) =
        .ok ends (final, next)) :
      Step self server ⟨client, .updater, origin, serial⟩ final
        ⟨next, if ends then .closing .left else .updater, origin, serial⟩
  | turnFailed (clients : List ClientPtr) (exception : Exception)
      (client next origin : Client) (serial : Nat) (server final : ObjectServer)
      (lists : ObjectServer.Lists clients server.myClients)
      (ran : (ObjectClient.updateChat clients).run (server, client) =
        .error exception (final, next)) :
      Step self server ⟨client, .updater, origin, serial⟩ final
        ⟨next, .closing (.thrown exception), origin, serial⟩
  | register (client origin : Client) (serial : Nat) (server final : ObjectServer)
      (ran : (ObjectServer.addClient self).run server = .ok () final) :
      Step self server ⟨client, .registering, origin, serial⟩ final
        ⟨client, .copying, origin, serial⟩
  | snapshot (orders copies : List OrderPtr) (client origin : Client) (serial : Nat)
      (server final : ObjectServer)
      (lists : ObjectServer.ListsOrders orders server)
      (ran : (ObjectServer.snapshot orders).run server = .ok copies final) :
      Step self server ⟨client, .copying, origin, serial⟩ final
        ⟨client, .sending (copies.map .order), origin, serial⟩
  | send (unsent : Unsent) (later : List Unsent) (client next origin : Client)
      (serial : Nat) (server : ObjectServer)
      (ran : (Client.sendMsg (unsent.value server.objects)).run client = .ok () next) :
      Step self server ⟨client, .sending (unsent :: later), origin, serial⟩ server
        ⟨next, .sending later, origin, serial⟩
  | sendFailed (exception : Exception) (unsent : Unsent) (later : List Unsent)
      (client next origin : Client) (serial : Nat) (server : ObjectServer)
      (ran : (Client.sendMsg (unsent.value server.objects)).run client =
        .error exception next) :
      Step self server ⟨client, .sending (unsent :: later), origin, serial⟩ server
        ⟨next, .closing (.thrown exception), origin, serial⟩
  | dequeue (message : MessagePtr) (client origin : Client) (serial : Nat)
      (server final : ObjectServer)
      (ran : (ObjectServer.dequeue self).run server = .ok (some message) final) :
      Step self server ⟨client, .sending [], origin, serial⟩ final
        ⟨client, .sending [.message message], origin, serial⟩
  | timeout (client origin : Client) (serial : Nat) (server : ObjectServer) :
      Step self server ⟨client, .sending [], origin, serial⟩ server
        ⟨client, .sending [.heartbeat], origin, serial⟩
  | unregister (how : End) (client origin : Client) (serial : Nat)
      (server final : ObjectServer)
      (ran : (ObjectClient.unregister self client).run server = .ok () final) :
      Step self server ⟨client, .closing how, origin, serial⟩ final
        ⟨client, .unregistered how, origin, serial⟩

namespace ObjectSystem

/-- No connection has been accepted yet, and no object made. -/
def start : ObjectSystem where
  server := .initial
  clients := fun _ => none
  created := 0

/-- Create a client at a free address, with an empty queue. -/
def accept (self : ClientPtr) (infd : Framing.Input) (room : Option Nat)
    (system : ObjectSystem) : ObjectSystem where
  server := { system.server with
    queues := Function.update system.server.queues self [] }
  clients := Function.update system.clients self
    (some ⟨.accepted infd room, .accepted, .accepted infd room, system.created⟩)
  created := system.created + 1

/-- A step that concerns the client at an address. -/
inductive Step (self : ClientPtr) : ObjectSystem → ObjectSystem → Prop
  | accept (infd : Framing.Input) (room : Option Nat) (system : ObjectSystem)
      (free : system.clients self = none) :
      Step self system (system.accept self infd room)
  | run (session next : ObjectSession) (final : ObjectServer) (system : ObjectSystem)
      (live : system.clients self = some session)
      (step : ObjectSession.Step self system.server session final next) :
      Step self system
        { system with
          server := final
          clients := Function.update system.clients self (some next) }
  | free (session : ObjectSession) (how : End) (system : ObjectSystem)
      (live : system.clients self = some session)
      (destroyed : session.phase = .unregistered how) :
      Step self system
        { system with clients := Function.update system.clients self none }

/-- A step of some thread. -/
def Next (system final : ObjectSystem) : Prop :=
  ∃ self, Step self system final

/-- The systems that can develop. -/
def Reachable (system : ObjectSystem) : Prop :=
  Relation.ReflTransGen Next start system

end ObjectSystem
end OrderTracking
