import Mathlib.Logic.Relation
import OrderTracking.Client.Defs

/-!
# The threads of the server

The server loop, which accepts connections, and the thread of each client, from its
creation to its destruction. Their steps interleave in any way. `chat_updater` is
`update_chat`, `register_display` is `add_client`, `unregister_display` is
`remove_client`, and `snapshot_orders` copies the stored orders.
-/

namespace OrderTracking

/-- How `Client::chat` ended: its thread could not be created, the loop of
`update_chat` was left, or an exception was thrown. -/
inductive End
  | notStarted
  | left
  | thrown (exception : Exception)

/-- How far a client is: before its thread exists, before `login`, in the loop of
`update_chat`, before `register_display`, before `snapshot_orders`, in `chat_display`
with messages to send before it turns to the queue, before its destructor, and after
the first statement of it. -/
inductive Phase
  | accepted
  | login
  | updater
  | registering
  | copying
  | sending (unsent : List Message)
  | closing (how : End)
  | unregistered (how : End)

/-- A client with its progress, the client as it was accepted, and a serial number
that no other client ever has. -/
structure Session where
  client : Client
  phase : Phase
  origin : Client
  serial : Nat

/-- The server, the clients by their addresses and the number of clients created. -/
structure System where
  server : Server
  clients : ClientPtr → Option Session
  created : Nat

/-- A step of the thread of a client, or of the server loop before the thread exists. -/
inductive Session.Step (self : ClientPtr) :
    Server → Session → Server → Session → Prop
  | spawn (client origin : Client) (serial : Nat) (server : Server) :
      Step self server ⟨client, .accepted, origin, serial⟩
        server ⟨client, .login, origin, serial⟩
  | spawnFailed (client origin : Client) (serial : Nat) (server : Server) :
      Step self server ⟨client, .accepted, origin, serial⟩
        server ⟨client, .closing .notStarted, origin, serial⟩
  | login (client next origin : Client) (serial : Nat) (server : Server)
      (ran : Client.login.run client = .ok () next) :
      Step self server ⟨client, .login, origin, serial⟩ server
        ⟨next, if next.mode = .updater then .updater else .registering, origin, serial⟩
  | loginFailed (exception : Exception) (client next origin : Client) (serial : Nat)
      (server : Server)
      (ran : Client.login.run client = .error exception next) :
      Step self server ⟨client, .login, origin, serial⟩ server
        ⟨next, .closing (.thrown exception), origin, serial⟩
  | turn (ends : Bool) (client next origin : Client) (serial : Nat)
      (server final : Server)
      (ran : Client.updateChat.run (server, client) = .ok ends (final, next)) :
      Step self server ⟨client, .updater, origin, serial⟩ final
        ⟨next, if ends then .closing .left else .updater, origin, serial⟩
  | turnFailed (exception : Exception) (client next origin : Client) (serial : Nat)
      (server final : Server)
      (ran : Client.updateChat.run (server, client) = .error exception (final, next)) :
      Step self server ⟨client, .updater, origin, serial⟩ final
        ⟨next, .closing (.thrown exception), origin, serial⟩
  | register (client origin : Client) (serial : Nat) (server final : Server)
      (ran : (Server.addClient self).run server = .ok () final) :
      Step self server ⟨client, .registering, origin, serial⟩ final
        ⟨client, .copying, origin, serial⟩
  | snapshot (orders : List Order) (client origin : Client) (serial : Nat)
      (server : Server)
      (copied : Server.IsSnapshot orders server) :
      Step self server ⟨client, .copying, origin, serial⟩ server
        ⟨client, .sending (Display.snapshotMessages orders), origin, serial⟩
  | send (msg : Message) (unsent : List Message) (client next origin : Client)
      (serial : Nat) (server : Server)
      (ran : (Client.sendMsg msg).run client = .ok () next) :
      Step self server ⟨client, .sending (msg :: unsent), origin, serial⟩ server
        ⟨next, .sending unsent, origin, serial⟩
  | sendFailed (exception : Exception) (msg : Message) (unsent : List Message)
      (client next origin : Client) (serial : Nat) (server : Server)
      (ran : (Client.sendMsg msg).run client = .error exception next) :
      Step self server ⟨client, .sending (msg :: unsent), origin, serial⟩ server
        ⟨next, .closing (.thrown exception), origin, serial⟩
  | dequeue (msg : Message) (client origin : Client) (serial : Nat)
      (server final : Server)
      (ran : (Server.dequeue self).run server = .ok (some msg) final) :
      Step self server ⟨client, .sending [], origin, serial⟩ final
        ⟨client, .sending [msg], origin, serial⟩
  | timeout (client origin : Client) (serial : Nat) (server : Server) :
      Step self server ⟨client, .sending [], origin, serial⟩ server
        ⟨client, .sending [.ofType .dispHeartbeat], origin, serial⟩
  | unregister (how : End) (client origin : Client) (serial : Nat)
      (server final : Server)
      (ran : (Client.unregister self client).run server = .ok () final) :
      Step self server ⟨client, .closing how, origin, serial⟩ final
        ⟨client, .unregistered how, origin, serial⟩

namespace System

/-- No connection has been accepted yet. -/
def start (server : Server) : System where
  server := { server with myClients := ∅ }
  clients := fun _ => none
  created := 0

/-- Create a client at a free address, with an empty queue. -/
def accept (self : ClientPtr) (infd : Framing.Input) (room : Option Nat)
    (system : System) : System where
  server := { system.server with
    queues := Function.update system.server.queues self [] }
  clients := Function.update system.clients self
    (some ⟨.accepted infd room, .accepted, .accepted infd room, system.created⟩)
  created := system.created + 1

/-- A step that concerns the client at an address: it is created, its thread takes a
step, or its memory becomes free. -/
inductive Step (self : ClientPtr) : System → System → Prop
  | accept (infd : Framing.Input) (room : Option Nat) (system : System)
      (free : system.clients self = none) :
      Step self system (system.accept self infd room)
  | run (session next : Session) (final : Server) (system : System)
      (live : system.clients self = some session)
      (step : Session.Step self system.server session final next) :
      Step self system
        { system with
          server := final
          clients := Function.update system.clients self (some next) }
  | free (session : Session) (how : End) (system : System)
      (live : system.clients self = some session)
      (destroyed : session.phase = .unregistered how) :
      Step self system
        { system with clients := Function.update system.clients self none }

/-- A step of some thread. -/
def Next (system final : System) : Prop :=
  ∃ self, Step self system final

/-- The systems that can develop from a server without clients. -/
def Reachable (server : Server) (system : System) : Prop :=
  Relation.ReflTransGen Next (start server) system

/-- What every step keeps holds after every run. -/
theorem holds_run
    {property : System → Prop}
    (kept : ∀ {self system final}, property system → Step self system final →
      property final)
    {system final : System}
    (steps : Relation.ReflTransGen Next system final)
    (holds : property system) :
    property final := by
  induction steps with
  | refl => exact holds
  | tail _ next inductionHypothesis =>
      obtain ⟨self, step⟩ := next
      exact kept inductionHypothesis step

/-- A step only concerns one client: what holds of every session holds of every
session afterwards, if it holds of an accepted one and the threads keep it. -/
theorem Step.forall_session
    {property : Session → Prop}
    {self : ClientPtr}
    {system final : System}
    (step : Step self system final)
    (accepted : ∀ infd room, property
      ⟨.accepted infd room, .accepted, .accepted infd room, system.created⟩)
    (kept : ∀ session next, property session →
      Session.Step self system.server session final.server next → property next)
    (before : ∀ other session, system.clients other = some session → property session)
    (other : ClientPtr)
    (session : Session)
    (live : final.clients other = some session) :
    property session := by
  by_cases own : other = self
  · subst own
    cases step with
    | accept infd room _ free =>
        simp only [System.accept, Function.update_self, Option.some.injEq] at live
        exact live ▸ accepted infd room
    | run earlier next server _ wasLive ran =>
        simp only [Function.update_self, Option.some.injEq] at live
        exact live ▸ kept earlier next (before _ _ wasLive) ran
    | free earlier how _ wasLive destroyed =>
        simp at live
  · apply before other session
    cases step with
    | accept infd room _ free => simpa [System.accept, own] using live
    | run earlier next server _ wasLive ran => simpa [own] using live
    | free earlier how _ wasLive destroyed => simpa [own] using live

/-- There is always a free address. -/
theorem exists_free
    {server : Server}
    {system : System}
    (reachable : Reachable server system) :
    ∃ self, system.clients self = none := by
  have bounded : ∃ bound, ∀ self, bound ≤ self → system.clients self = none := by
    apply holds_run ?_ reachable ⟨0, fun _ _ => rfl⟩
    rintro self system final ⟨bound, free⟩ step
    refine ⟨max bound (self + 1), fun other beyond => ?_⟩
    have different : other ≠ self :=
      Nat.ne_of_gt (Nat.lt_of_succ_le ((le_max_right bound (self + 1)).trans beyond))
    have isFree := free other ((le_max_left bound (self + 1)).trans beyond)
    cases step with
    | accept infd room _ _ => simpa [System.accept, different] using isFree
    | run session next server _ _ _ => simpa [different] using isFree
    | free session how _ _ _ => simpa [different] using isFree
  obtain ⟨bound, free⟩ := bounded
  exact ⟨bound, free bound (le_refl bound)⟩

end System
end OrderTracking
