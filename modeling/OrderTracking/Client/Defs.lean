import OrderTracking.Display.Replica
import OrderTracking.Framing.Defs
import OrderTracking.Updater.Defs

/-!
# Clients

The class `Client` with the functions that talk to its peer, and the password
database. The peer may send any bytes, and may stop accepting bytes at any point,
from which on every write fails. `chat_updater` is `update_chat`.
-/

namespace OrderTracking
namespace PasswordDB

/-- `s_passwd_db`. -/
def credentials : List Bytes :=
  ["admin/password123", "testuser/testpass2026", "guest/guestaccess", "jdoe/qwerty789",
    "dev_account/devmode!", "staff_member/orange-juice-44", "student01/classroom!",
    "root/supersecret", "demo_user/demo-only-99", "app_tester/let-me-in-now",
    "alice/foobar", "bob/frotz"].map ascii

/-- Whether a credential is in the database. -/
def authenticate (cred : Bytes) : Bool :=
  credentials.contains cred

end PasswordDB

/-- A client: its mode, and its socket with the bytes it delivers, the bytes written
to it and the number of bytes the peer still accepts, if that is limited. -/
structure Client where
  mode : ClientMode
  infd : Framing.Input
  out : Bytes
  room : Option Nat

namespace Client

/-- The constructor, for a socket. -/
def accepted (infd : Framing.Input) (room : Option Nat) : Client where
  mode := .invalid
  infd := infd
  out := []
  room := room

/-- Receive a string. -/
def receive : Code Client Bytes := fun client =>
  match Framing.receive.run ⟨client.infd, []⟩ with
  | .ok _ receiver => .ok receiver.s { client with infd := receiver.infd }
  | .error exception receiver => .error exception { client with infd := receiver.infd }

/-- Decode a string. -/
def decode (raw : Bytes) : Code Client Message := fun client =>
  match (Wire.decode raw).run .empty with
  | .ok _ msg => .ok msg client
  | .error exception _ => .error exception client

/-- Send a string. When the peer does not accept all of it, what it accepts has been
written. -/
def send (s : Bytes) : Code Client Unit := fun client =>
  let myFrame := Framing.frame s
  match client.room with
  | none => .ok () { client with out := client.out ++ myFrame }
  | some room =>
      if myFrame.length ≤ room then
        .ok () { client with
          out := client.out ++ myFrame
          room := some (room - myFrame.length) }
      else
        .error (.ioException "written frame size does not match expected frame size")
          { client with
            out := client.out ++ myFrame.take room
            room := some 0 }

/-- Send a message to the peer. -/
def sendMsg (msg : Message) : Code Client Unit := fun client =>
  match (Wire.encode msg).run [] with
  | .ok _ out => (send out).run client
  | .error exception _ => .error exception client

/-- `Client::login`. -/
def login : Code Client Unit := do
  let raw ← receive
  let req ← decode raw
  if req.type ≠ .login then
    throw (.protocolError "Not Login Message")
  else if !PasswordDB.authenticate req.str then do
    sendMsg (.ofStr .error (ascii "Bad Login"))
    throw (.protocolError "auth error")
  else do
    modify fun client => { client with mode := req.clientMode }
    if req.clientMode ≠ .updater ∧ req.clientMode ≠ .display then do
      sendMsg (.ofStr .error (ascii "invalid client mode"))
      throw (.protocolError "invalid client mode")
    else sendMsg (.ofStr .ok (ascii "successful login"))

/-- One turn of the loop of `update_chat`, with the server. Whatever a turn sends, it
sends last, so the responses are written after the turn. -/
def updateChat : Code (Server × Client) Bool := fun (server, client) =>
  match receive.run client with
  | .error exception client => .error exception (server, client)
  | .ok raw client =>
      match (Updater.updateChat raw).run ⟨server, []⟩ with
      | .error exception session =>
          match (session.sent.forM send).run client with
          | .error failure client => .error failure (session.server, client)
          | .ok _ client => .error exception (session.server, client)
      | .ok ends session =>
          match (session.sent.forM send).run client with
          | .error failure client => .error failure (session.server, client)
          | .ok _ client => .ok ends (session.server, client)

/-- What the destructor does first. -/
def unregister (self : ClientPtr) (client : Client) : Code Server Unit :=
  if client.mode = .display then Server.removeClient self else pure ()

end Client
end OrderTracking
