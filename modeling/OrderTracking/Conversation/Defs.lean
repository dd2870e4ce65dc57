import OrderTracking.Client.System
import OrderTracking.Framing.Causal
import OrderTracking.Programs.Defs
import OrderTracking.Updater.Responses

/-!
# Conversations

A client program and the server, connected by a socket. The connection is pending until
the server loop accepts it, which may fail. What the program writes is in flight until
the server's side delivers it, in pieces of any size; what the client at the server
writes can be read by the program from then on. All other threads of the server go on
meanwhile, with peers that may send anything. The connection may be reset at any time,
which loses what is in flight.
-/

namespace OrderTracking

/-! ## What a socket delivers over time -/

/-- One more delivery. -/
def Client.deliver (delivery : Framing.Delivery) (client : Client) : Client :=
  { client with infd := client.infd ++ [delivery] }

/-- One more delivery to the client of a session. -/
def Session.deliver (delivery : Framing.Delivery) (session : Session) : Session :=
  { session with
    client := session.client.deliver delivery
    origin := session.origin.deliver delivery }

/-- The peer accepts so many more bytes only. -/
def Session.limit (room : Nat) (session : Session) : Session :=
  { session with
    client := { session.client with room := some room }
    origin := { session.origin with room := some (session.client.out.length + room) } }

/-- Change the session of a client, if it has one. -/
def System.modifySession (self : ClientPtr) (change : Session → Session)
    (system : System) : System :=
  { system with
    clients := Function.update system.clients self ((system.clients self).map change) }

/-! ## The state -/

/-- A connection as its program sees it: open, closed by the program, or reset. -/
inductive Line
  | opened
  | closed
  | reset
  deriving DecidableEq

/-- The other end of a connection. It is pending until the server loop has accepted it,
with what has been delivered so far and how many more bytes the program takes. Then it is
a client of the server, and gone when that is destroyed. -/
inductive Far
  | pending (infd : Framing.Input) (room : Option Nat)
  | client (self : ClientPtr)
  | gone

/-- The connection of a program: its other end, the bytes on their way to it, the bytes it
has written that the program has not read, and how the program sees it. -/
structure Link where
  far : Far
  inFlight : Bytes
  unread : Bytes
  line : Line

/-- A session as the server loop creates it. -/
abbrev Session.accepted (infd : Framing.Input) (room : Option Nat) (serial : Nat) :
    Session :=
  ⟨.accepted infd room, .accepted, .accepted infd room, serial⟩

/-- The other end does not exist any more, or the connection is not open. -/
def Link.Broken (link : Link) : Prop :=
  link.far = .gone ∨ link.line ≠ .opened

/-- What happens to a pending connection happens to the client that is created for it. -/
def Far.change (change : Session → Session) : Far → Far
  | .pending infd room =>
      .pending (change (.accepted infd room 0)).client.infd
        (change (.accepted infd room 0)).client.room
  | .client self => .client self
  | .gone => .gone

/-- The server and a program with its terminal. `typed`, `sent`, `received` and `turns`
are no fields of the program or the server: they record the whole standard input, the
strings the program has sent and received, and the turns of `update_chat` that have
returned or thrown. -/
structure Conversation (σ : Type) where
  system : System
  talk : Programs.Talk (σ ⊕ Programs.Exit)
  typed : Bytes
  cin : Bytes
  cout : Bytes
  cerr : Bytes
  link : Option Link
  sent : List Bytes
  received : List Bytes
  turns : List Updater.Processed

namespace Conversation

variable {σ : Type}

/-- The program is started, on some standard input. -/
def initial (program : Programs.Program σ) (server : Server) (cin : Bytes) :
    Conversation σ where
  system := .start server
  talk := program.start
  typed := cin
  cin := cin
  cout := []
  cerr := []
  link := none
  sent := []
  received := []
  turns := []

/-! ## Calls of the program -/

/-- Replace the connection. -/
def setLink (link : Link) (conversation : Conversation σ) : Conversation σ :=
  { conversation with link := some link }

/-- Change the session at the other end, if it exists. -/
def changeSession (link : Link) (change : Session → Session)
    (conversation : Conversation σ) : Conversation σ :=
  { conversation with
    system :=
      match link.far with
      | .client self => conversation.system.modifySession self change
      | .pending _ _ | .gone => conversation.system }

/-- The answers a call can get. The terminal takes all that is printed. A connection is
pending at first. Writes only fail on a connection whose other end does not exist, or which
is reset, and then they may; so may reads. -/
inductive Answered : (call : Programs.Call) → Conversation σ →
    Programs.Answer call → Conversation σ → Prop
  | getline (conversation : Conversation σ) :
      Answered .getline conversation (Programs.nextLine conversation.cin).1
        { conversation with cin := (Programs.nextLine conversation.cin).2 }
  | print (text : Bytes) (conversation : Conversation σ) :
      Answered (.print text) conversation ()
        { conversation with cout := conversation.cout ++ text }
  | printError (text : Bytes) (conversation : Conversation σ) :
      Answered (.printError text) conversation ()
        { conversation with cerr := conversation.cerr ++ text }
  | connected (conversation : Conversation σ)
      (unlinked : conversation.link = none) :
      Answered .connect conversation true
        { conversation with link := some ⟨.pending [] none, [], [], .opened⟩ }
  | unconnected (text : Bytes) (conversation : Conversation σ)
      (prints : Programs.ConnectPrints text) :
      Answered .connect conversation false
        { conversation with cerr := conversation.cerr ++ text }
  | sent (s : Bytes) (link : Link) (conversation : Conversation σ)
      (linked : conversation.link = some link) :
      Answered (.send s) conversation (.ok ())
        { conversation with
          link := some { link with
            inFlight :=
              if link.line = .opened then link.inFlight ++ Framing.frame s
              else link.inFlight }
          sent := conversation.sent ++ [s] }
  | sendFailed (s : Bytes) (link : Link) (conversation : Conversation σ)
      (linked : conversation.link = some link)
      (broken : link.Broken) :
      Answered (.send s) conversation
        (.error (.ioException "written frame size does not match expected frame size"))
        conversation
  | received (s : Bytes) (infd rest : Framing.Input) (link : Link)
      (conversation : Conversation σ)
      (linked : conversation.link = some link)
      (delivers : Framing.available infd = link.unread)
      (ran : Framing.receive.run ⟨infd, []⟩ = .ok () ⟨rest, s⟩) :
      Answered .receive conversation (.ok s)
        { conversation with
          link := some { link with unread := Framing.available rest }
          received := conversation.received ++ [s] }
  | receiveFailed (exception : Exception) (infd rest : Framing.Input) (s : Bytes)
      (link : Link) (conversation : Conversation σ)
      (linked : conversation.link = some link)
      (unbroken : Framing.Unbroken infd)
      (delivers : Framing.available infd = link.unread)
      (ran : Framing.receive.run ⟨infd, []⟩ = .error exception ⟨rest, s⟩)
      (ended : exception = .ioException "file ended early" → link.far = .gone) :
      Answered .receive conversation (.error exception)
        (conversation.setLink { link with unread := Framing.available rest })
  | receiveBroken (link : Link) (conversation : Conversation σ)
      (linked : conversation.link = some link)
      (broken : link.Broken) :
      Answered .receive conversation
        (.error (.ioException "invalid character, read error")) conversation
  | notOpen (conversation : Conversation σ)
      (closed : ∀ link, conversation.link = some link → link.line ≠ .opened) :
      Answered .close conversation () conversation
  | close (room : Nat) (link : Link) (conversation : Conversation σ)
      (linked : conversation.link = some link)
      (opened : link.line = .opened) :
      Answered .close conversation ()
        ((conversation.changeSession link (Session.limit room)).setLink
          { link with far := link.far.change (Session.limit room), line := .closed })

/-! ## Steps -/

/-- The turn that a step of a session makes, if it makes one. -/
def turnOf (session : Session) (server final : Server) : List Updater.Processed :=
  match session.phase with
  | .updater =>
      match Client.receive.run session.client with
      | .error _ _ => []
      | .ok raw _ =>
          match (Updater.updateChat raw).run ⟨server, []⟩ with
          | .error _ turn | .ok _ turn => [⟨raw, server, final, turn.sent⟩]
  | _ => []

/-- The step of a session has met the end of its input. -/
def MetEnd (next : Session) : Prop :=
  next.phase = .closing (.thrown (.ioException "file ended early"))

/-- A step of another thread, a failure of `accept`, after which the server loop goes on,
or a reset of the connection. When `accept` fails, a connection that was reset may be lost
with it. -/
inductive Outer : Conversation σ → Conversation σ → Prop
  | elsewhere (other : ClientPtr) (final : System) (conversation : Conversation σ)
      (different : ∀ link self, conversation.link = some link → link.far = .client self →
        other ≠ self)
      (step : System.Step other conversation.system final) :
      Outer conversation { conversation with system := final }
  | acceptFailed (conversation : Conversation σ) :
      Outer conversation conversation
  | aborted (infd : Framing.Input) (room : Option Nat) (link : Link)
      (conversation : Conversation σ)
      (linked : conversation.link = some link)
      (pending : link.far = .pending infd room)
      (reset : link.line = .reset) :
      Outer conversation (conversation.setLink { link with far := .gone })
  | reset (room : Nat) (link : Link) (conversation : Conversation σ)
      (linked : conversation.link = some link)
      (opened : link.line = .opened) :
      Outer conversation
        ((conversation.changeSession link
          fun session => (session.deliver .failure).limit room).setLink
            { link with
              far := link.far.change fun session =>
                (session.deliver .failure).limit room
              inFlight := []
              line := .reset })

/-- A step of the connection, of the client at the other end, or of the program. The
client at the other end does not meet the end of its input before the program has closed
the connection and nothing is in flight. -/
inductive Inner (program : Programs.Program σ) :
    Conversation σ → Conversation σ → Prop
  | deliver (bytes rest : Bytes) (nonempty : bytes ≠ []) (link : Link)
      (conversation : Conversation σ)
      (linked : conversation.link = some link)
      (inFlight : link.inFlight = bytes ++ rest) :
      Inner program conversation
        ((conversation.changeSession link
          (Session.deliver (.chunk bytes nonempty))).setLink
            { link with
              far := link.far.change (Session.deliver (.chunk bytes nonempty))
              inFlight := rest })
  | accept (self : ClientPtr) (infd : Framing.Input) (room : Option Nat) (link : Link)
      (conversation : Conversation σ)
      (linked : conversation.link = some link)
      (pending : link.far = .pending infd room)
      (free : conversation.system.clients self = none) :
      Inner program conversation
        { conversation with
          system := conversation.system.accept self infd room
          link := some { link with far := .client self } }
  | session (self : ClientPtr) (session next : Session) (final : Server) (link : Link)
      (conversation : Conversation σ)
      (linked : conversation.link = some link)
      (accepted : link.far = .client self)
      (live : conversation.system.clients self = some session)
      (step : Session.Step self conversation.system.server session final next)
      (waits : MetEnd next → link.line ≠ .opened ∧ link.inFlight = []) :
      Inner program conversation
        { conversation with
          system := { conversation.system with
            server := final
            clients := Function.update conversation.system.clients self (some next) }
          link := some { link with
            unread :=
              link.unread ++ next.client.out.drop session.client.out.length }
          turns :=
            conversation.turns ++ turnOf session conversation.system.server final }
  | destroyed (self : ClientPtr) (session : Session) (how : End) (link : Link)
      (conversation : Conversation σ)
      (linked : conversation.link = some link)
      (accepted : link.far = .client self)
      (live : conversation.system.clients self = some session)
      (destroyed : session.phase = .unregistered how) :
      Inner program conversation
        { conversation with
          system := { conversation.system with
            clients := Function.update conversation.system.clients self none }
          link := some { link with far := .gone } }
  | call (call : Programs.Call)
      (next : Programs.Answer call → Programs.Talk (σ ⊕ Programs.Exit))
      (answer : Programs.Answer call) (conversation later : Conversation σ)
      (asks : conversation.talk = .ask call next)
      (answered : Answered call conversation answer later) :
      Inner program conversation { later with talk := next answer }
  | killed (s : Bytes)
      (next : Programs.Answer (.send s) → Programs.Talk (σ ⊕ Programs.Exit))
      (link : Link) (conversation : Conversation σ)
      (asks : conversation.talk = .ask (.send s) next)
      (linked : conversation.link = some link)
      (broken : link.Broken) :
      Inner program conversation { conversation with talk := .result (.inr .killed) }
  | loop (state : σ) (conversation : Conversation σ)
      (again : conversation.talk = .result (.inl state)) :
      Inner program conversation { conversation with talk := program.loop state }

/-- A step of a conversation. -/
def Step (program : Programs.Program σ) (conversation later : Conversation σ) : Prop :=
  Outer conversation later ∨ Inner program conversation later

/-- The conversations that a program and a server can have reached. -/
def Reachable (program : Programs.Program σ) (server : Server)
    (conversation : Conversation σ) : Prop :=
  ∃ cin, Relation.ReflTransGen (Step program) (initial program server cin) conversation

/-- What holds at the start and is kept by every step holds in every conversation. -/
theorem Reachable.induction
    {program : Programs.Program σ}
    {server : Server}
    {property : Conversation σ → Prop}
    (start : ∀ cin, property (initial program server cin))
    (kept : ∀ {conversation later}, property conversation →
      Step program conversation later → property later)
    {conversation : Conversation σ}
    (reachable : Reachable program server conversation) :
    property conversation := by
  obtain ⟨cin, steps⟩ := reachable
  induction steps with
  | refl => exact start cin
  | tail _ last inductionHypothesis => exact kept inductionHypothesis last

/-- The program goes on with an answer to its call. -/
theorem Answered.inner
    {program : Programs.Program σ}
    {conversation later : Conversation σ}
    {call : Programs.Call}
    {next : Programs.Answer call → Programs.Talk (σ ⊕ Programs.Exit)}
    {answer : Programs.Answer call}
    (answered : Answered call conversation answer later)
    (asks : conversation.talk = .ask call next) :
    Inner program conversation { later with talk := next answer } :=
  .call call next answer conversation later asks answered

theorem steps_of_inner
    {program : Programs.Program σ}
    {conversation later : Conversation σ}
    (steps : Relation.ReflTransGen (Inner program) conversation later) :
    Relation.ReflTransGen (Step program) conversation later := by
  induction steps with
  | refl => exact .refl
  | tail _ step inductionHypothesis => exact inductionHypothesis.tail (Or.inr step)

theorem Reachable.next
    {program : Programs.Program σ}
    {server : Server}
    {conversation later : Conversation σ}
    (reachable : Reachable program server conversation)
    (step : Inner program conversation later) :
    Reachable program server later := by
  obtain ⟨cin, steps⟩ := reachable
  exact ⟨cin, steps.tail (Or.inr step)⟩

theorem Reachable.all
    {program : Programs.Program σ}
    {server : Server}
    {conversation later : Conversation σ}
    (reachable : Reachable program server conversation)
    (steps : Relation.ReflTransGen (Inner program) conversation later) :
    Reachable program server later := by
  obtain ⟨cin, run⟩ := reachable
  exact ⟨cin, run.trans (steps_of_inner steps)⟩

theorem Reachable.of_inner
    {program : Programs.Program σ}
    {server : Server}
    {cin : Bytes}
    {conversation : Conversation σ}
    (steps : Relation.ReflTransGen (Inner program) (initial program server cin)
      conversation) :
    Reachable program server conversation :=
  ⟨cin, steps_of_inner steps⟩

theorem Answered.line
    {conversation : Conversation σ}
    {line : Option Bytes}
    {rest : Bytes}
    (next : Programs.nextLine conversation.cin = (line, rest)) :
    Answered .getline conversation line { conversation with cin := rest } := by
  have answered := Answered.getline conversation
  rwa [next] at answered

end Conversation
end OrderTracking
