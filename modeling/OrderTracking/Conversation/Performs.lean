import OrderTracking.Client.Runs
import OrderTracking.Conversation.Rules
import OrderTracking.Programs.Screens

/-!
# What a program can do in a conversation

Runs of a conversation, composed from those of the parts of its program. A program whose
connection is quiet can send a string and receive the response of the session, and so it
can log in and get requests served. The connection and the other threads go on whatever
the program is about to do meanwhile.
-/

namespace OrderTracking
namespace Conversation

open Framing (frame available)
open Programs (Call Answer Exit IsLine Script Talk Tells welcome)

variable {σ : Type} {program : Programs.Program σ} {α β : Type}
variable {conversation later last : Conversation σ}

/-! ## Runs of a part of the program -/

/-- The conversation can go on so without its program. -/
def GoesOn (program : Programs.Program σ) (conversation later : Conversation σ) : Prop :=
  ∀ talk, Relation.ReflTransGen (Inner program) { conversation with talk := talk }
    { later with talk := talk }

/-- A part of the program can end with a value. -/
def Performs (program : Programs.Program σ) (part : Talk α) (conversation : Conversation σ)
    (value : α) (later : Conversation σ) : Prop :=
  ∀ rest : α → Talk (σ ⊕ Exit), Relation.ReflTransGen (Inner program)
    { conversation with talk := part.bind rest } { later with talk := rest value }

theorem performs_result
    (value : α) :
    Performs program (.result value) conversation value conversation :=
  fun _ => .refl

theorem Performs.after
    {part : Talk α}
    {value : α}
    (performs : Performs program part later value last)
    (goesOn : GoesOn program conversation later) :
    Performs program part conversation value last :=
  fun rest => (goesOn (part.bind rest)).trans (performs rest)

/-- What a call is answered does not depend on what the program is about to do. -/
theorem Answered.talk
    {call : Call}
    {answer : Answer call}
    (answered : Answered call conversation answer later)
    (talk : Talk (σ ⊕ Exit)) :
    Answered call { conversation with talk := talk } answer { later with talk := talk } := by
  cases answered with
  | getline => exact .getline _
  | print text => exact .print text _
  | printError text => exact .printError text _
  | connected _ unlinked => exact .connected _ unlinked
  | unconnected text _ prints => exact .unconnected text _ prints
  | sent s link _ linked => exact .sent s link _ linked
  | sendFailed s link _ linked broken => exact .sendFailed s link _ linked broken
  | received s infd rest link _ linked delivers ran =>
      exact .received s infd rest link _ linked delivers ran
  | receiveFailed exception infd rest s link _ linked unbroken delivers ran ended =>
      exact .receiveFailed exception infd rest s link _ linked unbroken delivers ran ended
  | receiveBroken link _ linked broken => exact .receiveBroken link _ linked broken
  | notOpen _ closed => exact .notOpen _ closed
  | close room link _ linked opened => exact .close room link _ linked opened

theorem Performs.ask
    {call : Call}
    {next : Answer call → Talk α}
    {answer : Answer call}
    {value : α}
    (answered : Answered call conversation answer later)
    (performs : Performs program (next answer) later value last) :
    Performs program (.ask call next) conversation value last := fun rest =>
  .head ((answered.talk (.ask call fun answer => (next answer).bind rest)).inner rfl)
    (performs rest)

/-- A call is answered. -/
theorem Answered.performs
    {call : Call}
    {answer : Answer call}
    (answered : Answered call conversation answer later) :
    Performs program (.ask call .result) conversation answer later :=
  .ask answered (performs_result answer)

theorem bind_assoc
    {γ : Type}
    (part : Talk α)
    (next : α → Talk β)
    (rest : β → Talk γ) :
    (part.bind next).bind rest = part.bind fun value => (next value).bind rest := by
  induction part with
  | result value => rfl
  | ask call more inductionHypothesis =>
      rw [Dialogue.bind, Dialogue.bind, Dialogue.bind]
      exact congrArg _ (funext inductionHypothesis)

theorem Performs.bind
    {part : Talk α}
    {next : α → Talk β}
    {value : α}
    {final : β}
    (first : Performs program part conversation value later)
    (second : Performs program (next value) later final last) :
    Performs program (part >>= next) conversation final last := by
  intro rest
  have run := first fun value => (next value).bind rest
  rw [← bind_assoc] at run
  exact run.trans (second rest)

/-- The rule for parts that may throw. -/
theorem Performs.bindOk
    {part : Script α}
    {next : α → Script β}
    {value : α}
    {result : Except Exception β}
    (first : Performs program part.run conversation (.ok value) later)
    (second : Performs program (next value).run later result last) :
    Performs program (part >>= next).run conversation result last :=
  first.bind second

/-- The rule for a part that does not throw, within one that may. -/
theorem Performs.bindLift
    {part : Talk α}
    {next : α → Script β}
    {value : α}
    {result : Except Exception β}
    (first : Performs program part conversation value later)
    (second : Performs program (next value).run later result last) :
    Performs program (liftM part >>= next : Script β).run conversation result last :=
  have lifted : Performs program (ExceptT.lift part).run conversation (.ok value) later :=
    first.bind (performs_result (Except.ok value))
  lifted.bindOk second

theorem bind_result (part : Talk α) : part.bind .result = part := by
  induction part with
  | result value => rfl
  | ask call next inductionHypothesis =>
      rw [Dialogue.bind]
      exact congrArg _ (funext inductionHypothesis)

/-- The whole of what a program is about to do. -/
theorem Performs.run
    {part : Talk (σ ⊕ Exit)}
    {stop : σ ⊕ Exit}
    (performs : Performs program part conversation stop later) :
    Relation.ReflTransGen (Inner program) { conversation with talk := part }
      { later with talk := .result stop } := by
  have run := performs .result
  rwa [bind_result] at run

/-- A turn of the loop. -/
theorem Performs.loops
    {state : σ}
    {stop : σ ⊕ Exit}
    (performs : Performs program (program.loop state) conversation stop later) :
    Relation.ReflTransGen (Inner program) { conversation with talk := .result (.inl state) }
      { later with talk := .result stop } :=
  .head (.loop state { conversation with talk := .result (.inl state) } rfl) performs.run

/-! ## The connection -/

/-- The parts that a program changes itself are the same. -/
structure SameProgram (conversation later : Conversation σ) : Prop where
  talk : later.talk = conversation.talk
  typed : later.typed = conversation.typed
  cin : later.cin = conversation.cin
  cout : later.cout = conversation.cout
  cerr : later.cerr = conversation.cerr
  sent : later.sent = conversation.sent
  received : later.received = conversation.received

theorem SameProgram.trans
    (first : SameProgram conversation later)
    (second : SameProgram later last) :
    SameProgram conversation last :=
  ⟨second.talk.trans first.talk, second.typed.trans first.typed, second.cin.trans first.cin,
    second.cout.trans first.cout, second.cerr.trans first.cerr, second.sent.trans first.sent,
    second.received.trans first.received⟩

theorem GoesOn.trans
    (first : GoesOn program conversation later)
    (second : GoesOn program later last) :
    GoesOn program conversation last :=
  fun talk => (first talk).trans (second talk)

theorem GoesOn.run
    (goesOn : GoesOn program conversation later)
    (same : SameProgram conversation later) :
    Relation.ReflTransGen (Inner program) conversation later := by
  have isLater : { later with talk := conversation.talk } = later := by rw [← same.talk]
  have run := goesOn conversation.talk
  rwa [isLater] at run

/-- The client at the other end goes on. -/
theorem exists_goesOn_session
    {link : Link}
    (linked : conversation.link = some link)
    {self : ClientPtr}
    (accepted : link.far = .client self)
    {session next : Session}
    (live : conversation.system.clients self = some session)
    {final : Server}
    (step : Session.Step self conversation.system.server session final next)
    (unended : ¬ MetEnd next) :
    ∃ later, GoesOn program conversation later ∧ SameProgram conversation later ∧
      later.system.server = final ∧
      later.link = some { link with
        unread := link.unread ++ next.client.out.drop session.client.out.length } ∧
      later.system.clients self = some next := by
  let later : Conversation σ := { conversation with
    system := { conversation.system with
      server := final
      clients := Function.update conversation.system.clients self (some next) }
    link := some { link with
      unread := link.unread ++ next.client.out.drop session.client.out.length }
    turns := conversation.turns ++ turnOf session conversation.system.server final }
  refine ⟨later, fun talk => .single ?_, ⟨rfl, rfl, rfl, rfl, rfl, rfl, rfl⟩, rfl, rfl,
    Function.update_self ..⟩
  exact .session self session next final link { conversation with talk := talk } linked accepted
    live step fun ended => absurd ended unended

theorem exists_goesOn_silently
    {link : Link}
    (linked : conversation.link = some link)
    {self : ClientPtr}
    (accepted : link.far = .client self)
    {session next : Session}
    (live : conversation.system.clients self = some session)
    {final : Server}
    (step : Session.Step self conversation.system.server session final next)
    (unended : ¬ MetEnd next)
    (silent : next.client.out = session.client.out) :
    ∃ later, GoesOn program conversation later ∧ SameProgram conversation later ∧
      later.system.server = final ∧ later.link = some link ∧
      later.system.clients self = some next := by
  obtain ⟨later, goesOn, same, server, isLinked, isLive⟩ :=
    @exists_goesOn_session σ program conversation link linked self accepted _ _ live final step
      unended
  rw [silent, List.drop_length, List.append_nil] at isLinked
  exact ⟨later, goesOn, same, server, isLinked, isLive⟩

theorem exists_unregister
    (self : ClientPtr)
    (client : Client)
    (server : Server) :
    ∃ final, (Client.unregister self client).run server = .ok () final := by
  rw [Client.unregister]
  split
  · exact ⟨_, rfl⟩
  · exact ⟨_, rfl⟩

/-- The session has ended: it unregisters its client, which is destroyed. -/
theorem exists_goesOn_destroyed
    {link : Link}
    (linked : conversation.link = some link)
    {self : ClientPtr}
    (accepted : link.far = .client self)
    {session : Session}
    (live : conversation.system.clients self = some session)
    {how : End}
    (closing : session.phase = .closing how) :
    ∃ later, GoesOn program conversation later ∧ SameProgram conversation later ∧
      later.link = some { link with far := .gone } := by
  obtain ⟨client, _, origin, serial⟩ := session
  obtain rfl : _ = Phase.closing how := closing
  obtain ⟨final, ran⟩ := exists_unregister self client conversation.system.server
  obtain ⟨unregistered, goesOn, same, -, isLinked, isLive⟩ :=
    @exists_goesOn_silently σ program conversation link linked self accepted _ _ live final
      (.unregister how client origin serial _ _ ran) (fun ended => by cases ended) rfl
  let later : Conversation σ := { unregistered with
    system := { unregistered.system with
      clients := Function.update unregistered.system.clients self none }
    link := some { link with far := .gone } }
  have destroyed : GoesOn program unregistered later := fun talk =>
    .single (.destroyed self _ how link { unregistered with talk := talk } isLinked accepted
      isLive rfl)
  exact ⟨later, goesOn.trans destroyed, ⟨same.talk, same.typed, same.cin, same.cout, same.cerr,
    same.sent, same.received⟩, rfl⟩

/-- Nothing is on its way on an open connection, and the session has taken all it was
sent. -/
structure Quiet (ptr : ClientPtr) (phase : Phase) (conversation : Conversation σ) :
    Prop where
  linked : conversation.link = some ⟨.client ptr, [], [], .opened⟩
  live : ∃ client origin serial,
    conversation.system.clients ptr = some ⟨client, phase, origin, serial⟩ ∧
      available client.infd = [] ∧ Framing.Continues client.infd ∧ client.room = none

/-- The session can take a string, write a response and be in a phase. -/
def Serves (self : ClientPtr) (phase : Phase) (server : Server) (s response : Bytes)
    (final : Server) (nextPhase : Phase) : Prop :=
  ∀ client origin serial rest, client.room = none →
    Framing.receive.run ⟨client.infd, []⟩ = .ok () ⟨rest, s⟩ →
    ∃ next, Session.Step self server ⟨client, phase, origin, serial⟩ final
        ⟨next, nextPhase, origin, serial⟩ ∧
      next.infd = rest ∧ next.room = none ∧ next.out = client.out ++ frame response

/-- The connection is accepted, and a thread is created for it. -/
theorem exists_goesOn_accepted
    (linked : conversation.link = some ⟨.pending [] none, [], [], .opened⟩)
    {self : ClientPtr}
    (free : conversation.system.clients self = none) :
    ∃ later, GoesOn program conversation later ∧ SameProgram conversation later ∧
      Quiet self .login later ∧
      later.system.server = (conversation.system.accept self [] none).server := by
  have accepts : GoesOn program conversation
      { conversation with
        system := conversation.system.accept self [] none
        link := some ⟨.client self, [], [], .opened⟩ } := fun talk =>
    .single (.accept self [] none _ { conversation with talk := talk } linked rfl free)
  obtain ⟨later, spawns, same, server, isLinked, live⟩ :=
    @exists_goesOn_silently σ program { conversation with
      system := conversation.system.accept self [] none
      link := some ⟨.client self, [], [], .opened⟩ } _ rfl self rfl _ _
      (Function.update_self ..) _ (.spawn _ _ _ _) (fun ended => by cases ended) rfl
  exact ⟨later, accepts.trans spawns, ⟨same.talk, same.typed, same.cin, same.cout, same.cerr,
    same.sent, same.received⟩, ⟨isLinked, _, _, _, live, rfl, Framing.continues_nil, rfl⟩,
    server⟩

/-- What a program has sent and received since, and all that it has done since. -/
structure Exchanged (conversation later : Conversation σ) (s response : Bytes) : Prop where
  typed : later.typed = conversation.typed
  cin : later.cin = conversation.cin
  cout : later.cout = conversation.cout
  cerr : later.cerr = conversation.cerr
  sent : later.sent = conversation.sent ++ [s]
  received : later.received = conversation.received ++ [response]

/-- The program sends a string and receives the response of the session. -/
theorem Quiet.performs_exchange
    {self : ClientPtr}
    {phase nextPhase : Phase}
    (quiet : Quiet self phase conversation)
    {s response : Bytes}
    (isShort : s.length ≤ 9998)
    (responseShort : response.length ≤ 9998)
    {final : Server}
    (serves : Serves self phase conversation.system.server s response final nextPhase)
    (unended : nextPhase ≠ .closing (.thrown (.ioException "file ended early"))) :
    ∃ asked later, Performs program (Programs.send s).run conversation (.ok ()) asked ∧
      Performs program Programs.receive.run asked (.ok response) later ∧
      Quiet self nextPhase later ∧ later.system.server = final ∧
      Exchanged conversation later s response := by
  obtain ⟨linked, client, origin, serial, live, empty, continues, unlimited⟩ := quiet
  have nonempty : frame s ≠ [] := by simp [frame]
  -- the string is sent and delivered
  let asked : Conversation σ := { conversation with
    link := some ⟨.client self, frame s, [], .opened⟩
    sent := conversation.sent ++ [s] }
  have sends : Answered (.send s) conversation (.ok ()) asked :=
    .sent s _ conversation linked
  let fed : Session := ⟨client.deliver (.chunk (frame s) nonempty), phase,
    origin.deliver (.chunk (frame s) nonempty), serial⟩
  let delivered : Conversation σ := { asked with
    system := conversation.system.modifySession self
      (Session.deliver (.chunk (frame s) nonempty))
    link := some ⟨.client self, [], [], .opened⟩ }
  have delivers : GoesOn program asked delivered := fun talk =>
    .single (.deliver (frame s) [] nonempty _ { asked with talk := talk } rfl
      (List.append_nil _).symm)
  have isFed : delivered.system.clients self = some fed :=
    System.modifySession_live live _
  -- the session takes it
  have framed : available fed.client.infd = frame s ++ [] := by
    change available (client.infd ++ [.chunk (frame s) nonempty]) = _
    rw [continues, empty]
    rfl
  obtain ⟨rest, taken, left⟩ := @Framing.receive_frame s [] isShort ⟨fed.client.infd, []⟩ framed
  obtain ⟨next, step, nextInfd, nextRoom, nextOut⟩ :=
    serves fed.client fed.origin serial rest unlimited taken
  obtain ⟨responded, goes, same, server, isLinked, isLive⟩ :=
    @exists_goesOn_session σ program delivered _ rfl self rfl fed _ isFed _ step
      fun ended => unended ended
  have unread : responded.link = some ⟨.client self, [], frame response, .opened⟩ := by
    rw [isLinked]
    simp [nextOut]
  have receives := Answered.receivable unread responseShort (List.append_nil _).symm
  refine ⟨asked, _, sends.performs, receives.performs.after (delivers.trans goes), ?_,
    server, same.typed, same.cin, same.cout, same.cerr, same.sent, ?_⟩
  · refine ⟨rfl, next, _, _, isLive, nextInfd ▸ left, ?_, nextRoom⟩
    rw [nextInfd]
    exact (continues.deliver nonempty).rest taken
  · change responded.received ++ [response] = _
    rw [same.received]

/-- A request that can be decoded, and its response. -/
theorem Quiet.performs_sendReceive
    {self : ClientPtr}
    {phase nextPhase : Phase}
    (quiet : Quiet self phase conversation)
    {req resp : Message}
    {s response : Bytes}
    (encodes : (Wire.encode req).run [] = .ok () s)
    (decodes : (Wire.decode response).run .empty = .ok () resp)
    (isShort : s.length ≤ 9998)
    (responseShort : response.length ≤ 9998)
    {final : Server}
    (serves : Serves self phase conversation.system.server s response final nextPhase)
    (unended : nextPhase ≠ .closing (.thrown (.ioException "file ended early"))) :
    ∃ later, Performs program (Programs.sendReceive req).run conversation (.ok resp) later ∧
      Quiet self nextPhase later ∧ later.system.server = final ∧
      Exchanged conversation later s response := by
  obtain ⟨asked, later, sends, receives, rest⟩ :=
    quiet.performs_exchange isShort responseShort serves unended
  refine ⟨later, ?_, rest⟩
  rw [Programs.sendReceive, Programs.encode_of_run encodes]
  refine sends.bindOk (receives.bindOk ?_)
  rw [Programs.decode_of_run decodes]
  exact performs_result _

/-! ## The session serves -/

theorem serves_login
    {mode : ClientMode}
    (proper : mode = .updater ∨ mode = .display)
    {s : Bytes}
    (granted : Client.IsGranted mode s)
    (self : ClientPtr)
    (server : Server) :
    Serves self .login server s welcome server
      (if mode = .updater then .updater else .registering) := by
  intro client origin serial rest unlimited received
  obtain ⟨req, decodes, type, rfl, known⟩ := granted
  obtain ⟨next, ran, sameMode, left, room⟩ :=
    Client.login_of_unlimited received decodes type proper known unlimited
  have exchange := Client.login_exchange client
  rw [ran] at exchange
  cases exchange with
  | granted _ raw other otherReceived granted proper otherLeft writes =>
      rw [← sameMode]
      exact ⟨next, .login client next origin serial server ran, left, room, writes⟩

theorem serves_turn
    {server final : Server}
    {s response : Bytes}
    {ends : Bool}
    (ran : (Updater.updateChat s).run ⟨server, []⟩ = .ok ends ⟨final, [response]⟩)
    (self : ClientPtr) :
    Serves self .updater server s response final
      (if ends then .closing .left else .updater) := by
  intro client origin serial rest unlimited received
  obtain ⟨next, turned⟩ := Client.updateChat_of_unlimited received ran unlimited
  have step := @Session.Step.turn self ends client next origin serial server final turned
  have exchange := Client.updateChat_exchange server client
  rw [turned] at exchange
  cases exchange with
  | answered _ _ raw other session otherReceived otherRan left sameMode writes =>
      rw [received] at otherReceived
      cases otherReceived
      obtain ⟨-, same⟩ := EStateM.Result.ok.inj (otherRan.symm.trans ran)
      rw [same] at writes
      exact ⟨next, step, left, step.grows.unlimited unlimited, by simpa using writes⟩

/-! ## The terminal -/

theorem performs_print
    (text : Bytes) :
    Performs program (Programs.print text) conversation ()
      { conversation with cout := conversation.cout ++ text } :=
  (Answered.print text conversation).performs

theorem performs_readLine
    {line : Option Bytes}
    {rest : Bytes}
    (next : Programs.nextLine conversation.cin = (line, rest)) :
    Performs program Programs.readLine conversation line { conversation with cin := rest } :=
  (Answered.line next).performs

theorem performs_getline
    {line rest : Bytes}
    (next : Programs.nextLine conversation.cin = (some line, rest)) :
    Performs program Programs.getline.run conversation (.ok line)
      { conversation with cin := rest } :=
  (performs_readLine next).bind (performs_result _)

theorem performs_getInt
    {line rest : Bytes}
    (next : Programs.nextLine conversation.cin = (some line, rest))
    {number : Int32}
    (isNumber : Cxx.stoi line = .ok number) :
    Performs program Programs.getInt.run conversation (.ok number)
      { conversation with cin := rest } := by
  refine (performs_getline next).bindOk ?_
  rw [isNumber]
  exact performs_result _

/-! ## Logging in -/

theorem performs_inputLogin
    {username password afterUsername afterPassword : Bytes}
    (first : Programs.nextLine conversation.cin = (some username, afterUsername))
    (second : Programs.nextLine afterUsername = (some password, afterPassword)) :
    Performs program Programs.inputLogin.run conversation
      (.ok (username ++ ascii "/" ++ password))
      { conversation with
        cout := conversation.cout ++ ascii "username: " ++ ascii "password: "
        cin := afterPassword } := by
  refine .bindLift (performs_print _) (.bindLift (performs_readLine first) ?_)
  exact .bindLift (performs_print _) (.bindLift (performs_readLine second) (performs_result _))

/-- A program logs in with a username and a password that are in the database. -/
theorem performs_connectLogin
    {mode : ClientMode}
    (proper : mode = .updater ∨ mode = .display)
    (unlinked : conversation.link = none)
    {self : ClientPtr}
    (free : conversation.system.clients self = none)
    {username password afterUsername afterPassword : Bytes}
    (first : Programs.nextLine conversation.cin = (some username, afterUsername))
    (second : Programs.nextLine afterUsername = (some password, afterPassword))
    (known : username ++ ascii "/" ++ password ∈ PasswordDB.credentials) :
    ∃ s later, Performs program (Programs.connectLogin mode) conversation none later ∧
      Quiet self (if mode = .updater then .updater else .registering) later ∧
      later.system.server = (conversation.system.accept self [] none).server ∧
      Exchanged
        { conversation with
          cin := afterPassword
          cout := conversation.cout ++ ascii "username: " ++ ascii "password: " }
        later s welcome := by
  let typed : Conversation σ := { conversation with
    cout := conversation.cout ++ ascii "username: " ++ ascii "password: "
    cin := afterPassword }
  let linked : Conversation σ := { typed with link := some ⟨.pending [] none, [], [], .opened⟩ }
  have connects : Performs program Programs.connect typed true linked :=
    (Answered.connected typed unlinked).performs
  obtain ⟨accepted, accepts, same, quiet, server⟩ :=
    @exists_goesOn_accepted σ program linked rfl self free
  have encodes := Wire.encode_login mode (username ++ ascii "/" ++ password) []
  have isShort : ∀ mode, ∀ cred ∈ PasswordDB.credentials, ([Wire.pipe].intercalate
      [Wire.messageTypeToStr .login, Wire.clientModeToStr mode, cred]).length ≤ 9998 := by
    intro mode
    cases mode <;> decide +kernel
  have valid : mode ≠ .invalid := by
    rcases proper with rfl | rfl <;> simp
  have granted := (isGranted_login_iff valid encodes).mpr ⟨rfl, known⟩
  have decodes := Programs.decode_textOf (Or.inr (Or.inl rfl))
    (show Wire.Lacks [Wire.pipe] (ascii "successful login") by decide)
  obtain ⟨later, exchanges, isQuiet, isServer, exchanged⟩ :=
    @Quiet.performs_sendReceive σ program accepted self _ _ quiet _ _ _ _ encodes decodes
      (isShort mode _ known) (short_of_loginResponses welcome List.mem_cons_self) _
      (serves_login proper granted self _) (by rcases proper with rfl | rfl <;> simp)
  have logsIn : Performs program (Programs.tryLogin mode).run conversation (.ok true) later := by
    refine (performs_inputLogin first second).bindOk (connects.bindLift ?_)
    exact (exchanges.bindOk (performs_result _)).after accepts
  refine ⟨_, later, logsIn.bind (performs_result none), isQuiet, isServer.trans server,
    exchanged.typed.trans same.typed, exchanged.cin.trans same.cin,
    exchanged.cout.trans same.cout, exchanged.cerr.trans same.cerr,
    exchanged.sent.trans (congrArg (· ++ [_]) same.sent),
    exchanged.received.trans (congrArg (· ++ [_]) same.received)⟩

/-- A program that starts with a login gets past it. -/
theorem exists_loggedIn
    {mode : ClientMode}
    {rest : Option Exit → Talk (σ ⊕ Exit)}
    (starts : program.start = (Programs.connectLogin mode).bind rest)
    (proper : mode = .updater ∨ mode = .display)
    {username password : Bytes}
    (first : IsLine username)
    (second : IsLine password)
    (known : username ++ ascii "/" ++ password ∈ PasswordDB.credentials)
    (lines : List Bytes)
    (self : ClientPtr)
    (server : Server) :
    ∃ (s : Bytes) (conversation : Conversation σ), Relation.ReflTransGen (Inner program)
        (initial program server (Programs.typing (username :: password :: lines)))
        { conversation with talk := rest none } ∧
      Quiet self (if mode = .updater then .updater else .registering) conversation ∧
      conversation.system.server = ((System.start server).accept self [] none).server ∧
      conversation.cin = Programs.typing lines ∧ conversation.cout = Programs.prompts ∧
      conversation.cerr = [] ∧ conversation.sent = [s] ∧ conversation.received = [welcome] := by
  let start := initial program server (Programs.typing (username :: password :: lines))
  obtain ⟨s, later, performs, quiet, isServer, exchanged⟩ :=
    @performs_connectLogin σ program start mode proper rfl self rfl _ _ _ _
      (Programs.nextLine_typing first _) (Programs.nextLine_typing second lines) known
  have run := performs rest
  rw [← starts] at run
  exact ⟨s, later, run, quiet, isServer, exchanged.cin, exchanged.cout, exchanged.cerr,
    exchanged.sent, exchanged.received⟩

/-! ## The updater -/

/-- A request whose response is printed. -/
theorem Quiet.performs_request
    {self : ClientPtr}
    (quiet : Quiet self .updater conversation)
    {req : Message}
    {s str : Bytes}
    (encodes : (Wire.encode req).run [] = .ok () s)
    (isShort : s.length ≤ 9998)
    {final : Server}
    (ran : (Updater.updateChat s).run ⟨conversation.system.server, []⟩ =
      .ok false ⟨final, [Updater.textOf .ok str]⟩)
    (plain : Wire.Lacks [Wire.pipe] str) :
    ∃ later, Performs program
        (do
          let resp ← Programs.sendReceive req
          Programs.result resp : Script Unit).run
        conversation (.ok ()) later ∧
      Quiet self .updater later ∧ later.system.server = final ∧
      Exchanged
        { conversation with
          cout := conversation.cout ++ (ascii "Success: " ++ str ++ ascii "\n") }
        later s (Updater.textOf .ok str) := by
  have turn := Updater.turn_updateChat s conversation.system.server
  rw [ran] at turn
  obtain ⟨later, exchanges, isQuiet, server, exchanged⟩ :=
    @Quiet.performs_sendReceive σ program conversation self _ _ quiet req
      (.ofStr .ok str) _ _ encodes (Programs.decode_textOf (Or.inr (Or.inl rfl)) plain) isShort
      (short_of_turn turn _ (List.mem_singleton_self _)) _ (serves_turn ran self) (by simp)
  let printed : Conversation σ := { later with
    cout := later.cout ++ (ascii "Success: " ++ str ++ ascii "\n") }
  have prints : Performs program (Programs.result (.ofStr .ok str)).run later (.ok ()) printed :=
    .bind (performs_print _) (performs_result _)
  exact ⟨printed, exchanges.bindOk prints, ⟨isQuiet.linked, isQuiet.live⟩, server,
    exchanged.typed, exchanged.cin, congrArg (· ++ _) exchanged.cout, exchanged.cerr,
    exchanged.sent, exchanged.received⟩

/-- The command and the lines of an order with one item. -/
theorem performs_orderNew
    {count itemId desc qty : Bytes}
    (lines : ∀ line ∈ [count, itemId, desc, qty], IsLine line)
    (isOne : Cxx.stoi count = .ok 1)
    {id number : Int32}
    (isId : Cxx.stoi itemId = .ok id)
    (isNumber : Cxx.stoi qty = .ok number)
    {more : List Bytes}
    (typed : conversation.cin = Programs.typing (count :: itemId :: desc :: qty :: more))
    (performs : Performs program
      (do
        let resp ← Programs.sendReceive
          (.ofOrder .orderNew (some ⟨1, .new, [⟨1, id, .new, desc, number⟩]⟩))
        Programs.result resp : Script Unit).run
      { conversation with cin := Programs.typing more } (.ok ()) later) :
    Performs program Programs.orderNew.run conversation (.ok ()) later := by
  have next := fun {line : Bytes} (member : line ∈ [count, itemId, desc, qty]) =>
    Programs.nextLine_typing (lines line member)
  refine (performs_getInt (typed ▸ next (by simp) _) isOne).bindOk ?_
  have adds : Performs program (Programs.addItems 1 ⟨1, .new, []⟩).run
      { conversation with cin := Programs.typing (itemId :: desc :: qty :: more) }
      (.ok ⟨1, .new, [⟨1, id, .new, desc, number⟩]⟩)
      { conversation with cin := Programs.typing more } := by
    refine (performs_getInt (next (by simp) _) isId).bindOk ?_
    refine (performs_getline (next (by simp) _)).bindOk ?_
    exact (performs_getInt (next (by simp) _) isNumber).bindOk (performs_result _)
  exact adds.bindOk performs

/-- A turn of the updater's loop on the command for an order. -/
theorem performs_input_orderNew
    {more : List Bytes}
    (typed : conversation.cin = Programs.typing (ascii "order_new" :: more))
    (performs : Performs program Programs.orderNew.run
      { conversation with
        cout := conversation.cout ++ ascii "> "
        cin := Programs.typing more } (.ok ()) later) :
    Performs program Programs.input.run conversation (.ok false) later := by
  have next := @Programs.nextLine_typing (ascii "order_new") (by decide) more
  rw [← typed] at next
  refine .bindLift (performs_print (ascii "> ")) (.bindLift (performs_readLine next) ?_)
  have notQuit : ascii "order_new" ≠ ascii "quit" := by decide
  dsimp only
  rw [if_neg notQuit, if_pos rfl]
  exact performs.bindOk (performs_result _)

/-- A turn of the updater's loop on the command to quit. -/
theorem Quiet.performs_input_quit
    {self : ClientPtr}
    (quiet : Quiet self .updater conversation)
    {more : List Bytes}
    (typed : conversation.cin = Programs.typing (ascii "quit" :: more)) :
    ∃ later, Performs program Programs.input.run conversation (.ok true) later ∧
      Quiet self (.closing .left) later ∧
      later.system.server = conversation.system.server ∧
      Exchanged
        { conversation with
          cout := conversation.cout ++ ascii "> "
          cin := Programs.typing more }
        later (ascii "QUIT|quit") (Updater.textOf .ok (ascii "goodbye")) := by
  have next := @Programs.nextLine_typing (ascii "quit") (by decide) more
  rw [← typed] at next
  let asked : Conversation σ := { conversation with
    cout := conversation.cout ++ ascii "> "
    cin := Programs.typing more }
  have isQuiet : Quiet self .updater asked := ⟨quiet.linked, quiet.live⟩
  have encodes : (Wire.encode (.ofStr .quit (ascii "quit"))).run [] =
      .ok () (ascii "QUIT|quit") :=
    Wire.encode_text (Or.inl rfl) (ascii "quit") []
  have decodes := Programs.decode_textOf (show Message.IsText .quit from Or.inl rfl)
    (show Wire.Lacks [Wire.pipe] (ascii "quit") by decide)
  have ran := Updater.updateChat_run_quit decodes rfl asked.system.server
  obtain ⟨later, exchanges, stillQuiet, server, exchanged⟩ :=
    @Quiet.performs_sendReceive σ program asked self _ _ isQuiet _
      (.ofStr .ok (ascii "goodbye")) _ _ encodes
      (Programs.decode_textOf (Or.inr (Or.inl rfl)) (by decide)) (by decide +kernel)
      (by decide +kernel) _ (serves_turn ran self) (by simp)
  have quits : Performs program Programs.quit.run asked (.ok true) later :=
    exchanges.bindOk (performs_result _)
  refine ⟨later, ?_, stillQuiet, server, exchanged⟩
  refine .bindLift (performs_print (ascii "> ")) (.bindLift (performs_readLine next) ?_)
  dsimp only
  rw [if_pos rfl]
  exact quits

/-- A turn of the updater's loop after which it goes on. -/
theorem loops_input
    {conversation later : Conversation Unit}
    (performs : Performs Programs.updater Programs.input.run conversation (.ok false) later) :
    Relation.ReflTransGen (Inner Programs.updater)
      { conversation with talk := .result (.inl ()) }
      { later with talk := .result (.inl ()) } := by
  have turns : Performs Programs.updater (Programs.updater.loop ()) conversation (.inl ())
      later :=
    performs.bind (performs_result (Sum.inl ()))
  exact turns.loops

/-! ## The display -/

/-- The display receives a message that was written, and shows it. -/
theorem performs_showNext
    {link : Link}
    (linked : conversation.link = some link)
    {s more : Bytes}
    (isShort : s.length ≤ 9998)
    {msg : Message}
    (tells : Tells s msg)
    (unread : link.unread = frame s ++ more)
    (orders : OrderMap) :
    ∃ shown later, Performs program (Programs.showNext orders).run conversation (.ok shown)
        later ∧
      later.system = conversation.system ∧ later.link = some { link with unread := more } ∧
      later.received = conversation.received ++ [s] := by
  let heard : Conversation σ := { conversation with
    link := some { link with unread := more }
    received := conversation.received ++ [s] }
  have receives : Performs program Programs.receive.run conversation (.ok s) heard :=
    (Answered.receivable linked isShort unread).performs
  have decodes := Programs.decode_of_run tells.2
  by_cases heartbeat : msg.type = .dispHeartbeat
  · have ignores : Performs program (Programs.showNext orders).run conversation (.ok orders)
        heard := by
      refine receives.bindOk ?_
      rw [decodes]
      change Performs program (if msg.type = .dispHeartbeat then _ else _ : Script _).run _ _ _
      rw [if_pos heartbeat]
      exact performs_result _
    exact ⟨orders, heard, ignores, rfl, rfl, rfl⟩
  · let shown := Display.apply orders msg
    let printed : Conversation σ := { heard with cout := heard.cout ++ Programs.screen shown }
    have shows : Performs program (Programs.showNext orders).run conversation (.ok shown)
        printed := by
      refine receives.bindOk ?_
      rw [decodes]
      change Performs program (if msg.type = .dispHeartbeat then _ else _ : Script _).run _ _ _
      rw [if_neg heartbeat, Display.receiveMessage_run tells.1]
      exact .bindLift (performs_print _) (performs_result _)
    exact ⟨shown, printed, shows, rfl, rfl, rfl⟩

/-- The display receives all messages that were written. -/
theorem exists_read
    {conversation : Conversation OrderMap}
    {link : Link}
    (linked : conversation.link = some link)
    {strings : List Bytes}
    (told : ∀ s ∈ strings, s.length ≤ 9998 ∧ ∃ msg, Tells s msg)
    (unread : link.unread = strings.flatMap frame)
    (orders : OrderMap) :
    ∃ (shown : OrderMap) (later : Conversation OrderMap),
      Relation.ReflTransGen (Inner Programs.display)
        { conversation with talk := .result (.inl orders) }
        { later with talk := .result (.inl shown) } ∧
      later.system = conversation.system ∧ later.link = some { link with unread := [] } ∧
      later.received = conversation.received ++ strings := by
  induction strings generalizing conversation link orders with
  | nil =>
      refine ⟨orders, conversation, .refl, rfl, ?_, (List.append_nil _).symm⟩
      rw [linked, ← show link.unread = [] from unread]
  | cons s strings inductionHypothesis =>
      obtain ⟨⟨isShort, msg, tells⟩, others⟩ := List.forall_mem_cons.mp told
      obtain ⟨shown, middle, performs, system, isLinked, received⟩ :=
        @performs_showNext _ Programs.display conversation link linked s _ isShort msg tells
          unread orders
      have turn : Performs Programs.display (Programs.display.loop orders) conversation
          (.inl shown) middle :=
        performs.bind (performs_result (Sum.inl shown))
      obtain ⟨last, later, turns, sameSystem, read, receivedLast⟩ :=
        inductionHypothesis isLinked others rfl shown
      refine ⟨last, later, turn.loops.trans turns, sameSystem.trans system, read, ?_⟩
      rw [receivedLast, received, List.append_assoc, List.singleton_append]

/-! ## Other clients -/

/-- What happens to a new client does not concern the program. -/
theorem steps_of_other
    {link : Link}
    (linked : conversation.link = some link)
    {self other : ClientPtr}
    (accepted : link.far = .client self)
    {session : Session}
    (live : conversation.system.clients self = some session)
    (free : conversation.system.clients other = none)
    {final : System}
    (steps : Relation.ReflTransGen (System.Step other) conversation.system final)
    (talk : Talk (σ ⊕ Exit)) :
    Relation.ReflTransGen (Step program) { conversation with talk := talk }
      { conversation with
        talk := talk
        system := final } := by
  have different : ∀ isLink isSelf, conversation.link = some isLink →
      isLink.far = .client isSelf → other ≠ isSelf := by
    rintro isLink isSelf isLinked isAccepted rfl
    obtain rfl := Option.some.inj (linked.symm.trans isLinked)
    obtain rfl := Far.client.inj (accepted.symm.trans isAccepted)
    cases free.symm.trans live
  induction steps with
  | refl => exact .refl
  | @tail middle _ _ step inductionHypothesis =>
      exact inductionHypothesis.tail (Or.inl (.elsewhere other _
        { conversation with
          talk := talk
          system := middle } different step))

/-- Another client does something, after which the session takes the first of the messages
that are queued for it. -/
theorem exists_taken
    {link : Link}
    (linked : conversation.link = some link)
    {self other : ClientPtr}
    (accepted : link.far = .client self)
    {client origin : Client}
    {serial : Nat}
    (live : conversation.system.clients self = some ⟨client, .sending [], origin, serial⟩)
    (free : conversation.system.clients other = none)
    {final : System}
    (steps : Relation.ReflTransGen (System.Step other) conversation.system final)
    (others : ∀ ptr, ptr ≠ other → final.clients ptr = conversation.system.clients ptr)
    {msg : Message}
    {queue : List Message}
    (queued : final.server.queues self = msg :: queue) :
    ∃ later,
      (∀ talk, Relation.ReflTransGen (Step program) { conversation with talk := talk }
        { later with talk := talk }) ∧
      SameProgram conversation later ∧
      later.system.server = { final.server with
        queues := Function.update final.server.queues self queue } ∧
      later.link = some link ∧
      later.system.clients self = some ⟨client, .sending [msg], origin, serial⟩ := by
  have different : self ≠ other := by
    rintro rfl
    cases free.symm.trans live
  obtain ⟨later, takes, same, server, isLinked, isLive⟩ :=
    @exists_goesOn_silently σ program { conversation with system := final } _ linked self accepted
      _ _ ((others self different).trans live) _ (.dequeue_of_queued queued)
      (fun ended => by cases ended) rfl
  refine ⟨later, fun talk => ?_, ⟨same.talk, same.typed, same.cin, same.cout, same.cerr,
    same.sent, same.received⟩, server, isLinked, isLive⟩
  exact (steps_of_other linked accepted live free steps talk).trans
    (steps_of_inner (takes talk))

end Conversation
end OrderTracking
