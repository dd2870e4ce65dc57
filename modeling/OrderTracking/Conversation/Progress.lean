import OrderTracking.Conversation.Exchange

/-!
# The progress of a session

The strings a session has taken, the strings it has written and the turns it has made
determine each other, whatever its peer is. Each step of the session takes at most one
string.
-/

namespace OrderTracking

/-- The session still follows its protocol. -/
def Phase.Open : Phase → Prop
  | .closing _ | .unregistered _ => False
  | _ => True

namespace Conversation

open Programs (welcome)

/-! ## What became of the strings -/

/-- The turn is one of `update_chat`. -/
def Made (turn : Updater.Processed) : Prop :=
  Client.turned turn.raw turn.before = ⟨turn.after, turn.responses⟩

/-- The responses of turns. -/
abbrev responsesOf (turns : List Updater.Processed) : List Bytes :=
  turns.flatMap Updater.Processed.responses

/-- The strings are a login and the turns of an updater, by whether it is running. -/
inductive Updates (running : Bool) :
    List Bytes → List Bytes → List Updater.Processed → Prop
  | intro (raw : Bytes) (turns : List Updater.Processed)
      (granted : Client.IsGranted .updater raw)
      (made : ∀ turn ∈ turns, Made turn)
      (disciplined : Updater.Disciplined running (turns.map Updater.Processed.raw) turns
        (responsesOf turns)) :
      Updates running (raw :: turns.map Updater.Processed.raw)
        (welcome :: responsesOf turns) turns

/-- The string is the login of a display that was sent messages, all of a kind. -/
inductive Displays (kind : Message → Prop) : List Bytes → List Bytes → Prop
  | intro (raw : Bytes) (msgs : List Message) (encoded : List Bytes)
      (granted : Client.IsGranted .display raw)
      (encodes : List.Forall₂ (fun msg s => (Wire.encode msg).run [] = .ok () s)
        msgs encoded)
      (ofKind : ∀ msg ∈ msgs, kind msg) :
      Displays kind [raw] (welcome :: encoded)

/-- What a session is about to send is of a kind. -/
def Sends (kind : Message → Prop) (session : Session) : Prop :=
  ∀ unsent, session.phase = .sending unsent → ∀ msg ∈ unsent, kind msg

/-- What can have become of the strings that a session took: what it wrote, and the
turns it made. -/
inductive History (kind : Message → Prop) :
    List Bytes → List Bytes → List Updater.Processed → Prop
  | nothing : History kind [] [] []
  | denied (raw : Bytes) (replies : List Bytes)
      (expected : replies = [] ∨
        ∃ response, Client.Judges raw response ∧ replies = [response]) :
      History kind [raw] replies []
  | updater (running : Bool) (taken replies : List Bytes) (turns : List Updater.Processed)
      (updates : Updates running taken replies turns) :
      History kind taken replies turns
  | display (taken replies : List Bytes)
      (displays : Displays kind taken replies) :
      History kind taken replies []

/-- How far a session in a phase has come. -/
def Progress (kind : Message → Prop) (phase : Phase) (taken replies : List Bytes)
    (turns : List Updater.Processed) : Prop :=
  match phase with
  | .accepted | .login => taken = [] ∧ replies = [] ∧ turns = []
  | .updater => Updates true taken replies turns
  | .registering | .copying | .sending _ =>
      Displays kind taken replies ∧ turns = []
  | .closing _ | .unregistered _ => History kind taken replies turns

variable {kind : Message → Prop}

theorem Progress.history
    {phase : Phase}
    {taken replies : List Bytes}
    {turns : List Updater.Processed}
    (progress : Progress kind phase taken replies turns) :
    History kind taken replies turns := by
  cases phase with
  | accepted =>
      obtain ⟨rfl, rfl, rfl⟩ := progress
      exact .nothing
  | login =>
      obtain ⟨rfl, rfl, rfl⟩ := progress
      exact .nothing
  | updater => exact .updater true _ _ _ progress
  | registering =>
      obtain ⟨displays, rfl⟩ := progress
      exact .display _ _ displays
  | copying =>
      obtain ⟨displays, rfl⟩ := progress
      exact .display _ _ displays
  | sending unsent =>
      obtain ⟨displays, rfl⟩ := progress
      exact .display _ _ displays
  | closing how => exact progress
  | unregistered how => exact progress

theorem Made.length_responses_le
    {turn : Updater.Processed}
    (made : Made turn) :
    turn.responses.length ≤ 1 := by
  have outcome := Updater.turn_updateChat turn.raw turn.before
  rw [Made, Client.turned] at made
  cases ran : (Updater.updateChat turn.raw).run ⟨turn.before, []⟩ with
  | ok ends session =>
      rw [ran] at outcome made
      obtain ⟨req, response, only, -⟩ := outcome.answers
      have sent : session.sent = turn.responses := congrArg Updater.Session.sent made
      rw [← sent, only]
      exact le_refl 1
  | error exception session =>
      rw [ran] at outcome made
      obtain ⟨-, rfl⟩ := outcome.throws
      have sent : [] = turn.responses := congrArg Updater.Session.sent made
      rw [← sent]
      exact Nat.zero_le 1

/-- A turn with a response returned. -/
theorem Made.turn_of_responses
    {turn : Updater.Processed}
    (made : Made turn)
    {response : Bytes}
    (responses : turn.responses = [response]) :
    ∃ ends, Updater.Turn turn.raw turn.before (.ok ends ⟨turn.after, [response]⟩) := by
  have outcome := Updater.turn_updateChat turn.raw turn.before
  rw [Made, Client.turned, responses] at made
  cases ran : (Updater.updateChat turn.raw).run ⟨turn.before, []⟩ with
  | ok ends session =>
      rw [ran] at outcome made
      rw [Code.stateOf] at made
      exact ⟨ends, made ▸ outcome⟩
  | error exception session =>
      rw [ran] at outcome made
      obtain ⟨-, rfl⟩ := outcome.throws
      have sent : [] = [response] := congrArg Updater.Session.sent made
      cases sent

theorem length_responsesOf_le
    {turns : List Updater.Processed}
    (made : ∀ turn ∈ turns, Made turn) :
    (responsesOf turns).length ≤ turns.length := by
  induction turns with
  | nil => simp
  | cons turn turns inductionHypothesis =>
      have one := (made turn List.mem_cons_self).length_responses_le
      have rest := inductionHypothesis fun other member =>
        made other (List.mem_cons_of_mem turn member)
      rw [responsesOf, List.flatMap_cons, List.length_append, List.length_cons]
      exact Nat.add_comm _ 1 ▸ Nat.add_le_add one rest

/-! ## Steps -/

/-- What a step of a session takes from its input and writes. -/
structure Moves (session next : Session) (taken given : List Bytes) : Prop where
  wrote : Client.Wrote given session.client next.client
  whole : next.phase.Open →
    next.client.out = session.client.out ++ given.flatMap Framing.frame
  finished : ¬ session.phase.Open → taken = [] ∧ given = []
  input : taken = [] ∧ (next.phase.Open → next.client.infd = session.client.infd) ∨
    ∃ raw rest, taken = [raw] ∧
      Framing.receive.run ⟨session.client.infd, []⟩ = .ok () ⟨rest, raw⟩ ∧
        (next.phase.Open → next.client.infd = rest)

/-- A step that neither takes nor writes anything. -/
theorem Moves.nothing
    {session next : Session}
    (same : next.client = session.client) :
    Moves session next [] [] where
  wrote := Client.wrote_nothing (congrArg Client.out same)
  whole := fun _ => by simp [same]
  finished := fun _ => ⟨rfl, rfl⟩
  input := Or.inl ⟨rfl, fun _ => congrArg Client.infd same⟩

/-- A step that writes nothing and after which the session is over. -/
theorem Moves.silent
    {session next : Session}
    (silent : next.client.out = session.client.out)
    (finished : ¬ next.phase.Open) :
    Moves session next [] [] where
  wrote := Client.wrote_nothing silent
  whole := fun isOpen => absurd isOpen finished
  finished := fun _ => ⟨rfl, rfl⟩
  input := Or.inl ⟨rfl, fun isOpen => absurd isOpen finished⟩

/-- A step that takes a string and writes all responses. -/
theorem Moves.answered
    {session next : Session}
    (isOpen : session.phase.Open)
    {raw : Bytes}
    {rest : Framing.Input}
    (received : Framing.receive.run ⟨session.client.infd, []⟩ = .ok () ⟨rest, raw⟩)
    (left : next.client.infd = rest)
    {given : List Bytes}
    (writes : next.client.out = session.client.out ++ given.flatMap Framing.frame) :
    Moves session next [raw] given where
  wrote := ⟨writes ▸ List.prefix_rfl, fun _ => writes⟩
  whole := fun _ => writes
  finished := absurd isOpen
  input := Or.inr ⟨raw, rest, rfl, received, fun _ => left⟩

/-- A step that takes a string and after which the session is over. -/
theorem Moves.last
    {session next : Session}
    (isOpen : session.phase.Open)
    (finished : ¬ next.phase.Open)
    {raw : Bytes}
    {rest : Framing.Input}
    (received : Framing.receive.run ⟨session.client.infd, []⟩ = .ok () ⟨rest, raw⟩)
    {given : List Bytes}
    (wrote : Client.Wrote given session.client next.client) :
    Moves session next [raw] given where
  wrote := wrote
  whole := fun stillOpen => absurd stillOpen finished
  finished := absurd isOpen
  input := Or.inr ⟨raw, rest, rfl, received, fun stillOpen => absurd stillOpen finished⟩

theorem turnOf_received
    {session : Session}
    (phase : session.phase = .updater)
    {raw : Bytes}
    {rest : Framing.Input}
    (received : Framing.receive.run ⟨session.client.infd, []⟩ = .ok () ⟨rest, raw⟩)
    (server final : Server) :
    turnOf session server final =
      [⟨raw, server, final, (Client.turned raw server).sent⟩] := by
  have taken : Client.receive.run session.client =
      .ok raw { session.client with infd := rest } := by
    rw [EStateM.run, Client.receive, received]
  rw [turnOf, phase]
  simp only [taken, Client.turned]
  cases (Updater.updateChat raw).run ⟨server, []⟩ <;> rfl

theorem turnOf_unreceived
    {session : Session}
    {exception : Exception}
    {next : Client}
    (failed : Client.receive.run session.client = .error exception next)
    (server final : Server) :
    turnOf session server final = [] := by
  rw [turnOf]
  cases session.phase with
  | updater =>
      dsimp only
      rw [failed]
  | _ => rfl

/-- One more turn of a running updater. -/
theorem Updates.turn
    {taken replies : List Bytes}
    {turns : List Updater.Processed}
    (updates : Updates true taken replies turns)
    (raw : Bytes)
    (server : Server) :
    (∀ ends session, (Updater.updateChat raw).run ⟨server, []⟩ = .ok ends session →
      Updates (!ends) (taken ++ [raw]) (replies ++ session.sent)
        (turns ++ [⟨raw, server, session.server, session.sent⟩])) ∧
    ∃ running, Updates running (taken ++ [raw])
      (replies ++ (Client.turned raw server).sent)
      (turns ++ [⟨raw, server, (Client.turned raw server).server,
        (Client.turned raw server).sent⟩]) := by
  obtain ⟨first, _, granted, made, disciplined⟩ := updates
  have turn := disciplined.turn raw server
  have longer : ∀ session, Client.turned raw server = session →
      ∀ running, Updater.Disciplined running (turns.map Updater.Processed.raw ++ [raw])
        (turns ++ [⟨raw, server, session.server, session.sent⟩])
        (responsesOf turns ++ session.sent) →
      Updates running (first :: turns.map Updater.Processed.raw ++ [raw])
        (welcome :: responsesOf turns ++ session.sent)
        (turns ++ [⟨raw, server, session.server, session.sent⟩]) := by
    intro session isTurned running disciplined
    have one : Updates running _ _ _ := .intro first
      (turns ++ [⟨raw, server, session.server, session.sent⟩]) granted ?_ ?_
    · simpa [responsesOf] using one
    · intro other member
      rcases List.mem_append.mp member with earlier | last
      · exact made other earlier
      · rw [List.mem_singleton.mp last]
        exact isTurned
    · simpa [responsesOf] using disciplined
  cases ran : (Updater.updateChat raw).run ⟨server, []⟩ with
  | ok ends session =>
      rw [ran] at turn
      have isTurned : Client.turned raw server = session := by rw [Client.turned, ran]; rfl
      refine ⟨?_, !ends, ?_⟩
      · rintro _ _ ⟨⟩
        exact longer session isTurned _ turn
      · rw [isTurned]
        exact longer session isTurned _ turn
  | error exception session =>
      rw [ran] at turn
      have isTurned : Client.turned raw server = session := by rw [Client.turned, ran]; rfl
      refine ⟨fun _ _ impossible => (by cases impossible), false, ?_⟩
      rw [isTurned]
      exact longer session isTurned _ turn

theorem Displays.send
    {taken replies : List Bytes}
    (displays : Displays kind taken replies)
    {msg : Message}
    (isKind : kind msg)
    {s : Bytes}
    (encodes : (Wire.encode msg).run [] = .ok () s) :
    Displays kind taken (replies ++ [s]) := by
  obtain ⟨raw, msgs, encoded, granted, all, ofKind⟩ := displays
  refine .intro raw (msgs ++ [msg]) (encoded ++ [s]) granted
    (List.rel_append all (.cons encodes .nil)) fun other member => ?_
  rcases List.mem_append.mp member with earlier | last
  · exact ofKind other earlier
  · exact List.mem_singleton.mp last ▸ isKind

/-- A session has progressed by what a step took and wrote. -/
def Progresses (kind : Message → Prop) (session next : Session) (server final : Server)
    (taken replies : List Bytes) (turns : List Updater.Processed) : Prop :=
  ∃ more given, Moves session next more given ∧
    Progress kind next.phase (taken ++ more) (replies ++ given)
      (turns ++ turnOf session server final)

variable {client next origin : Client} {serial : Nat} {server final : Server}
variable {taken replies : List Bytes} {turns : List Updater.Processed}

theorem progresses_login
    (ran : Client.login.run client = .ok () next)
    (progress : Progress kind .login taken replies turns) :
    Progresses kind ⟨client, .login, origin, serial⟩
      ⟨next, if next.mode = .updater then .updater else .registering, origin, serial⟩
      server server taken replies turns := by
  obtain ⟨rfl, rfl, rfl⟩ := progress
  have exchange := Client.login_exchange client
  rw [ran] at exchange
  cases exchange with
  | granted _ raw rest received granted proper left writes =>
      refine ⟨[raw], [welcome], .answered (by trivial) received left (by simpa using writes), ?_⟩
      by_cases updater : next.mode = .updater
      · rw [if_pos updater]
        exact .intro raw [] (updater ▸ granted) (by simp) (.running _ _ _ Updater.served_nil)
      · rw [if_neg updater]
        rw [proper.resolve_left updater] at granted
        exact ⟨.intro raw [] [] granted .nil (by simp), rfl⟩

theorem progresses_loginFailed
    {exception : Exception}
    (ran : Client.login.run client = .error exception next)
    (progress : Progress kind .login taken replies turns) :
    Progresses kind ⟨client, .login, origin, serial⟩
      ⟨next, .closing (.thrown exception), origin, serial⟩ server server taken replies
      turns := by
  obtain ⟨rfl, rfl, rfl⟩ := progress
  have exchange := Client.login_exchange client
  rw [ran] at exchange
  cases exchange with
  | unreceived _ _ _ silent => exact ⟨[], [], .silent silent (by exact id), .nothing⟩
  | denied _ _ raw rest responses received expected wrote =>
      exact ⟨[raw], responses, .last (by trivial) (by exact id) received wrote,
        .denied raw _ expected⟩

theorem progresses_turn
    {ends : Bool}
    (ran : Client.updateChat.run (server, client) = .ok ends (final, next))
    (progress : Progress kind .updater taken replies turns) :
    Progresses kind ⟨client, .updater, origin, serial⟩
      ⟨next, if ends then .closing .left else .updater, origin, serial⟩ server final taken
      replies turns := by
  have exchange := Client.updateChat_exchange server client
  rw [ran] at exchange
  cases exchange with
  | answered _ _ raw rest turn received result left sameMode writes =>
      have isTurned : Client.turned raw server = turn := by
        rw [Client.turned, result]
        rfl
      refine ⟨[raw], turn.sent, .answered (by trivial) received left writes, ?_⟩
      rw [turnOf_received rfl received, isTurned]
      have updates := (Updates.turn progress raw server).1 ends turn result
      cases ends with
      | false => exact updates
      | true => exact .updater false _ _ _ updates

theorem progresses_turnFailed
    {exception : Exception}
    (ran : Client.updateChat.run (server, client) = .error exception (final, next))
    (progress : Progress kind .updater taken replies turns) :
    Progresses kind ⟨client, .updater, origin, serial⟩
      ⟨next, .closing (.thrown exception), origin, serial⟩ server final taken replies
      turns := by
  have exchange := Client.updateChat_exchange server client
  rw [ran] at exchange
  cases exchange with
  | unreceived _ _ failed silent =>
      refine ⟨[], [], .silent silent (by exact id), ?_⟩
      rw [turnOf_unreceived failed]
      simpa [Progress] using Progress.history progress
  | failed _ _ raw rest received wrote =>
      obtain ⟨running, updates⟩ := (Updates.turn progress raw server).2
      refine ⟨[raw], _, .last (by trivial) (by exact id) received wrote, ?_⟩
      rw [turnOf_received rfl received]
      exact .updater running _ _ _ updates

theorem progresses_send
    {msg : Message}
    {unsent : List Message}
    (isKind : kind msg)
    (ran : (Client.sendMsg msg).run client = .ok () next)
    (progress : Progress kind (.sending (msg :: unsent)) taken replies turns) :
    Progresses kind ⟨client, .sending (msg :: unsent), origin, serial⟩
      ⟨next, .sending unsent, origin, serial⟩ server server taken replies turns := by
  obtain ⟨displays, rfl⟩ := progress
  obtain ⟨-, s, encodes, writes⟩ := Client.sendMsg_ok ran
  rw [Client.sendMsg_run encodes] at ran
  have infd := Client.send_infd s client
  rw [ran] at infd
  have written : next.out = client.out ++ [s].flatMap Framing.frame := by
    rw [writes, List.flatMap_singleton]
  refine ⟨[], [s], ⟨⟨written ▸ List.prefix_rfl, fun _ => written⟩, fun _ => written,
    fun closed => absurd (by trivial) closed, Or.inl ⟨rfl, fun _ => infd⟩⟩, ?_⟩
  rw [List.append_nil]
  exact ⟨displays.send isKind encodes, rfl⟩

theorem progresses_sendFailed
    {exception : Exception}
    {msg : Message}
    {unsent : List Message}
    (isKind : kind msg)
    (ran : (Client.sendMsg msg).run client = .error exception next)
    (progress : Progress kind (.sending (msg :: unsent)) taken replies turns) :
    Progresses kind ⟨client, .sending (msg :: unsent), origin, serial⟩
      ⟨next, .closing (.thrown exception), origin, serial⟩ server server taken replies
      turns := by
  obtain ⟨displays, rfl⟩ := progress
  cases encoded : (Wire.encode msg).run [] with
  | error thrown out =>
      rw [EStateM.run, Client.sendMsg, encoded] at ran
      cases ran
      refine ⟨[], [], .silent rfl (by exact id), ?_⟩
      simpa [turnOf, Progress] using History.display _ _ displays
  | ok value s =>
      rw [Client.sendMsg_run encoded] at ran
      refine ⟨[], [s], ⟨Client.send_wrote ran, False.elim,
        fun closed => absurd (by trivial) closed, Or.inl ⟨rfl, False.elim⟩⟩, ?_⟩
      rw [List.append_nil]
      exact .display _ _ (displays.send isKind encoded)

/-- What a step of a session takes and writes makes it progress. -/
theorem Progress.step
    {self : ClientPtr}
    {session next : Session}
    (step : Session.Step self server session final next)
    (progress : Progress kind session.phase taken replies turns)
    (sends : Sends kind session) :
    Progresses kind session next server final taken replies turns := by
  cases step with
  | spawn client origin serial _ =>
      exact ⟨[], [], .nothing rfl, by simpa [turnOf, Progress] using progress⟩
  | spawnFailed client origin serial _ =>
      refine ⟨[], [], .nothing rfl, ?_⟩
      simpa [turnOf, Progress] using Progress.history progress
  | login client next origin serial _ ran => exact progresses_login ran progress
  | loginFailed exception client next origin serial _ ran =>
      exact progresses_loginFailed ran progress
  | turn ends client next origin serial _ _ ran => exact progresses_turn ran progress
  | turnFailed exception client next origin serial _ _ ran =>
      exact progresses_turnFailed ran progress
  | register client origin serial _ _ ran =>
      exact ⟨[], [], .nothing rfl, by simpa [turnOf, Progress] using progress⟩
  | snapshot orders client origin serial _ copied =>
      exact ⟨[], [], .nothing rfl, by simpa [turnOf, Progress] using progress⟩
  | send msg unsent client next origin serial _ ran =>
      exact progresses_send (sends _ rfl msg List.mem_cons_self) ran progress
  | sendFailed exception msg unsent client next origin serial _ ran =>
      exact progresses_sendFailed (sends _ rfl msg List.mem_cons_self) ran progress
  | dequeue msg client origin serial _ _ ran =>
      exact ⟨[], [], .nothing rfl, by simpa [turnOf, Progress] using progress⟩
  | timeout client origin serial _ =>
      exact ⟨[], [], .nothing rfl, by simpa [turnOf, Progress] using progress⟩
  | unregister how client origin serial _ _ ran =>
      exact ⟨[], [], .nothing rfl, by simpa [turnOf, Progress] using progress⟩

end Conversation
end OrderTracking
