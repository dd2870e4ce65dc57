import OrderTracking.Conversation.Causal
import OrderTracking.Programs.Login

/-!
# What a session takes and writes

`login` takes one string and writes at most one response, and a turn of `update_chat`
takes one string and writes its responses. What they write is complete unless the peer
stops accepting. Only the first failure ends the exchange.
-/

namespace OrderTracking

/-! ## Writing -/

namespace Client

/-- The client has written the strings, or a part of them if its peer does not accept
everything. -/
structure Wrote (strings : List Bytes) (client next : Client) : Prop where
  soFar : next.out <+: client.out ++ strings.flatMap Framing.frame
  whole : client.room = none → next.out = client.out ++ strings.flatMap Framing.frame

theorem wrote_nothing
    {client next : Client}
    (silent : next.out = client.out) :
    Wrote [] client next where
  soFar := by simp [silent]
  whole := by simp [silent]

theorem send_wrote
    {s : Bytes}
    {client next : Client}
    {exception : Exception}
    (ran : (send s).run client = .error exception next) :
    Wrote [s] client next where
  soFar := by simpa using (send_error ran).2.2
  whole := by
    intro unlimited
    rw [send_unlimited unlimited] at ran
    cases ran

/-- The end of the input was not met. -/
def NotEnd (exception : Exception) : Prop :=
  exception ≠ .ioException "file ended early"

theorem send_notEnd
    {s : Bytes}
    {client next : Client}
    {exception : Exception}
    (ran : (send s).run client = .error exception next) :
    NotEnd exception := by
  rw [EStateM.run, send] at ran
  split at ran
  · cases ran
  · split at ran
    · cases ran
    · cases ran
      simp [NotEnd]

theorem send_infd
    (s : Bytes)
    (client : Client) :
    (Code.stateOf ((send s).run client)).infd = client.infd := by
  rw [EStateM.run, send]
  split
  · rfl
  · split <;> rfl

/-- A send that succeeds, with what follows, or the one that fails. -/
theorem forM_send_cases
    (s : Bytes)
    (strings : List Bytes)
    (client : Client) :
    (∃ next, (send s).run client = .ok () next ∧
        ((s :: strings).forM send).run client = (strings.forM send).run next) ∨
      ∃ exception next, (send s).run client = .error exception next ∧
        ((s :: strings).forM send).run client = .error exception next := by
  simp only [List.forM_eq_forM, List.forM_cons, EStateM.run_bind]
  cases ran : (send s).run client with
  | ok value next => exact Or.inl ⟨next, rfl, rfl⟩
  | error exception next => exact Or.inr ⟨exception, next, rfl, rfl⟩

/-- While sends succeed, they write everything. -/
theorem forM_send_ok
    {strings : List Bytes}
    {client next : Client}
    (ran : (strings.forM send).run client = .ok ⟨⟩ next) :
    next.infd = client.infd ∧ next.mode = client.mode ∧
      next.out = client.out ++ strings.flatMap Framing.frame := by
  induction strings generalizing client with
  | nil =>
      cases ran
      exact ⟨rfl, rfl, by simp⟩
  | cons s strings inductionHypothesis =>
      rcases forM_send_cases s strings client with ⟨middle, sent, later⟩ | ⟨_, _, -, failed⟩
      · rw [later] at ran
        obtain ⟨infd, mode, out⟩ := inductionHypothesis ran
        have sameInfd := send_infd s client
        rw [sent] at sameInfd
        obtain ⟨sameMode, written⟩ := send_ok sent
        refine ⟨infd.trans sameInfd, mode.trans sameMode, ?_⟩
        rw [out, written, List.flatMap_cons, List.append_assoc]
      · rw [failed] at ran
        cases ran

/-- A send that fails has written a part of what was to be written. -/
theorem forM_send_error
    {strings : List Bytes}
    {client next : Client}
    {exception : Exception}
    (ran : (strings.forM send).run client = .error exception next) :
    Wrote strings client next ∧ NotEnd exception := by
  induction strings generalizing client with
  | nil => cases ran
  | cons s strings inductionHypothesis =>
      rcases forM_send_cases s strings client with
        ⟨middle, sent, later⟩ | ⟨other, middle, sent, failed⟩
      · rw [later] at ran
        obtain ⟨⟨soFar, whole⟩, notEnd⟩ := inductionHypothesis ran
        obtain ⟨-, written⟩ := send_ok sent
        have grows := (causal_send s).grows client
        rw [sent] at grows
        rw [written, List.append_assoc, ← List.flatMap_cons] at soFar whole
        exact ⟨⟨soFar, fun unlimited => whole (grows.unlimited unlimited)⟩, notEnd⟩
      · rw [failed] at ran
        cases ran
        obtain ⟨soFar, whole⟩ := send_wrote sent
        rw [List.flatMap_singleton] at soFar whole
        have more : client.out ++ Framing.frame s <+:
            client.out ++ (s :: strings).flatMap Framing.frame := by
          rw [List.flatMap_cons, ← List.append_assoc]
          exact List.prefix_append _ _
        refine ⟨⟨soFar.trans more, fun unlimited => ?_⟩, send_notEnd sent⟩
        rw [send_unlimited unlimited] at sent
        cases sent

/-! ## Logging in -/

/-- The string is a `LOGIN` with the mode and a known credential. -/
def IsGranted (mode : ClientMode) (raw : Bytes) : Prop :=
  ∃ req, (Wire.decode raw).run .empty = .ok () req ∧ req.type = .login ∧
    req.clientMode = mode ∧ req.str ∈ PasswordDB.credentials

/-- The response says whether the string is a login that is granted. -/
def Judges (raw response : Bytes) : Prop :=
  response ∈ Programs.loginResponses ∧
    (response = Programs.welcome ↔ IsGranted .updater raw ∨ IsGranted .display raw)

/-- The outcomes of `login`, with the string it takes and the response it writes. -/
inductive LoginExchange (client : Client) : EStateM.Result Exception Client Unit → Prop
  | unreceived (exception : Exception) (next : Client)
      (ran : receive.run client = .error exception next)
      (silent : next.out = client.out) :
      LoginExchange client (.error exception next)
  | denied (exception : Exception) (next : Client) (raw : Bytes) (rest : Framing.Input)
      (responses : List Bytes)
      (received : Framing.receive.run ⟨client.infd, []⟩ = .ok () ⟨rest, raw⟩)
      (expected : responses = [] ∨ ∃ response, Judges raw response ∧ responses = [response])
      (wrote : Wrote responses client next)
      (notEnd : NotEnd exception) :
      LoginExchange client (.error exception next)
  | granted (next : Client) (raw : Bytes) (rest : Framing.Input)
      (received : Framing.receive.run ⟨client.infd, []⟩ = .ok () ⟨rest, raw⟩)
      (granted : IsGranted next.mode raw)
      (proper : next.mode = .updater ∨ next.mode = .display)
      (left : next.infd = rest)
      (writes : next.out = client.out ++ Framing.frame Programs.welcome) :
      LoginExchange client (.ok () next)

theorem IsGranted.of_decode
    {mode : ClientMode}
    {raw : Bytes}
    {req : Message}
    (granted : IsGranted mode raw)
    (decodes : (Wire.decode raw).run .empty = .ok () req) :
    req.type = .login ∧ req.clientMode = mode ∧ req.str ∈ PasswordDB.credentials := by
  obtain ⟨other, otherDecodes, holds⟩ := granted
  rw [decodes] at otherDecodes
  cases otherDecodes
  exact holds

theorem notEnd_of_decode
    {raw : Bytes}
    {msg other : Message}
    {exception : Exception}
    (fails : (Wire.decode raw).run msg = .error exception other) :
    NotEnd exception := by
  rcases Wire.decode_reads_or_rejects raw msg with ⟨sentence, -, read⟩ | ⟨what, rejected⟩
  · rw [read] at fails
    cases fails
  · rw [rejected] at fails
    cases fails
    simp [NotEnd]

/-- A denial is an `ERROR`. -/
theorem judges_denial
    {raw str : Bytes}
    {req : Message}
    (decodes : (Wire.decode raw).run .empty = .ok () req)
    (expected : Updater.textOf .error str ∈ Programs.loginResponses)
    (improper : ¬ (req.str ∈ PasswordDB.credentials ∧
      (req.clientMode = .updater ∨ req.clientMode = .display))) :
    Judges raw (Updater.textOf .error str) := by
  refine ⟨expected, fun same => ?_, fun granted => ?_⟩
  · have ok : Updater.IsResponse .ok Programs.welcome := Updater.isResponse_ok _
    rw [← same] at ok
    exact absurd ⟨ok, Updater.isResponse_error str⟩
      (Updater.not_isResponse_ok_and_error _)
  · exfalso
    rcases granted with granted | granted
    · obtain ⟨-, mode, known⟩ := granted.of_decode decodes
      exact improper ⟨known, Or.inl mode⟩
    · obtain ⟨-, mode, known⟩ := granted.of_decode decodes
      exact improper ⟨known, Or.inr mode⟩

/-- A denial and an exception. -/
theorem sendMsg_throw_wrote
    (str : Bytes)
    {exception : Exception}
    (notEnd : NotEnd exception)
    (client : Client) :
    ∃ thrown next, (do
        sendMsg (.ofStr .error str)
        throw exception : Code Client Unit).run client = .error thrown next ∧
      Wrote [Updater.textOf .error str] client next ∧ NotEnd thrown := by
  have encodes := Wire.encode_text (show Message.IsText .error by decide) str []
  rw [EStateM.run_bind, sendMsg_run encodes]
  cases ran : (send ([Wire.pipe].intercalate
      [Wire.messageTypeToStr .error, str])).run client with
  | ok value next =>
      have written := (send_ok ran).2
      exact ⟨exception, next, rfl, ⟨by simp [written, Updater.textOf],
        fun _ => by simp [written, Updater.textOf]⟩, notEnd⟩
  | error thrown next => exact ⟨thrown, next, rfl, send_wrote ran, send_notEnd ran⟩

/-- `login` on a string that decodes. -/
theorem loginExchange_of_decode
    {client : Client}
    {rest : Framing.Input}
    {raw : Bytes}
    {req : Message}
    (returned : Framing.receive.run ⟨client.infd, []⟩ = .ok () ⟨rest, raw⟩)
    (decodes : (Wire.decode raw).run .empty = .ok () req) :
    LoginExchange client (login.run client) := by
  have received : receive.run client = .ok raw { client with infd := rest } := by
    rw [EStateM.run, receive, returned]
  rw [login_run_of_decode received decodes]
  by_cases type : req.type = .login
  · rw [if_neg (not_not.mpr type)]
    by_cases known : req.str ∈ PasswordDB.credentials
    · rw [if_neg (by simpa [authenticate_iff] using known), EStateM.run_bind,
        EStateM.run_modify]
      dsimp only
      by_cases improper : req.clientMode ≠ .updater ∧ req.clientMode ≠ .display
      · rw [if_pos improper]
        obtain ⟨thrown, next, ran, wrote, notEnd⟩ := sendMsg_throw_wrote
          (ascii "invalid client mode")
          (show NotEnd (.protocolError "invalid client mode") by simp [NotEnd])
          { client with infd := rest, mode := req.clientMode }
        rw [ran]
        refine .denied thrown next raw rest _ returned
          (Or.inr ⟨_, judges_denial decodes (by simp [Programs.loginResponses]) ?_, rfl⟩)
          ⟨wrote.soFar, wrote.whole⟩ notEnd
        exact fun proper => proper.2.elim improper.1 improper.2
      · rw [if_neg improper, sendMsg_run
          (Wire.encode_text (by decide) (ascii "successful login") [])]
        have proper : req.clientMode = .updater ∨ req.clientMode = .display := by
          by_contra neither
          exact improper (not_or.mp neither)
        generalize started :
          ({ client with infd := rest, mode := req.clientMode } : Client) = start
        cases ran : (send ([Wire.pipe].intercalate
            [Wire.messageTypeToStr .ok, ascii "successful login"])).run start with
        | ok value next =>
            obtain ⟨mode, out⟩ := send_ok ran
            have infd := send_infd ([Wire.pipe].intercalate
              [Wire.messageTypeToStr .ok, ascii "successful login"]) start
            rw [ran] at infd
            subst started
            refine .granted next raw rest returned ?_ ?_ infd out
            · exact ⟨req, decodes, type, mode.symm, known⟩
            · rw [mode]
              exact proper
        | error exception next =>
            obtain ⟨soFar, whole⟩ := send_wrote ran
            subst started
            have granted : IsGranted .updater raw ∨ IsGranted .display raw :=
              proper.imp (fun mode => ⟨req, decodes, type, mode, known⟩)
                fun mode => ⟨req, decodes, type, mode, known⟩
            exact .denied exception next raw rest _ returned
              (Or.inr ⟨_, ⟨List.mem_cons_self, iff_of_true rfl granted⟩, rfl⟩) ⟨soFar, whole⟩
              (send_notEnd ran)
    · rw [if_pos (by simpa [← authenticate_iff] using known)]
      obtain ⟨thrown, next, ran, wrote, notEnd⟩ := sendMsg_throw_wrote
        (ascii "Bad Login") (show NotEnd (.protocolError "auth error") by simp [NotEnd])
        { client with infd := rest }
      rw [ran]
      exact .denied thrown next raw rest _ returned
        (Or.inr ⟨_, judges_denial decodes (by simp [Programs.loginResponses])
          fun proper => known proper.1, rfl⟩) ⟨wrote.soFar, wrote.whole⟩ notEnd
  · rw [if_pos type]
    exact .denied _ _ raw rest [] returned (Or.inl rfl) (wrote_nothing rfl) (by simp [NotEnd])

theorem login_exchange (client : Client) :
    LoginExchange client (login.run client) := by
  cases received : receive.run client with
  | error exception next =>
      obtain ⟨⟨rest, rfl⟩, -⟩ := receive_error received
      rw [login, EStateM.run_bind, received]
      exact .unreceived exception _ received rfl
  | ok raw next =>
      obtain ⟨rest, rfl, returned⟩ := receive_ok received
      cases decodes : (Wire.decode raw).run .empty with
      | error exception msg =>
          rw [login, EStateM.run_bind, received]
          dsimp only
          rw [EStateM.run_bind, decode_run_error decodes]
          refine .denied exception _ raw rest [] returned (Or.inl rfl) (wrote_nothing rfl) ?_
          exact notEnd_of_decode decodes
      | ok value req => exact loginExchange_of_decode returned decodes

/-! ## Turns -/

/-- What a turn on a string makes of the server, and its responses. -/
def turned (raw : Bytes) (server : Server) : Updater.Session :=
  Code.stateOf ((Updater.updateChat raw).run ⟨server, []⟩)

/-- The outcomes of a turn, with the string it takes and the responses it writes. -/
inductive TurnExchange (server : Server) (client : Client) :
    EStateM.Result Exception (Server × Client) Bool → Prop
  | unreceived (exception : Exception) (next : Client)
      (ran : receive.run client = .error exception next)
      (silent : next.out = client.out) :
      TurnExchange server client (.error exception (server, next))
  | failed (exception : Exception) (next : Client) (raw : Bytes) (rest : Framing.Input)
      (received : Framing.receive.run ⟨client.infd, []⟩ = .ok () ⟨rest, raw⟩)
      (wrote : Wrote (turned raw server).sent client next)
      (notEnd : NotEnd exception) :
      TurnExchange server client (.error exception ((turned raw server).server, next))
  | answered (ends : Bool) (next : Client) (raw : Bytes) (rest : Framing.Input)
      (session : Updater.Session)
      (received : Framing.receive.run ⟨client.infd, []⟩ = .ok () ⟨rest, raw⟩)
      (ran : (Updater.updateChat raw).run ⟨server, []⟩ = .ok ends session)
      (left : next.infd = rest)
      (sameMode : next.mode = client.mode)
      (writes : next.out = client.out ++ session.sent.flatMap Framing.frame) :
      TurnExchange server client (.ok ends (session.server, next))

/-- A turn throws on a string it rejects, and not because of its input. -/
theorem updateChat_notEnd
    {raw : Bytes}
    {server : Server}
    {exception : Exception}
    {session : Updater.Session}
    (failed : (Updater.updateChat raw).run ⟨server, []⟩ = .error exception session) :
    NotEnd exception := by
  have turn := Updater.turn_updateChat raw server
  rw [failed] at turn
  obtain ⟨rejects, -⟩ := turn.throws
  rw [EStateM.run, Updater.updateChat] at failed
  cases decodes : (Wire.decode raw).run .empty with
  | error thrown msg =>
      rw [decodes] at failed
      cases failed
      exact notEnd_of_decode decodes
  | ok value req =>
      obtain ⟨noQuit, noCall⟩ := rejects req decodes
      have handled : (Updater.handle req).run ⟨server, []⟩ =
          .error (.protocolError "unexpected message type from updater") ⟨server, []⟩ := by
        unfold Updater.handle
        unfold Updater.Calls at noCall
        cases type : req.type <;> simp_all <;> rfl
      simp only [decodes, handled] at failed
      cases failed
      simp [NotEnd]

theorem updateChat_exchange
    (server : Server)
    (client : Client) :
    TurnExchange server client (updateChat.run (server, client)) := by
  rw [updateChat_run_eq]
  cases received : receive.run client with
  | error exception next =>
      obtain ⟨⟨rest, rfl⟩, -⟩ := receive_error received
      exact .unreceived exception _ received rfl
  | ok raw next =>
      obtain ⟨rest, rfl, returned⟩ := receive_ok received
      cases result : (Updater.updateChat raw).run ⟨server, []⟩ with
      | error exception session =>
          have isTurned : session = turned raw server := by rw [turned, result]; rfl
          simp only [result, respond]
          cases ran : (session.sent.forM send).run { client with infd := rest } with
          | error failure next =>
              obtain ⟨⟨soFar, whole⟩, notEnd⟩ := forM_send_error ran
              subst isTurned
              exact .failed failure next raw rest returned ⟨soFar, whole⟩ notEnd
          | ok value next =>
              obtain ⟨-, -, out⟩ := forM_send_ok ran
              subst isTurned
              exact .failed exception next raw rest returned
                ⟨out ▸ List.prefix_rfl, fun _ => out⟩ (updateChat_notEnd result)
      | ok ends session =>
          have isTurned : session = turned raw server := by rw [turned, result]; rfl
          simp only [result, respond]
          cases ran : (session.sent.forM send).run { client with infd := rest } with
          | error failure next =>
              obtain ⟨⟨soFar, whole⟩, notEnd⟩ := forM_send_error ran
              subst isTurned
              exact .failed failure next raw rest returned ⟨soFar, whole⟩ notEnd
          | ok value next =>
              obtain ⟨infd, mode, out⟩ := forM_send_ok ran
              exact .answered ends next raw rest session returned result infd mode out

end Client
end OrderTracking
