import OrderTracking.Client.Defs
import OrderTracking.Framing.Exact
import OrderTracking.Updater.Responses

/-!
# What a client does with its socket

A specification for each function of `Client`: what a send writes, when it fails,
and everything `login` and a turn of `update_chat` can do with the bytes the peer
sends.
-/

namespace OrderTracking
namespace Client

/-! ## Receiving -/

/-- The bytes begin with the frame of the string. -/
def FirstFrame (infd : Framing.Input) (raw : Bytes) : Prop :=
  ∃ count, Framing.FrameAt (Framing.available infd) raw count

theorem firstFrame_iff
    {infd : Framing.Input}
    {raw : Bytes} :
    FirstFrame infd raw ↔
      ∃ rest, Framing.receive.run ⟨infd, []⟩ = .ok () ⟨rest, raw⟩ := by
  constructor
  · rintro ⟨count, frameAt⟩
    obtain ⟨rest, returned, -⟩ := (Framing.receive_iff_frameAt ⟨infd, []⟩ raw count).mpr frameAt
    exact ⟨rest, returned⟩
  · rintro ⟨rest, returned⟩
    obtain ⟨-, delivered⟩ := Framing.framed_of_receive returned
    exact ⟨_, (Framing.receive_iff_frameAt ⟨infd, []⟩ raw _).mp
      ⟨rest, returned, _, rfl, delivered⟩⟩

/-- The first frame decodes to a `LOGIN` with the mode and a known credential. -/
def Grants (mode : ClientMode) (infd : Framing.Input) : Prop :=
  ∃ raw req, FirstFrame infd raw ∧ (Wire.decode raw).run .empty = .ok () req ∧
    req.type = .login ∧ req.clientMode = mode ∧ req.str ∈ PasswordDB.credentials

/-- Receiving touches nothing but the delivered bytes. -/
theorem receive_ok
    {client next : Client}
    {raw : Bytes}
    (ran : receive.run client = .ok raw next) :
    ∃ rest, next = { client with infd := rest } ∧
      Framing.receive.run ⟨client.infd, []⟩ = .ok () ⟨rest, raw⟩ := by
  rw [EStateM.run, receive] at ran
  cases returned : Framing.receive.run ⟨client.infd, []⟩ with
  | error exception receiver =>
      rw [returned] at ran
      cases ran
  | ok value receiver =>
      rw [returned] at ran
      cases ran
      exact ⟨receiver.infd, rfl, rfl⟩

theorem receive_error
    {client next : Client}
    {exception : Exception}
    (ran : receive.run client = .error exception next) :
    (∃ rest, next = { client with infd := rest }) ∧ ¬ ∃ raw, FirstFrame client.infd raw := by
  rw [EStateM.run, receive] at ran
  cases returned : Framing.receive.run ⟨client.infd, []⟩ with
  | ok value receiver =>
      rw [returned] at ran
      cases ran
  | error thrown receiver =>
      rw [returned] at ran
      cases ran
      refine ⟨⟨receiver.infd, rfl⟩, ?_⟩
      rintro ⟨raw, first⟩
      obtain ⟨rest, otherwise⟩ := firstFrame_iff.mp first
      rw [returned] at otherwise
      cases otherwise

/-! ## Sending -/

theorem send_ok
    {s : Bytes}
    {client next : Client}
    (ran : (send s).run client = .ok () next) :
    next.mode = client.mode ∧ next.out = client.out ++ Framing.frame s := by
  rw [EStateM.run, send] at ran
  split at ran
  · cases ran
    exact ⟨rfl, rfl⟩
  · split at ran
    · cases ran
      exact ⟨rfl, rfl⟩
    · cases ran

/-- A send that fails has written a part of the frame. -/
theorem send_error
    {s : Bytes}
    {client next : Client}
    {exception : Exception}
    (ran : (send s).run client = .error exception next) :
    (∃ what, exception = .ioException what) ∧ next.mode = client.mode ∧
      next.out <+: client.out ++ Framing.frame s := by
  rw [EStateM.run, send] at ran
  split at ran
  · cases ran
  · split at ran
    · cases ran
    · cases ran
      exact ⟨⟨_, rfl⟩, rfl, List.prefix_append_right_inj _ |>.mpr (List.take_prefix _ _)⟩

/-- While the peer accepts everything, a send writes what `IO::send` writes. -/
theorem send_unlimited
    {client : Client}
    (unlimited : client.room = none)
    (s : Bytes) :
    (send s).run client = .ok () { client with
      out := match (Framing.send s).run client.out with
        | .ok _ out => out
        | .error _ out => out } := by
  rw [EStateM.run, send, unlimited, Framing.send_run]

/-- Sending an encodable message sends its encoding. -/
theorem sendMsg_run
    {msg : Message}
    {out : Bytes}
    (encodes : (Wire.encode msg).run [] = .ok () out)
    (client : Client) :
    (sendMsg msg).run client = (send out).run client := by
  rw [EStateM.run, sendMsg, encodes]

theorem sendMsg_ok
    {msg : Message}
    {client next : Client}
    (ran : (sendMsg msg).run client = .ok () next) :
    next.mode = client.mode ∧ ∃ out, (Wire.encode msg).run [] = .ok () out ∧
      next.out = client.out ++ Framing.frame out := by
  cases encoded : (Wire.encode msg).run [] with
  | error exception out =>
      rw [EStateM.run, sendMsg, encoded] at ran
      cases ran
  | ok value out =>
      rw [sendMsg_run encoded] at ran
      obtain ⟨mode, writes⟩ := send_ok ran
      exact ⟨mode, out, rfl, writes⟩

/-- Sending a message fails when it cannot be encoded or written. -/
theorem sendMsg_error
    {msg : Message}
    {client next : Client}
    {exception : Exception}
    (ran : (sendMsg msg).run client = .error exception next) :
    next.mode = client.mode ∧
      ((∃ out, (Wire.encode msg).run [] = .error exception out) ∨
        ∃ what, exception = .ioException what) := by
  cases encoded : (Wire.encode msg).run [] with
  | error thrown out =>
      rw [EStateM.run, sendMsg, encoded] at ran
      cases ran
      exact ⟨rfl, Or.inl ⟨out, rfl⟩⟩
  | ok value out =>
      rw [sendMsg_run encoded] at ran
      obtain ⟨failure, mode, -⟩ := send_error ran
      exact ⟨mode, Or.inr failure⟩

/-- What `login` and `update_chat` respond. Only the id of an order that was created is
not fixed. -/
inductive Response : Bytes → Prop
  | loggedIn : Response (Updater.textOf .ok (ascii "successful login"))
  | badLogin : Response (Updater.textOf .error (ascii "Bad Login"))
  | badMode : Response (Updater.textOf .error (ascii "invalid client mode"))
  | goodbye : Response (Updater.textOf .ok (ascii "goodbye"))
  | created (orderId : Int32) :
      Response (Updater.textOf .ok (ascii "Created order id " ++ Cxx.toString orderId))
  | itemUpdated : Response (Updater.textOf .ok (ascii "successful item update"))
  | orderUpdated : Response (Updater.textOf .ok (ascii "successful order update"))
  | refused (what : String) (known : what ∈ Updater.refusals) :
      Response (Updater.textOf .error (ascii what))

theorem Response.of_turn
    {raw response : Bytes}
    {server : Server}
    {ends : Bool}
    {session : Updater.Session}
    (turn : Updater.Turn raw server (.ok ends session))
    (only : session.sent = [response]) :
    Response response := by
  cases turn with
  | quit =>
      cases only
      exact .goodbye
  | refused req what decodes calls known =>
      cases only
      exact .refused what known
  | created =>
      cases only
      exact .created _
  | itemUpdated =>
      cases only
      exact .itemUpdated
  | delivered =>
      cases only
      exact .orderUpdated

/-- The bytes are complete responses. -/
def Plain (out : Bytes) : Prop :=
  ∃ texts : List Bytes, (∀ text ∈ texts, Response text) ∧ out = texts.flatMap Framing.frame

theorem plain_nil : Plain [] := ⟨[], by simp, rfl⟩

theorem Plain.append
    {out text : Bytes}
    (plain : Plain out)
    (response : Response text) :
    Plain (out ++ Framing.frame text) := by
  obtain ⟨texts, responses, rfl⟩ := plain
  refine ⟨texts ++ [text], ?_, by simp⟩
  intro other member
  rcases List.mem_append.mp member with earlier | last
  · exact responses other earlier
  · rw [List.mem_singleton.mp last]
    exact response

/-- The bytes begin like complete responses. -/
def PlainSoFar (out : Bytes) : Prop :=
  ∃ whole, Plain whole ∧ out <+: whole

theorem Plain.soFar
    {out : Bytes}
    (plain : Plain out) : PlainSoFar out :=
  ⟨out, plain, List.prefix_rfl⟩

/-! ## Logging in -/

/-- The outcomes of `login`. Without a proper `LOGIN` it throws, at most after an
`ERROR`; with one it sets the mode and then succeeds or fails to send the `OK`. -/
inductive Login (client : Client) : EStateM.Result Exception Client Unit → Prop
  | rejected (exception : Exception) (next : Client)
      (denied : ∀ mode, ¬ Grants mode client.infd)
      (sameMode : next.mode = client.mode)
      (silent : next.out = client.out) :
      Login client (.error exception next)
  | answered (exception : Exception) (next : Client) (text : Bytes)
      (denied : ¬ Grants .updater client.infd ∧ ¬ Grants .display client.infd)
      (mode : next.mode = client.mode ∨ next.mode ≠ .updater ∧ next.mode ≠ .display)
      (response : Response text)
      (writes : next.out <+: client.out ++ Framing.frame text) :
      Login client (.error exception next)
  | granted (next : Client) (text : Bytes)
      (grants : Grants next.mode client.infd)
      (proper : next.mode = .updater ∨ next.mode = .display)
      (response : Response text)
      (writes : next.out = client.out ++ Framing.frame text) :
      Login client (.ok () next)
  | failed (what : String) (next : Client) (text : Bytes)
      (grants : Grants next.mode client.infd)
      (response : Response text)
      (writes : next.out <+: client.out ++ Framing.frame text) :
      Login client (.error (.ioException what) next)

theorem denied_of_decode
    {infd rest : Framing.Input}
    {raw : Bytes}
    (first : Framing.receive.run ⟨infd, []⟩ = .ok () ⟨rest, raw⟩)
    {mode : ClientMode}
    (improper : ∀ req, (Wire.decode raw).run .empty = .ok () req →
      ¬ (req.type = .login ∧ req.clientMode = mode ∧ req.str ∈ PasswordDB.credentials)) :
    ¬ Grants mode infd := by
  rintro ⟨other, req, otherFirst, decodes, type, isMode, known⟩
  obtain ⟨otherRest, otherReturned⟩ := firstFrame_iff.mp otherFirst
  rw [first] at otherReturned
  cases otherReturned
  exact improper req decodes ⟨type, isMode, known⟩

theorem authenticate_iff (cred : Bytes) :
    PasswordDB.authenticate cred = true ↔ cred ∈ PasswordDB.credentials := by
  rw [PasswordDB.authenticate, List.contains_iff_mem]

/-- An `ERROR` and an exception. -/
theorem sendMsg_throw
    (str : Bytes)
    (exception : Exception)
    (client : Client) :
    ∃ thrown next, (do
        sendMsg (.ofStr .error str)
        throw exception : Code Client Unit).run client = .error thrown next ∧
      next.mode = client.mode ∧
      next.out <+: client.out ++ Framing.frame (Updater.textOf .error str) := by
  have encodes := Wire.encode_text (show Message.IsText .error by decide) str []
  rw [EStateM.run_bind, sendMsg_run encodes]
  cases ran : (send ([Wire.pipe].intercalate
      [Wire.messageTypeToStr .error, str])).run client with
  | ok value next =>
      obtain ⟨mode, out⟩ := send_ok ran
      exact ⟨exception, next, rfl, mode, out ▸ List.prefix_rfl⟩
  | error thrown next =>
      obtain ⟨-, mode, out⟩ := send_error ran
      exact ⟨thrown, next, rfl, mode, out⟩

theorem decode_run_ok
    {raw : Bytes}
    {req : Message}
    (decodes : (Wire.decode raw).run .empty = .ok () req)
    (client : Client) :
    (decode raw).run client = .ok req client := by
  rw [EStateM.run, decode, decodes]

theorem decode_run_error
    {raw : Bytes}
    {exception : Exception}
    {msg : Message}
    (fails : (Wire.decode raw).run .empty = .error exception msg)
    (client : Client) :
    (decode raw).run client = .error exception client := by
  rw [EStateM.run, decode, fails]

/-- What `login` does with a decoded request. -/
theorem login_run_of_decode
    {client : Client}
    {rest : Framing.Input}
    {raw : Bytes}
    {req : Message}
    (received : receive.run client = .ok raw { client with infd := rest })
    (decodes : (Wire.decode raw).run .empty = .ok () req) :
    login.run client =
      (if req.type ≠ .login then
        throw (.protocolError "Not Login Message")
      else if !PasswordDB.authenticate req.str then do
        sendMsg (.ofStr .error (ascii "Bad Login"))
        throw (.protocolError "auth error")
      else do
        modify fun client => { client with mode := req.clientMode }
        if req.clientMode ≠ .updater ∧ req.clientMode ≠ .display then do
          sendMsg (.ofStr .error (ascii "invalid client mode"))
          throw (.protocolError "invalid client mode")
        else sendMsg (.ofStr .ok (ascii "successful login")) : Code Client Unit).run
          { client with infd := rest } := by
  rw [login, EStateM.run_bind, received]
  dsimp only
  rw [EStateM.run_bind, decode_run_ok decodes]

/-- The last part of `login`. -/
theorem login_of_grants
    {client start : Client}
    (proper : start.mode = .updater ∨ start.mode = .display)
    (grants : Grants start.mode client.infd)
    (same : start.out = client.out) :
    Login client ((sendMsg (.ofStr .ok (ascii "successful login"))).run start) := by
  have encodes := Wire.encode_text (show Message.IsText .ok by decide)
    (ascii "successful login") []
  rw [sendMsg_run encodes]
  cases ran : (send ([Wire.pipe].intercalate
      [Wire.messageTypeToStr .ok, ascii "successful login"])).run start with
  | ok value next =>
      obtain ⟨mode, out⟩ := send_ok ran
      rw [same] at out
      rw [← mode] at proper grants
      exact .granted next _ grants proper .loggedIn out
  | error exception next =>
      obtain ⟨⟨what, rfl⟩, mode, out⟩ := send_error ran
      rw [same] at out
      rw [← mode] at grants
      exact .failed what next _ grants .loggedIn out

/-- `login` on a request that decodes. -/
theorem login_of_decode
    {client : Client}
    {rest : Framing.Input}
    {raw : Bytes}
    {req : Message}
    (received : receive.run client = .ok raw { client with infd := rest })
    (first : Framing.receive.run ⟨client.infd, []⟩ = .ok () ⟨rest, raw⟩)
    (decodes : (Wire.decode raw).run .empty = .ok () req) :
    Login client (login.run client) := by
  have denied : ∀ {mode}, ¬ (req.type = .login ∧ req.clientMode = mode ∧
      req.str ∈ PasswordDB.credentials) → ¬ Grants mode client.infd := by
    intro mode improper
    apply denied_of_decode first
    intro other otherDecodes
    rw [decodes] at otherDecodes
    cases otherDecodes
    exact improper
  rw [login_run_of_decode received decodes]
  by_cases type : req.type = .login
  · rw [if_neg (not_not.mpr type)]
    by_cases known : req.str ∈ PasswordDB.credentials
    · rw [if_neg (by simpa [authenticate_iff] using known), EStateM.run_bind,
        EStateM.run_modify]
      dsimp only
      by_cases improper : req.clientMode ≠ .updater ∧ req.clientMode ≠ .display
      · rw [if_pos improper]
        obtain ⟨thrown, next, ran, mode, writes⟩ := sendMsg_throw
          (ascii "invalid client mode") (.protocolError "invalid client mode")
          { client with infd := rest, mode := req.clientMode }
        rw [ran]
        refine .answered thrown next _ ⟨denied ?_, denied ?_⟩ (Or.inr ?_) .badMode writes
        · exact fun granted => improper.1 granted.2.1
        · exact fun granted => improper.2 granted.2.1
        · rw [mode]
          exact improper
      · rw [if_neg improper]
        have proper : req.clientMode = .updater ∨ req.clientMode = .display := by
          by_contra neither
          exact improper (not_or.mp neither)
        exact login_of_grants proper ⟨raw, req, firstFrame_iff.mpr ⟨rest, first⟩,
          decodes, type, rfl, known⟩ rfl
    · rw [if_pos (by simpa [← authenticate_iff] using known)]
      obtain ⟨thrown, next, ran, mode, writes⟩ := sendMsg_throw
        (ascii "Bad Login") (.protocolError "auth error")
        { client with infd := rest }
      rw [ran]
      exact .answered thrown next _
        ⟨denied fun granted => known granted.2.2,
          denied fun granted => known granted.2.2⟩
        (Or.inl mode) .badLogin writes
  · rw [if_pos type]
    exact .rejected _ _ (fun mode => denied fun granted => type granted.1) rfl rfl

theorem login_run (client : Client) : Login client (login.run client) := by
  cases received : receive.run client with
  | error exception next =>
      obtain ⟨⟨rest, rfl⟩, unframed⟩ := receive_error received
      rw [login, EStateM.run_bind, received]
      refine .rejected exception _ ?_ rfl rfl
      rintro mode ⟨raw, req, first, -⟩
      exact unframed ⟨raw, first⟩
  | ok raw next =>
      obtain ⟨rest, rfl, first⟩ := receive_ok received
      cases decodes : (Wire.decode raw).run .empty with
      | error exception msg =>
          rw [login, EStateM.run_bind, received]
          dsimp only
          rw [EStateM.run_bind, decode_run_error decodes]
          refine .rejected exception _ ?_ rfl rfl
          intro mode
          apply denied_of_decode first
          intro req otherwise
          rw [decodes] at otherwise
          cases otherwise
      | ok value req => exact login_of_decode received first decodes

theorem Login.of_run
    {client : Client}
    {result : EStateM.Result Exception Client Unit}
    (ran : login.run client = result) :
    Login client result :=
  ran ▸ login_run client

/-- A `login` that throws after it made the client a display failed to send the
`OK`. -/
theorem Login.display_error
    {client next : Client}
    {exception : Exception}
    (login : Login client (.error exception next))
    (modeless : client.mode = .invalid)
    (display : next.mode = .display) :
    Grants .display client.infd ∧ ∃ what, exception = .ioException what := by
  cases login with
  | rejected _ _ denied sameMode =>
      rw [sameMode, modeless] at display
      cases display
  | answered _ _ text denied mode =>
      rcases mode with sameMode | improper
      · rw [sameMode, modeless] at display
        cases display
      · exact absurd display improper.2
  | failed what _ text grants => exact ⟨display ▸ grants, what, rfl⟩

/-- A proper `LOGIN` succeeds while the peer accepts everything. -/
theorem login_of_unlimited
    {client : Client}
    {rest : Framing.Input}
    {raw : Bytes}
    {req : Message}
    (returned : Framing.receive.run ⟨client.infd, []⟩ = .ok () ⟨rest, raw⟩)
    (decodes : (Wire.decode raw).run .empty = .ok () req)
    (type : req.type = .login)
    (proper : req.clientMode = .updater ∨ req.clientMode = .display)
    (known : req.str ∈ PasswordDB.credentials)
    (unlimited : client.room = none) :
    ∃ next, login.run client = .ok () next ∧ next.mode = req.clientMode ∧
      next.infd = rest ∧ next.room = none := by
  have received : receive.run client = .ok raw { client with infd := rest } := by
    rw [EStateM.run, receive, returned]
  have notImproper : ¬ (req.clientMode ≠ .updater ∧ req.clientMode ≠ .display) := by
    rintro ⟨notUpdater, notDisplay⟩
    exact proper.elim notUpdater notDisplay
  rw [login_run_of_decode received decodes, if_neg (not_not.mpr type),
    if_neg (by simpa [authenticate_iff] using known), EStateM.run_bind,
    EStateM.run_modify]
  dsimp only
  rw [if_neg notImproper, sendMsg_run (Wire.encode_text (by decide) _ _)]
  exact ⟨_, @send_unlimited { client with mode := req.clientMode, infd := rest }
    unlimited _, rfl, rfl, unlimited⟩

/-- A `LOGIN` with an unknown credential is answered, and the session ends. -/
theorem login_of_unknown
    {client : Client}
    {rest : Framing.Input}
    {raw : Bytes}
    {req : Message}
    (returned : Framing.receive.run ⟨client.infd, []⟩ = .ok () ⟨rest, raw⟩)
    (decodes : (Wire.decode raw).run .empty = .ok () req)
    (type : req.type = .login)
    (unknown : req.str ∉ PasswordDB.credentials)
    (unlimited : client.room = none) :
    ∃ next, login.run client = .error (.protocolError "auth error") next ∧
      next.out = client.out ++ Framing.frame (Updater.textOf .error (ascii "Bad Login")) := by
  have received : receive.run client = .ok raw { client with infd := rest } := by
    rw [EStateM.run, receive, returned]
  have encodes := Wire.encode_text (show Message.IsText .error by decide)
    (ascii "Bad Login") []
  have sends := @send_unlimited { client with infd := rest } unlimited
    (Updater.textOf .error (ascii "Bad Login"))
  rw [login_run_of_decode received decodes, if_neg (not_not.mpr type),
    if_pos (by simpa [← authenticate_iff] using unknown), EStateM.run_bind,
    sendMsg_run encodes]
  obtain ⟨-, out⟩ := send_ok sends
  rw [show (send ([Wire.pipe].intercalate
    [Wire.messageTypeToStr .error, ascii "Bad Login"])).run { client with infd := rest } = _
      from sends]
  exact ⟨_, rfl, out⟩

/-! ## Turns of an updater session -/

/-- The outcomes of a turn of `update_chat`: it throws without an effect, or it has
the effect of a turn on a received string and then sends the response, which may
fail. -/
inductive UpdateTurn (server : Server) (client : Client) :
    EStateM.Result Exception (Server × Client) Bool → Prop
  | rejected (exception : Exception) (next : Client)
      (sameMode : next.mode = client.mode)
      (silent : next.out = client.out) :
      UpdateTurn server client (.error exception (server, next))
  | answered (raw : Bytes) (ends : Bool) (session : Updater.Session) (response : Bytes)
      (next : Client)
      (short : raw.length ≤ 9998)
      (turn : Updater.Turn raw server (.ok ends session))
      (isResponse : Response response)
      (sameMode : next.mode = client.mode)
      (writes : next.out = client.out ++ Framing.frame response) :
      UpdateTurn server client (.ok ends (session.server, next))
  | failed (raw : Bytes) (ends : Bool) (session : Updater.Session) (response : Bytes)
      (what : String) (next : Client)
      (short : raw.length ≤ 9998)
      (turn : Updater.Turn raw server (.ok ends session))
      (isResponse : Response response)
      (sameMode : next.mode = client.mode)
      (writes : next.out <+: client.out ++ Framing.frame response) :
      UpdateTurn server client (.error (.ioException what) (session.server, next))

/-- Sending one string. -/
theorem forM_send_singleton
    (s : Bytes)
    (client : Client) :
    (([s] : List Bytes).forM send).run client = (send s).run client := by
  rw [List.forM_eq_forM, List.forM_cons, List.forM_nil, EStateM.run_bind]
  cases (send s).run client <;> rfl

theorem updateChat_run
    (server : Server)
    (client : Client) :
    UpdateTurn server client (updateChat.run (server, client)) := by
  rw [EStateM.run, updateChat]
  cases received : receive.run client with
  | error exception next =>
      obtain ⟨⟨rest, rfl⟩, -⟩ := receive_error received
      exact .rejected exception _ rfl rfl
  | ok raw next =>
      obtain ⟨rest, rfl, first⟩ := receive_ok received
      obtain ⟨short, -⟩ := Framing.framed_of_receive first
      have turn := Updater.turn_updateChat raw server
      cases result : (Updater.updateChat raw).run ⟨server, []⟩ with
      | error exception session =>
          rw [result] at turn
          obtain ⟨-, rfl⟩ := turn.throws
          simp only [result]
          exact .rejected exception _ rfl rfl
      | ok ends session =>
          rw [result] at turn
          obtain ⟨req, response, only, -⟩ := turn.answers
          have isResponse := Response.of_turn turn only
          simp only [result, only, forM_send_singleton]
          cases ran : (send response).run { client with infd := rest } with
          | ok value next =>
              obtain ⟨mode, out⟩ := send_ok ran
              exact .answered raw ends session response next short turn isResponse mode out
          | error exception next =>
              obtain ⟨⟨what, rfl⟩, mode, out⟩ := send_error ran
              exact .failed raw ends session response what next short turn isResponse mode
                out

theorem UpdateTurn.of_run
    {server : Server}
    {client : Client}
    {result : EStateM.Result Exception (Server × Client) Bool}
    (ran : updateChat.run (server, client) = result) :
    UpdateTurn server client result :=
  ran ▸ updateChat_run server client

/-- A turn on a received string that is answered, while the peer accepts
everything. -/
theorem updateChat_of_unlimited
    {server final : Server}
    {client : Client}
    {rest : Framing.Input}
    {raw response : Bytes}
    {ends : Bool}
    (returned : Framing.receive.run ⟨client.infd, []⟩ = .ok () ⟨rest, raw⟩)
    (ran : (Updater.updateChat raw).run ⟨server, []⟩ = .ok ends ⟨final, [response]⟩)
    (unlimited : client.room = none) :
    ∃ next, updateChat.run (server, client) = .ok ends (final, next) := by
  have received : receive.run client = .ok raw { client with infd := rest } := by
    rw [EStateM.run, receive, returned]
  rw [EStateM.run, updateChat]
  simp only [received, ran, forM_send_singleton]
  rw [@send_unlimited { client with infd := rest } unlimited response]
  exact ⟨_, rfl⟩

end Client
end OrderTracking
