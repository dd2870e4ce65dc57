import OrderTracking.Client.Gate
import OrderTracking.Display.Accepted
import OrderTracking.Server.Emission
import OrderTracking.Wire.Splice

/-!
# What the clients are sent can be decoded

All requests enter through `IO::receive`, `Wire::decode` and `update_chat`, so the
orders that are created satisfy what the decoder checks. Whatever is then sent to a
client, in any session, is encoded and decoded without an exception.
-/

namespace OrderTracking

/-! ## Turns -/

theorem Wire.wellFormed_of_decode
    {raw : Bytes}
    {before req : Message}
    (decodes : (Wire.decode raw).run before = .ok () req) :
    Wire.WellFormed req := by
  obtain ⟨sentence, -, rfl⟩ := Wire.decode_eq_ok decodes
  exact Wire.wellFormed_meaning sentence

/-- An accepted order satisfies what the decoder checks, and is countable since it
fits into a frame. -/
theorem Updater.wellFormed_of_created
    {raw : Bytes}
    {req : Message}
    {order : Order}
    (short : raw.length ≤ 9998)
    (decodes : (Wire.decode raw).run .empty = .ok () req)
    (type : req.type = .orderNew)
    (given : req.order = some order)
    (one : order.id = 1) :
    Wire.WellFormedOrder order ∧ order.items.length < 2 ^ 31 := by
  constructor
  · have wellFormed := Wire.wellFormed_of_decode decodes
    unfold Wire.WellFormed at wellFormed
    rw [type] at wellFormed
    obtain ⟨other, otherGiven, checked⟩ := wellFormed
    rw [given, Option.some.injEq] at otherGiven
    rwa [otherGiven]
  · have accepted : Updater.request raw = some (.createOrder order) := by
      rw [Updater.request, decodes]
      simp [Updater.operation, type, given, one]
    have few := (Display.items_of_request accepted).2
    omega

/-- A turn keeps what the server emits decodable. -/
theorem Updater.Turn.emitting
    {raw : Bytes}
    {server : Server}
    {ends : Bool}
    {session : Updater.Session}
    (turn : Updater.Turn raw server (.ok ends session))
    (short : raw.length ≤ 9998)
    (emitting : server.Emitting)
    (room : session.server.ordersCreated < 2 ^ 31 - 1000) :
    session.server.Emitting := by
  cases turn with
  | quit => exact emitting
  | refused => exact emitting
  | created req order decodes type given one =>
      obtain ⟨wellFormed, countable⟩ :=
        Updater.wellFormed_of_created short decodes type given one
      rw [Server.ordersCreated_created] at room
      exact emitting.created wellFormed countable room
  | itemUpdated req order item decodes type stored found allowed =>
      exact emitting.itemUpdated stored found allowed
  | delivered req order decodes type stored => exact emitting.delivered stored

theorem Updater.Turn.ordersCreated_le
    {raw : Bytes}
    {server : Server}
    {ends : Bool}
    {session : Updater.Session}
    (turn : Updater.Turn raw server (.ok ends session)) :
    server.ordersCreated ≤ session.server.ordersCreated := by
  cases turn with
  | quit => exact le_refl _
  | refused => exact le_refl _
  | created req order => exact (Server.ordersCreated_created order server) ▸ Nat.le_succ _
  | itemUpdated req order item => exact (Server.ordersCreated_itemUpdated ..).ge
  | delivered req order => exact (Server.ordersCreated_delivered ..).ge

/-- The string is the encoding of an `OK` or `ERROR` message that can be decoded. -/
def Updater.DecodableResponse (response : Bytes) : Prop :=
  ∃ type str, (type = .ok ∨ type = .error) ∧
    (Wire.encode (.ofStr type str)).run [] = .ok () response ∧
      Decodable (.ofStr type str)

theorem Updater.decodableResponse_textOf
    {type : MessageType}
    (kind : type = .ok ∨ type = .error)
    {str : Bytes}
    (plain : Wire.Lacks [Wire.pipe] str) :
    Updater.DecodableResponse (Updater.textOf type str) :=
  ⟨type, str, kind, Wire.encode_text (Or.inr kind) str [], decodable_text (Or.inr kind) plain⟩

/-- No response of a turn has a separator in its text. -/
theorem Updater.Turn.decodable
    {raw : Bytes}
    {server : Server}
    {ends : Bool}
    {session : Updater.Session}
    (turn : Updater.Turn raw server (.ok ends session)) :
    ∀ response ∈ session.sent, Updater.DecodableResponse response := by
  have refusalsPlain : ∀ what ∈ Updater.refusals,
      Wire.Lacks [Wire.pipe] (ascii what) := by
    decide +kernel
  intro response member
  cases turn with
  | quit =>
      rw [List.mem_singleton.mp member]
      exact Updater.decodableResponse_textOf (Or.inl rfl) (by decide)
  | refused req what decodes calls known =>
      rw [List.mem_singleton.mp member]
      exact Updater.decodableResponse_textOf (Or.inr rfl) (refusalsPlain what known)
  | created req order =>
      rw [List.mem_singleton.mp member]
      refine Updater.decodableResponse_textOf (Or.inl rfl) (Wire.Lacks.append (by decide) ?_)
      exact (Wire.lacks_toString server.nextOrderId).mono (by decide)
  | itemUpdated req order item =>
      rw [List.mem_singleton.mp member]
      exact Updater.decodableResponse_textOf (Or.inl rfl) (by decide)
  | delivered req order =>
      rw [List.mem_singleton.mp member]
      exact Updater.decodableResponse_textOf (Or.inl rfl) (by decide)

/-! ## Sessions -/

namespace Session

/-- What a session is about to send can be decoded, and a display has ended with
nothing but an `IOException`. -/
def Emitting (session : Session) : Prop :=
  match session.phase with
  | .accepted | .login => session.client.mode = .invalid
  | .updater => session.client.mode = .updater
  | .registering | .copying => True
  | .sending unsent => ∀ msg ∈ unsent, Decodable msg
  | .closing how | .unregistered how =>
      ∀ exception, how = .thrown exception → session.client.mode = .display →
        ∃ what, exception = .ioException what

/-- The number of created orders never falls. -/
theorem Step.ordersCreated_le
    {self : ClientPtr}
    {server final : Server}
    {session next : Session}
    (step : Step self server session final next) :
    server.ordersCreated ≤ final.ordersCreated := by
  rcases step.changes with ⟨-, raw, ends, turned, -, turn, rfl⟩ | ⟨-, -, broadcasts, -⟩
  · exact turn.ordersCreated_le
  · rw [Server.ordersCreated, Server.ordersCreated, broadcasts]

theorem Step.server_emitting
    {self : ClientPtr}
    {server final : Server}
    {session next : Session}
    (step : Step self server session final next)
    (emitting : server.Emitting)
    (room : final.ordersCreated < 2 ^ 31 - 1000) :
    final.Emitting := by
  rcases step.changes with ⟨-, raw, ends, turned, short, turn, rfl⟩ |
    ⟨orders, nextId, broadcasts, queues⟩
  · exact turn.emitting short emitting room
  · exact emitting.of_suffix orders nextId broadcasts queues

theorem Step.emitting
    {self : ClientPtr}
    {server final : Server}
    {session next : Session}
    (step : Step self server session final next)
    (serverEmitting : server.Emitting)
    (emitting : session.Emitting) :
    next.Emitting := by
  cases step with
  | spawn => exact emitting
  | spawnFailed => exact fun exception thrown => by cases thrown
  | login client next origin serial _ ran =>
      have login := Client.Login.of_run ran
      cases login with
      | granted _ text grants proper =>
          by_cases updater : next.mode = .updater
          · rw [if_pos updater]
            exact updater
          · rw [if_neg updater]
            trivial
  | loginFailed exception client next origin serial _ ran =>
      have modeless : client.mode = .invalid := emitting
      intro other thrown display
      cases thrown
      exact ((Client.Login.of_run ran).display_error modeless display).2
  | turn ends client next origin serial _ _ ran =>
      have turn := Client.UpdateTurn.of_run ran
      cases ends with
      | false => exact turn.myClients_ok.2.trans emitting
      | true => exact fun exception thrown => by cases thrown
  | turnFailed exception client next origin serial _ _ ran =>
      have turn := Client.UpdateTurn.of_run ran
      have updater : next.mode = .updater := turn.myClients_error.2.trans emitting
      intro other thrown display
      rw [updater] at display
      cases display
  | register => trivial
  | snapshot orders client origin serial _ copied => exact serverEmitting.snapshot copied
  | send msg unsent client next origin serial _ ran =>
      exact fun other member => emitting other (List.mem_cons_of_mem msg member)
  | sendFailed exception msg unsent client next origin serial _ ran =>
      intro other thrown _
      cases thrown
      rcases (Client.sendMsg_error ran).2 with ⟨out, fails⟩ | failure
      · obtain ⟨s, encodes, -⟩ := emitting msg List.mem_cons_self [] .empty
        rw [encodes] at fails
        cases fails
      · exact failure
  | dequeue msg client origin serial _ _ ran =>
      intro other member
      rw [List.mem_singleton.mp member]
      apply serverEmitting.queues self
      rw [(Display.dequeue_run ran).1]
      exact List.mem_cons_self
  | timeout =>
      intro other member
      rw [List.mem_singleton.mp member]
      exact decodable_heartbeat
  | unregister => exact emitting

end Session

/-! ## Runs -/

namespace System

/-- Unless ids run out, the server and all sessions emit what can be decoded. -/
def Emitting (system : System) : Prop :=
  system.server.ordersCreated < 2 ^ 31 - 1000 →
    system.server.Emitting ∧
      ∀ self session, system.clients self = some session → session.Emitting

theorem Step.ordersCreated_le
    {self : ClientPtr}
    {system final : System}
    (step : Step self system final) :
    system.server.ordersCreated ≤ final.server.ordersCreated := by
  cases step with
  | accept => exact le_refl _
  | run session next _ _ live step => exact step.ordersCreated_le
  | free => exact le_refl _

theorem Emitting.step
    {self : ClientPtr}
    {system final : System}
    (emitting : Emitting system)
    (step : Step self system final) :
    Emitting final := by
  intro room
  obtain ⟨server, sessions⟩ := emitting (lt_of_le_of_lt step.ordersCreated_le room)
  constructor
  · cases step with
    | accept infd limit _ free =>
        refine server.of_suffix rfl rfl rfl ?_
        intro client
        by_cases own : client = self
        · subst own
          simp [System.accept]
        · simp [System.accept, own]
    | run session next _ _ live step => exact step.server_emitting server room
    | free => exact server
  · refine step.forall_session ?_ ?_ sessions
    · exact fun infd limit => rfl
    · exact fun session next before step => step.emitting server before

theorem Emitting.of_reachable
    {system : System}
    (reachable : Reachable .initial system) :
    Emitting system := by
  apply holds_run Emitting.step reachable
  intro _
  exact ⟨Server.emitting_initial, fun self session live => by cases live⟩

/-- While ids last, in every reachable state: every message that was broadcast, is
queued, would be copied for a snapshot or is about to be sent can be decoded, so can
the heartbeat, the messages of `login` and every response of a turn, a turn throws
only on a string it rejects, and a display has ended with nothing but an
`IOException`. -/
theorem emitted_decodable
    {system : System}
    (reachable : Reachable .initial system)
    (few : system.server.ordersCreated < 2 ^ 31 - 1000) :
    (∀ msg ∈ system.server.broadcasts, Decodable msg) ∧
    (∀ self, ∀ msg ∈ system.server.queues self, Decodable msg) ∧
    (∀ orders, Server.IsSnapshot orders system.server →
      ∀ msg ∈ Display.snapshotMessages orders, Decodable msg) ∧
    (∀ self session unsent, system.clients self = some session →
      session.phase = .sending unsent → ∀ msg ∈ unsent, Decodable msg) ∧
    Decodable (.ofType .dispHeartbeat) ∧
    (∀ raw, match (Updater.updateChat raw).run ⟨system.server, []⟩ with
      | .ok _ session => ∀ response ∈ session.sent, Updater.DecodableResponse response
      | .error _ session => session.sent = [] ∧ Updater.Rejects raw) ∧
    (∀ str ∈ ["Bad Login", "invalid client mode"],
      Decodable (.ofStr .error (ascii str))) ∧
    Decodable (.ofStr .ok (ascii "successful login")) ∧
    ∀ self session exception, system.clients self = some session →
      session.ended = some (.thrown exception) → session.client.mode = .display →
        ∃ what, exception = .ioException what := by
  obtain ⟨server, sessions⟩ := Emitting.of_reachable reachable few
  refine ⟨server.broadcasts, server.queues, fun orders copied => server.snapshot copied,
    ?_, decodable_heartbeat, ?_, ?_, decodable_text (by decide) (by decide), ?_⟩
  · intro self session unsent live phase
    have emitting := sessions self session live
    unfold Session.Emitting at emitting
    rwa [phase] at emitting
  · intro raw
    have turn := Updater.turn_updateChat raw system.server
    cases result : (Updater.updateChat raw).run ⟨system.server, []⟩ with
    | ok ends session =>
        rw [result] at turn
        exact turn.decodable
    | error exception session =>
        rw [result] at turn
        obtain ⟨rejects, rfl⟩ := turn.throws
        exact ⟨rfl, rejects⟩
  · intro str member
    have plain : ∀ str ∈ ["Bad Login", "invalid client mode"],
        Wire.Lacks [Wire.pipe] (ascii str) := by
      decide
    exact decodable_text (by decide) (plain str member)
  · intro self session exception live thrown display
    have emitting := sessions self session live
    unfold Session.Emitting at emitting
    unfold Session.ended at thrown
    cases phase : session.phase with
    | closing how =>
        rw [phase] at emitting thrown
        exact emitting exception (Option.some.inj thrown) display
    | unregistered how =>
        rw [phase] at emitting thrown
        exact emitting exception (Option.some.inj thrown) display
    | _ =>
        rw [phase] at thrown
        cases thrown

/-- An updater has logged in and ordered a tea. -/
theorem exists_reachable_tea :
    ∃ system, Reachable .initial system ∧ system.server.ordersCreated = 1 := by
  let login := aliceLogin .updater (by decide)
  let order := Updater.orderTea .new (by decide)
  let infd : Framing.Input :=
    [.chunk (Framing.frame login.print ++ Framing.frame order.print) (by simp [Framing.frame])]
  obtain ⟨rest, loginReturned, left⟩ := @Framing.receive_frame login.print
    (Framing.frame order.print) (by decide) ⟨infd, []⟩ (List.append_nil _)
  obtain ⟨last, orderReturned, -⟩ := @Framing.receive_frame order.print [] (by decide)
    ⟨rest, []⟩ (by rw [left, List.append_nil])
  obtain ⟨system, session, reachable, broadcasts, live, restLeft, unlimited, phase⟩ :=
    (show Reachable .initial (start .initial) from .refl).login
      (show (start .initial).clients 3 = none from rfl) loginReturned
      (Wire.decode_print ..) rfl (Or.inl rfl) (by decide)
  obtain ⟨client, sessionPhase, origin, serial⟩ := session
  obtain rfl : sessionPhase = .updater := phase
  obtain ⟨next, ran⟩ := Client.updateChat_of_unlimited
    (show Framing.receive.run ⟨client.infd, []⟩ = _ from restLeft ▸ orderReturned)
    (Updater.updateChat_run_created (Wire.decode_print order .empty) rfl rfl rfl
      system.server) unlimited
  have ordered := reachable.tail ⟨3, .run _ _ _ _ live (.turn _ _ _ _ _ _ _ ran)⟩
  refine ⟨_, ordered, ?_⟩
  rw [Server.ordersCreated_created, Server.ordersCreated, broadcasts]
  rfl

/-- The broadcast of the tea can be decoded. -/
theorem emitted_decodable_tea :
    ∃ system, Reachable .initial system ∧ system.server.ordersCreated = 1 ∧
      ∀ msg ∈ system.server.broadcasts, Decodable msg := by
  obtain ⟨system, reachable, one⟩ := exists_reachable_tea
  have few : system.server.ordersCreated < 2 ^ 31 - 1000 := by
    rw [one]
    norm_num
  exact ⟨system, reachable, one, (emitted_decodable reachable few).1⟩

end System
end OrderTracking
