import OrderTracking.Client.Runs
import OrderTracking.Conversation.Progress
import OrderTracking.Server.Fitting

/-!
# Displays among the threads

The session of a display on its own, with calls of the server in between, is a model of
what becomes of each display among the threads of the server: clients come and go at any
address, log in, and are served side by side. What a display was sent, is about to be
sent and has in its queue shows exactly the stored orders, at any time and for each of
them.
-/

namespace OrderTracking

open Conversation (Sends)

/-! ## Steps of the other threads -/

namespace Session

/-- A step of another thread is a call, or does not concern the display. -/
theorem Step.replica_other
    {self other : ClientPtr}
    {server final : Server}
    {session next : Session}
    (step : Step other server session final next)
    (different : other ≠ self)
    {progress : Display.Progress}
    {sent : List Message}
    (invariant : Display.Invariant self ⟨server, progress, sent⟩) :
    Display.Invariant self ⟨final, progress, sent⟩ := by
  have turned : ∀ {raw ends turned}, Updater.Turn raw server (.ok ends turned) →
      Display.Invariant self ⟨turned.server, progress, sent⟩ := by
    intro raw ends turned turn
    rcases turn.performs with same | ⟨operation, performed⟩
    · exact same ▸ invariant
    · exact performed ▸ invariant.call operation
  cases step with
  | turn ends client next origin serial _ _ ran =>
      cases Client.UpdateTurn.of_run ran with
      | answered raw _ session response _ short turn => exact turned turn
  | turnFailed exception client next origin serial _ _ ran =>
      cases Client.UpdateTurn.of_run ran with
      | rejected => exact invariant
      | failed raw ends session response what _ short turn => exact turned turn
  | register client origin serial _ _ ran =>
      exact invariant.elsewhere (.join other _ _ different ran)
  | dequeue msg client origin serial _ _ ran =>
      exact invariant.elsewhere (.dequeue other _ _ _ different ran)
  | unregister how client origin serial _ _ ran =>
      unfold Client.unregister at ran
      split at ran
      · exact invariant.elsewhere (.leave other _ _ different ran)
      · cases ran
        exact invariant
  | _ => exact invariant

/-- The order ids stay those of the keys. -/
theorem Step.identified
    {self : ClientPtr}
    {server final : Server}
    {session next : Session}
    (step : Step self server session final next)
    (identified : Display.Identified server.myOrders) :
    Display.Identified final.myOrders := by
  rcases step.changes with ⟨-, raw, ends, turned, -, turn, rfl⟩ | ⟨orders, -⟩
  · rcases turn.performs with same | ⟨operation, performed⟩
    · exact same ▸ identified
    · obtain ⟨messages, announces⟩ :=
        Display.exists_announces (Server.change_perform server operation)
      rw [performed]
      exact announces.identified identified
  · rwa [orders]

/-! ## The session of a display -/

/-- The strings are the encodings of the messages. -/
abbrev Encodes : List Message → List Bytes → Prop :=
  List.Forall₂ fun msg s => (Wire.encode msg).run [] = .ok () s

/-- What a session has written, and what it is as the session of a display that sends
messages of a kind. Only an updater and a session that is over are none. -/
def Replicates (kind : Message → Prop) (self : ClientPtr) (server : Server)
    (session : Session) : Prop :=
  match session.phase with
  | .accepted | .login =>
      Display.Invariant self ⟨server, .start, []⟩ ∧ session.client.out = []
  | .registering =>
      Display.Invariant self ⟨server, .start, []⟩ ∧
        session.client.out = Framing.frame Programs.welcome
  | .copying =>
      Display.Invariant self ⟨server, .registered, []⟩ ∧
        session.client.out = Framing.frame Programs.welcome
  | .sending unsent => ∃ sent encoded,
      Display.Invariant self ⟨server, .sending unsent, sent⟩ ∧
        (∀ msg ∈ sent, kind msg) ∧ Encodes sent encoded ∧
          session.client.out = (Programs.welcome :: encoded).flatMap Framing.frame
  | _ => True

variable {kind : Message → Prop}

/-- What keeps the invariant of the display and the kind of messages keeps this. -/
theorem Replicates.of_invariant
    {self : ClientPtr}
    {server final : Server}
    {session : Session}
    (replicates : Replicates kind self server session)
    {weaker : Message → Prop}
    (weakens : ∀ msg, kind msg → weaker msg)
    (keeps : ∀ {progress sent}, Display.Invariant self ⟨server, progress, sent⟩ →
      Display.Invariant self ⟨final, progress, sent⟩) :
    Replicates weaker self final session := by
  obtain ⟨client, phase, origin, serial⟩ := session
  cases phase with
  | sending unsent =>
      obtain ⟨sent, encoded, invariant, ofKind, encodes⟩ := replicates
      exact ⟨sent, encoded, keeps invariant, fun msg member => weakens msg (ofKind msg member),
        encodes⟩
  | updater => trivial
  | closing how => trivial
  | unregistered how => trivial
  | _ => exact ⟨keeps replicates.1, replicates.2⟩

/-- A step of the session itself. -/
theorem Step.replicates
    {self : ClientPtr}
    {server final : Server}
    {session next : Session}
    (step : Step self server session final next)
    (replicates : Replicates kind self server session)
    (sends : Sends kind session) :
    Replicates kind self final next := by
  cases step with
  | spawn => exact replicates
  | login client next origin serial _ ran =>
      obtain ⟨invariant, silent⟩ := replicates
      have exchange := Client.login_exchange client
      rw [ran] at exchange
      cases exchange with
      | granted _ raw rest received granted proper left writes =>
          by_cases updater : next.mode = .updater
          · rw [if_pos updater]
            trivial
          · rw [if_neg updater]
            refine ⟨invariant, ?_⟩
            rw [writes, silent, List.nil_append]
  | register client origin serial _ _ ran =>
      exact ⟨replicates.1.step (.register _ _ _ ran), replicates.2⟩
  | snapshot orders client origin serial _ copied =>
      obtain ⟨invariant, welcomed⟩ := replicates
      exact ⟨[], [], invariant.snapshot copied, by simp, .nil, by simpa using welcomed⟩
  | send msg unsent client next origin serial _ ran =>
      obtain ⟨sent, encoded, invariant, ofKind, encodes, writes⟩ := replicates
      obtain ⟨-, s, encodesLast, writesLast⟩ := Client.sendMsg_ok ran
      refine ⟨sent ++ [msg], encoded ++ [s], invariant.step (.send _ _ _ _), ?_,
        List.rel_append encodes (.cons encodesLast .nil), ?_⟩
      · intro other member
        rcases List.mem_append.mp member with earlier | last
        · exact ofKind other earlier
        · exact List.mem_singleton.mp last ▸ sends _ rfl msg List.mem_cons_self
      · rw [writesLast, writes, ← List.cons_append, List.flatMap_append,
          List.flatMap_singleton]
  | dequeue msg client origin serial _ _ ran =>
      obtain ⟨sent, encoded, invariant, encodes⟩ := replicates
      exact ⟨sent, encoded, invariant.step (.dequeue _ _ _ _ ran), encodes⟩
  | timeout =>
      obtain ⟨sent, encoded, invariant, encodes⟩ := replicates
      exact ⟨sent, encoded, invariant.step (.timeout _ _), encodes⟩
  | turn ends => cases ends <;> trivial
  | _ => trivial

/-- What the session is about to send fits into a frame. -/
theorem Step.sends_fits
    {self : ClientPtr}
    {server final : Server}
    {session next : Session}
    (step : Step self server session final next)
    (fitting : server.Fitting)
    (sends : Sends FitsFrame session) :
    Sends FitsFrame next := by
  intro unsent phase msg member
  cases step with
  | login client next =>
      by_cases updater : next.mode = .updater <;> simp [updater] at phase
  | turn ends => cases ends <;> simp at phase
  | snapshot orders client origin serial _ copied =>
      cases phase
      exact fitting.snapshot copied msg member
  | send first rest =>
      cases phase
      exact sends _ rfl msg (List.mem_cons_of_mem _ member)
  | dequeue first client origin serial _ _ ran =>
      cases phase
      rw [List.mem_singleton.mp member]
      apply fitting.queues self
      rw [(Display.dequeue_run ran).1]
      exact List.mem_cons_self
  | timeout =>
      cases phase
      rw [List.mem_singleton.mp member]
      exact fits_heartbeat
  | _ => cases phase

end Session

/-! ## Runs -/

namespace Server

/-- Ids last, and every order that was created fits into a frame, however far the kitchen
gets. -/
structure Bounded (server : Server) : Prop where
  few : server.ordersCreated < 2 ^ 31 - 1000
  fit : server.OrdersFit

theorem Bounded.of_prefix
    {server final : Server}
    (bounded : final.Bounded)
    (broadcasts : server.broadcasts <+: final.broadcasts) :
    server.Bounded where
  few := lt_of_le_of_lt (broadcasts.sublist.countP_le) bounded.few
  fit := fun order member => bounded.fit order (broadcasts.subset member)

/-- While the server is bounded, the message can be received and decoded. -/
def Presents (server : Server) (msg : Message) : Prop :=
  server.Bounded → Decodable msg ∧ FitsFrame msg

end Server

namespace System

theorem Step.broadcasts
    {self : ClientPtr}
    {system final : System}
    (step : Step self system final) :
    system.server.broadcasts <+: final.server.broadcasts := by
  cases step with
  | accept => exact List.prefix_rfl
  | run session next server _ live step =>
      rcases step.changes with ⟨-, raw, ends, turned, -, turn, rfl⟩ | ⟨-, -, same, -⟩
      · exact turn.broadcasts
      · exact same ▸ List.prefix_rfl
  | free => exact List.prefix_rfl

/-- While every order that was created fits into a frame, all messages do. -/
def Fitting (system : System) : Prop :=
  system.server.OrdersFit → system.server.Fitting ∧
    ∀ self session, system.clients self = some session → Sends FitsFrame session

theorem Fitting.step
    {self : ClientPtr}
    {system final : System}
    (fitting : Fitting system)
    (step : Step self system final) :
    Fitting final := by
  intro fit
  obtain ⟨server, sessions⟩ := fitting fun order member =>
    fit order (step.broadcasts.subset member)
  constructor
  · cases step with
    | accept infd room _ free =>
        refine server.of_suffix rfl fun client => ?_
        by_cases own : client = self
        · subst own
          simp [accept]
        · simp [accept, own]
    | run session next _ _ live step =>
        rcases step.changes with ⟨-, raw, ends, turned, short, turn, rfl⟩ |
          ⟨orders, -, -, queues⟩
        · exact turn.fitting short server fit
        · exact server.of_suffix orders queues
    | free => exact server
  · refine step.forall_session ?_ ?_ sessions
    · exact fun infd room unsent phase => by cases phase
    · exact fun session next before step => step.sends_fits server before

theorem Fitting.of_reachable
    {system : System}
    (reachable : Reachable .initial system) :
    Fitting system := by
  refine holds_run Fitting.step reachable fun fit => ⟨⟨?_, ?_⟩, ?_⟩
  · intro orderId order stored
    cases stored
  · intro client msg member
    cases member
  · intro self session live
    cases live

/-- Whatever a session is about to send, the server presents. -/
theorem Reachable.sends
    {system : System}
    (reachable : Reachable .initial system)
    {self : ClientPtr}
    {session : Session}
    (live : system.clients self = some session) :
    Sends system.server.Presents session := by
  intro unsent phase msg member bounded
  have emitting := (Emitting.of_reachable reachable bounded.few).2 self session live
  rw [Session.Emitting, phase] at emitting
  exact ⟨emitting msg member,
    (Fitting.of_reachable reachable bounded.fit).2 self session live unsent phase msg member⟩

/-- Every session of a display replicates the stored orders. -/
structure Replicating (system : System) : Prop where
  identified : Display.Identified system.server.myOrders
  sessions : ∀ self session, system.clients self = some session →
    session.Replicates system.server.Presents self system.server

theorem Replicating.step
    {self : ClientPtr}
    {system final : System}
    (replicating : Replicating system)
    (reachable : Reachable .initial system)
    (step : Step self system final) :
    Replicating final := by
  obtain ⟨identified, sessions⟩ := replicating
  have weakens : ∀ msg, system.server.Presents msg → final.server.Presents msg :=
    fun msg presents bounded => presents (bounded.of_prefix step.broadcasts)
  cases step with
  | accept infd room _ free =>
      have absent := Invariant.of_reachable reachable self
      rw [free] at absent
      refine ⟨identified, fun other session live => ?_⟩
      by_cases own : other = self
      · subst own
        simp only [accept, Function.update_self, Option.some.injEq] at live
        subst live
        exact ⟨.start _ identified absent (Function.update_self ..), rfl⟩
      · simp only [accept, Function.update_of_ne own] at live
        refine (sessions other session live).of_invariant weakens fun invariant => ?_
        exact invariant.of_frame rfl (Function.update_of_ne own _ _) Iff.rfl
  | run session next server _ live step =>
      refine ⟨step.identified identified, fun other session isLive => ?_⟩
      by_cases own : other = self
      · subst own
        simp only [Function.update_self, Option.some.injEq] at isLive
        subst isLive
        exact (step.replicates (sessions other _ live) (reachable.sends live)).of_invariant
          weakens id
      · simp only [Function.update_of_ne own] at isLive
        exact (sessions other session isLive).of_invariant weakens
          (step.replica_other (Ne.symm own))
  | free session how _ live destroyed =>
      refine ⟨identified, fun other session isLive => ?_⟩
      by_cases own : other = self
      · subst own
        simp at isLive
      · simp only [Function.update_of_ne own] at isLive
        exact sessions other session isLive

theorem Replicating.of_reachable
    {system : System}
    (reachable : Reachable .initial system) :
    Replicating system := by
  induction reachable with
  | refl =>
      refine ⟨fun orderId order stored => ?_, fun self session live => ?_⟩
      · cases stored
      · cases live
  | tail steps next inductionHypothesis =>
      obtain ⟨self, step⟩ := next
      exact inductionHypothesis.step steps step

/-- What a display was sent shows, with what it is about to be sent and what it has in its
queue, exactly the stored orders. -/
theorem Replicating.shows
    {system : System}
    (replicating : Replicating system)
    {self : ClientPtr}
    {session : Session}
    (live : system.clients self = some session)
    {unsent : List Message}
    (sending : session.phase = .sending unsent) :
    ∃ sent encoded, (∀ msg ∈ sent, system.server.Presents msg) ∧
      Session.Encodes sent encoded ∧
      session.client.out = (Programs.welcome :: encoded).flatMap Framing.frame ∧
      (∀ msg ∈ sent ++ unsent ++ system.server.queues self, Display.Shown msg) ∧
      replay Display.apply ∅ (sent ++ unsent ++ system.server.queues self) =
        system.server.myOrders := by
  have replicates := replicating.sessions self session live
  rw [Session.Replicates, sending] at replicates
  obtain ⟨sent, encoded, invariant, ofKind, encodes, writes⟩ := replicates
  cases invariant with
  | sending _ _ _ identified present shown upToDate =>
      exact ⟨sent, encoded, ofKind, encodes, writes, shown, upToDate⟩

/-- However the threads interleave, and whatever their peers send: what a display was sent
is the response to its login followed by encodings of messages. Receiving these messages,
those about to be sent and those queued for it gives exactly the stored orders. While ids
last and every order fits into a frame, the messages it was sent can be received and
decoded. -/
theorem displays_converge
    {system : System}
    (reachable : Reachable .initial system)
    {self : ClientPtr}
    {session : Session}
    (live : system.clients self = some session)
    {unsent : List Message}
    (sending : session.phase = .sending unsent) :
    ∃ sent encoded, Session.Encodes sent encoded ∧
      session.client.out = (Programs.welcome :: encoded).flatMap Framing.frame ∧
      (Display.receive (sent ++ unsent ++ system.server.queues self)).run ∅ =
        .ok () system.server.myOrders ∧
      ∀ msg ∈ sent, system.server.Presents msg := by
  obtain ⟨sent, encoded, presents, encodes, writes, shown, upToDate⟩ :=
    (Replicating.of_reachable reachable).shows live sending
  refine ⟨sent, encoded, encodes, writes, ?_, presents⟩
  rw [Display.receive_run shown, upToDate]

theorem displays_converge_tea :
    ∃ (system : System) (session : Session), system.clients 7 = some session ∧
      session.phase = .sending [.ofItemStatus .dispItemUpdate 1000 1 .inProgress] ∧
      system.server.queues 7 = [.ofOrderStatus .dispOrderUpdate 1000 .inProgress] ∧
      system.server.myOrders.lookup 1000 = some begunTea ∧
      ∃ sent encoded, Session.Encodes sent encoded ∧
        session.client.out = (Programs.welcome :: encoded).flatMap Framing.frame ∧
        (Display.receive (sent ++ [.ofItemStatus .dispItemUpdate 1000 1 .inProgress] ++
            system.server.queues 7)).run ∅ = .ok () system.server.myOrders ∧
        ∀ msg ∈ sent, system.server.Presents msg := by
  obtain ⟨system, session, reachable, live, sending, queued, stored⟩ := exists_behind
  exact ⟨system, session, live, sending, queued, stored,
    displays_converge reachable live sending⟩

end System
end OrderTracking
