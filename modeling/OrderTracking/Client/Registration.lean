import OrderTracking.Client.Spec
import OrderTracking.Client.System
import OrderTracking.Display.Session

/-!
# Registered clients

However the threads interleave and wherever exceptions are thrown, the server only
ever broadcasts to displays whose destructor has not unregistered them yet.
-/

namespace OrderTracking

/-! ## Turns and registrations -/

/-- A turn registers and unregisters nobody. -/
theorem Updater.Turn.myClients
    {raw : Bytes}
    {server : Server}
    {ends : Bool}
    {session : Updater.Session}
    (turn : Updater.Turn raw server (.ok ends session)) :
    session.server.myClients = server.myClients := by
  cases turn with
  | quit => rfl
  | refused => rfl
  | created req order => exact Server.created_myClients order server
  | itemUpdated req order item => exact Server.itemUpdated_myClients ..
  | delivered req order => exact Server.delivered_myClients ..

theorem Client.UpdateTurn.myClients_ok
    {server final : Server}
    {client next : Client}
    {ends : Bool}
    (turn : Client.UpdateTurn server client (.ok ends (final, next))) :
    final.myClients = server.myClients ∧ next.mode = client.mode := by
  cases turn with
  | answered raw _ session response _ short turn isResponse sameMode =>
      exact ⟨turn.myClients, sameMode⟩

theorem Client.UpdateTurn.myClients_error
    {server final : Server}
    {client next : Client}
    {exception : Exception}
    (turn : Client.UpdateTurn server client (.error exception (final, next))) :
    final.myClients = server.myClients ∧ next.mode = client.mode := by
  cases turn with
  | rejected _ _ sameMode => exact ⟨rfl, sameMode⟩
  | failed raw ends session response what _ short turn isResponse sameMode =>
      exact ⟨turn.myClients, sameMode⟩

/-! ## The invariant -/

namespace Session

/-- A session fits to whether its client is registered. -/
def Fits (registered : Prop) (session : Session) : Prop :=
  match session.phase with
  | .accepted | .login => ¬ registered
  | .updater => ¬ registered ∧ session.client.mode = .updater
  | .registering => ¬ registered ∧ session.client.mode = .display
  | .copying | .sending _ => session.client.mode = .display
  | .closing _ => registered → session.client.mode = .display
  | .unregistered _ => ¬ registered

/-- A step registers and unregisters no other client. -/
theorem Step.other
    {self other : ClientPtr}
    {server final : Server}
    {session next : Session}
    (step : Step self server session final next)
    (different : other ≠ self) :
    other ∈ final.myClients ↔ other ∈ server.myClients := by
  cases step with
  | turn ends client next origin serial _ _ ran =>
      have turn := Client.UpdateTurn.of_run ran
      rw [turn.myClients_ok.1]
  | turnFailed exception client next origin serial _ _ ran =>
      have turn := Client.UpdateTurn.of_run ran
      rw [turn.myClients_error.1]
  | register client origin serial _ _ ran =>
      cases ran
      simp [different]
  | dequeue msg client origin serial _ _ ran =>
      rw [(Display.dequeue_run ran).2.2]
  | unregister how client origin serial _ _ ran =>
      unfold Client.unregister at ran
      split at ran
      · cases ran
        simp [different]
      · cases ran
        rfl
  | _ => exact Iff.rfl

/-- A step keeps its session fitting. -/
theorem Step.fits
    {self : ClientPtr}
    {server final : Server}
    {session next : Session}
    (step : Step self server session final next)
    (fits : session.Fits (self ∈ server.myClients)) :
    next.Fits (self ∈ final.myClients) := by
  cases step with
  | spawn => exact fits
  | spawnFailed => exact fun registered => absurd registered fits
  | login client next origin serial _ ran =>
      have login := Client.Login.of_run ran
      cases login with
      | granted _ text grants proper =>
          by_cases updater : next.mode = .updater
          · rw [if_pos updater]
            exact ⟨fits, updater⟩
          · rw [if_neg updater]
            exact ⟨fits, proper.resolve_left updater⟩
  | loginFailed => exact fun registered => absurd registered fits
  | turn ends client next origin serial _ _ ran =>
      have turn := Client.UpdateTurn.of_run ran
      obtain ⟨clients, mode⟩ := turn.myClients_ok
      rw [clients]
      cases ends with
      | false => exact ⟨fits.1, mode.trans fits.2⟩
      | true => exact fun registered => absurd registered fits.1
  | turnFailed exception client next origin serial _ _ ran =>
      have turn := Client.UpdateTurn.of_run ran
      rw [turn.myClients_error.1]
      exact fun registered => absurd registered fits.1
  | register => exact fits.2
  | snapshot => exact fits
  | send msg unsent client next origin serial _ ran =>
      exact (Client.sendMsg_ok ran).1.trans fits
  | sendFailed exception msg unsent client next origin serial _ ran =>
      exact fun _ => (Client.sendMsg_error ran).1.trans fits
  | dequeue => exact fits
  | timeout => exact fits
  | unregister how client origin serial _ _ ran =>
      unfold Client.unregister at ran
      split at ran
      · cases ran
        exact Finset.notMem_erase self _
      · cases ran
        exact fun registered => absurd (fits registered) ‹_›

/-- A session without a next step has been destroyed, up to its memory. -/
theorem Step.not_unregistered
    {self : ClientPtr}
    {server final : Server}
    {session next : Session}
    (step : Step self server session final next)
    (how : End) :
    session.phase ≠ .unregistered how := by
  cases step <;> simp

theorem Step.serial
    {self : ClientPtr}
    {server final : Server}
    {session next : Session}
    (step : Step self server session final next) :
    next.serial = session.serial := by
  cases step <;> rfl

/-- A session whose client may be registered. -/
theorem Fits.alive
    {session : Session}
    {registered : Prop}
    (fits : session.Fits registered)
    (isRegistered : registered) :
    session.client.mode = .display ∧ ∀ how, session.phase ≠ .unregistered how := by
  unfold Fits at fits
  cases phase : session.phase with
  | accepted => simp_all
  | login => simp_all
  | updater => simp_all
  | registering => simp_all
  | copying => simp_all
  | sending unsent => simp_all
  | closing how => simp_all
  | unregistered how => simp_all

end Session

namespace System

/-- Nobody is registered at a free address, and every session fits. -/
def Invariant (system : System) : Prop :=
  ∀ self, match system.clients self with
    | none => self ∉ system.server.myClients
    | some session => session.Fits (self ∈ system.server.myClients)

theorem invariant_start (server : Server) : Invariant (start server) := by
  intro self
  exact Finset.notMem_empty self

theorem Invariant.step
    {self : ClientPtr}
    {system final : System}
    (invariant : Invariant system)
    (step : Step self system final) :
    Invariant final := by
  intro other
  have before := invariant other
  cases step with
  | accept infd room _ free =>
      by_cases own : other = self
      · subst own
        rw [free] at before
        simpa [accept, Session.Fits] using before
      · simpa [accept, own] using before
  | run session next server _ live step =>
      by_cases own : other = self
      · subst own
        rw [live] at before
        simpa using step.fits before
      · simpa [own, step.other own] using before
  | free session how _ live destroyed =>
      by_cases own : other = self
      · subst own
        rw [live] at before
        simpa [Session.Fits, destroyed] using before
      · simpa [own] using before

theorem Invariant.of_reachable
    {server : Server}
    {system : System}
    (reachable : Reachable server system) :
    Invariant system :=
  holds_run Invariant.step reachable (invariant_start server)

/-- The client with this serial number was created, and its destructor has run at
least as far as to unregister it. -/
def Destroyed (serial : Nat) (system : System) : Prop :=
  serial < system.created ∧ ∀ self session, system.clients self = some session →
    session.serial = serial → ∃ how, session.phase = .unregistered how

/-- What is destroyed stays destroyed. -/
theorem Destroyed.step
    {serial : Nat}
    {self : ClientPtr}
    {system final : System}
    (destroyed : Destroyed serial system)
    (step : Step self system final) :
    Destroyed serial final := by
  obtain ⟨created, gone⟩ := destroyed
  constructor
  · cases step with
    | accept => exact Nat.lt_succ_of_lt created
    | run => exact created
    | free => exact created
  · refine step.forall_session ?_ ?_ gone
    · intro infd room isSerial
      exact absurd isSerial.symm created.ne
    · intro session next wasGone step isSerial
      obtain ⟨how, phase⟩ := wasGone (step.serial.symm.trans isSerial)
      exact absurd phase (step.not_unregistered how)

theorem Destroyed.run
    {serial : Nat}
    {system final : System}
    (destroyed : Destroyed serial system)
    (steps : Relation.ReflTransGen Next system final) :
    Destroyed serial final :=
  holds_run Destroyed.step steps destroyed

/-- In every reachable state a registered client is a display that exists and is not
yet unregistered by its destructor. A client that is destroyed is never registered
again. -/
theorem registered_alive
    {server : Server}
    {system : System}
    (reachable : Reachable server system) :
    (∀ self ∈ system.server.myClients, ∃ session,
      system.clients self = some session ∧ session.client.mode = .display ∧
        ∀ how, session.phase ≠ .unregistered how) ∧
    (∀ msg self,
      (system.server.broadcast msg).queues self ≠ system.server.queues self →
        ∃ session, system.clients self = some session ∧
          ∀ how, session.phase ≠ .unregistered how) ∧
    (∀ self session, system.clients self = some session →
      session.client.mode = .updater → self ∉ system.server.myClients) ∧
    ∀ serial, Destroyed serial system →
      ∀ final, Relation.ReflTransGen Next system final →
        ∀ self ∈ final.server.myClients, ∀ session,
          final.clients self = some session → session.serial ≠ serial := by
  have alive : ∀ {system : System}, Reachable server system →
      ∀ self ∈ system.server.myClients, ∃ session,
        system.clients self = some session ∧ session.client.mode = .display ∧
          ∀ how, session.phase ≠ .unregistered how := by
    intro system reachable self registered
    have fits := Invariant.of_reachable reachable self
    cases live : system.clients self with
    | none =>
        rw [live] at fits
        exact absurd registered fits
    | some session =>
        rw [live] at fits
        exact ⟨session, rfl, fits.alive registered⟩
  refine ⟨alive reachable, ?_, ?_, ?_⟩
  · intro msg self changed
    have registered : self ∈ system.server.myClients := by
      by_contra absent
      exact changed (if_neg absent)
    obtain ⟨session, live, -, phase⟩ := alive reachable self registered
    exact ⟨session, live, phase⟩
  · intro self session live updater registered
    obtain ⟨other, otherLive, display, -⟩ := alive reachable self registered
    rw [live, Option.some.injEq] at otherLive
    rw [← otherLive, updater] at display
    cases display
  · intro serial destroyed final steps self registered session live isSerial
    obtain ⟨how, phase⟩ := (destroyed.run steps).2 self session live isSerial
    obtain ⟨other, otherLive, -, notYet⟩ := alive (reachable.trans steps) self registered
    rw [live, Option.some.injEq] at otherLive
    exact notYet how (otherLive ▸ phase)

/-- A client that sends a proper `LOGIN` and accepts everything can log in. -/
theorem Reachable.login
    {server : Server}
    {system : System}
    (reachable : Reachable server system)
    {self : ClientPtr}
    (free : system.clients self = none)
    {infd rest : Framing.Input}
    {raw : Bytes}
    {req : Message}
    (returned : Framing.receive.run ⟨infd, []⟩ = .ok () ⟨rest, raw⟩)
    (decodes : (Wire.decode raw).run .empty = .ok () req)
    (type : req.type = .login)
    (proper : req.clientMode = .updater ∨ req.clientMode = .display)
    (known : req.str ∈ PasswordDB.credentials) :
    ∃ final session, Reachable server final ∧
      final.server.broadcasts = system.server.broadcasts ∧
      final.clients self = some session ∧ session.client.infd = rest ∧
      session.client.room = none ∧
      session.phase = if req.clientMode = .updater then .updater else .registering := by
  obtain ⟨next, ran, mode, infdLeft, unlimited⟩ := Client.login_of_unlimited
    (show Framing.receive.run ⟨(Client.accepted infd none).infd, []⟩ = _ from returned)
    decodes type proper known rfl
  have accepted := reachable.tail ⟨self, .accept infd none system free⟩
  have spawned := accepted.tail ⟨self, .run _ _ _ _ (Function.update_self ..)
    (.spawn _ _ _ _)⟩
  have loggedIn := spawned.tail ⟨self, .run _ _ _ _ (Function.update_self ..)
    (.login _ next _ _ _ ran)⟩
  refine ⟨_, _, loggedIn, rfl, Function.update_self .., infdLeft, unlimited, ?_⟩
  rw [mode]

/-- Alice logs in. -/
def aliceLogin (mode : ClientMode) (valid : mode ≠ .invalid) : Wire.Sentence :=
  .login mode valid (ascii "alice/foobar") (by decide)

theorem exists_reachable_alice :
    ∃ system, Reachable .initial system ∧ 7 ∈ system.server.myClients := by
  obtain ⟨rest, returned, -⟩ := @Framing.receive_frame
    (aliceLogin .display (by decide)).print [] (by decide)
    ⟨[.chunk (Framing.frame (aliceLogin .display (by decide)).print)
      (by simp [Framing.frame])], []⟩ rfl
  obtain ⟨system, session, reachable, -, live, -, -, phase⟩ :=
    (show Reachable .initial (start .initial) from .refl).login
      (show (start .initial).clients 7 = none from rfl) returned (Wire.decode_print ..) rfl
      (Or.inr rfl) (by decide)
  obtain ⟨client, sessionPhase, origin, serial⟩ := session
  obtain rfl : sessionPhase = .registering := phase
  have registered := reachable.tail ⟨7, .run _ _ _ _ live (.register _ _ _ _ _ rfl)⟩
  exact ⟨_, registered, Finset.mem_insert_self 7 _⟩

/-- A display that has registered is alive. -/
theorem registered_alive_alice :
    ∃ system, Reachable .initial system ∧ ∃ session,
      system.clients 7 = some session ∧ session.client.mode = .display ∧
        ∀ how, session.phase ≠ .unregistered how := by
  obtain ⟨system, reachable, registered⟩ := exists_reachable_alice
  exact ⟨system, reachable, (registered_alive reachable).1 7 registered⟩

end System
end OrderTracking
