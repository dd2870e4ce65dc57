import OrderTracking.Client.Runs

/-!
# The authentication gate

What a session may do depends on the first frame its peer sends. Without a proper
`LOGIN` it changes nothing, and what the peer sees is a function of what the peer
itself sent and accepted: it does not depend on the server or on other sessions.
-/

namespace OrderTracking

namespace Session

/-! ## The invariant -/

/-- How a session ended, if it did. -/
def ended (session : Session) : Option End :=
  match session.phase with
  | .closing how | .unregistered how => some how
  | _ => none

/-- How a session can end, for the client it began and the client it ended with. -/
inductive Closed (origin client : Client) : End → Prop
  | notStarted (same : client = origin) : Closed origin client .notStarted
  | login (exception : Exception)
      (ran : Client.login.run origin = .error exception client) :
      Closed origin client (.thrown exception)
  | updater (how : End)
      (grants : Client.Grants .updater origin.infd)
      (mode : client.mode = .updater)
      (plain : Client.PlainSoFar client.out) :
      Closed origin client how
  | display (how : End)
      (grants : Client.Grants .display origin.infd) :
      Closed origin client how

/-- What the progress of a session says about the bytes its peer sent. -/
def Gated (session : Session) : Prop :=
  match session.phase with
  | .accepted | .login => session.client = session.origin
  | .updater => Client.Grants .updater session.origin.infd ∧
      session.client.mode = .updater ∧ Client.Plain session.client.out
  | .registering | .copying | .sending _ => Client.Grants .display session.origin.infd
  | .closing how | .unregistered how => Closed session.origin session.client how

/-- The client as it was accepted has no mode and has written nothing. -/
structure Valid (session : Session) : Prop where
  modeless : session.origin.mode = .invalid
  silent : session.origin.out = []
  gated : session.Gated

/-- A step keeps its session gated. -/
theorem Step.gated
    {self : ClientPtr}
    {server final : Server}
    {session next : Session}
    (step : Step self server session final next)
    (valid : session.Valid) :
    next.Gated := by
  obtain ⟨-, silent, gated⟩ := valid
  cases step with
  | spawn => exact gated
  | spawnFailed => exact .notStarted gated
  | login client next origin serial _ ran =>
      obtain rfl : client = origin := gated
      have login := Client.Login.of_run ran
      cases login with
      | granted _ text grants proper response writes =>
          rcases proper with updater | display
          · rw [if_pos updater]
            rw [updater] at grants
            refine ⟨grants, updater, ?_⟩
            dsimp only
            rw [writes, show client.out = [] from silent]
            exact Client.plain_nil.append response
          · rw [if_neg (by simp [display])]
            rw [display] at grants
            exact grants
  | loginFailed exception client next origin serial _ ran =>
      obtain rfl : client = origin := gated
      exact .login exception ran
  | turn ends client next origin serial _ _ ran =>
      obtain ⟨grants, mode, plain⟩ := gated
      have turn := Client.UpdateTurn.of_run ran
      cases turn with
      | answered raw _ session response _ short turn isResponse sameMode writes =>
          have stillPlain : Client.Plain next.out := by
            rw [writes]
            exact plain.append isResponse
          cases ends with
          | false => exact ⟨grants, sameMode.trans mode, stillPlain⟩
          | true => exact .updater _ grants (sameMode.trans mode) stillPlain.soFar
  | turnFailed exception client next origin serial _ _ ran =>
      obtain ⟨grants, mode, plain⟩ := gated
      have turn := Client.UpdateTurn.of_run ran
      cases turn with
      | rejected _ _ sameMode silent =>
          exact .updater _ grants (sameMode.trans mode) (silent ▸ plain.soFar)
      | failed raw ends session response what _ short turn isResponse sameMode writes =>
          exact .updater _ grants (sameMode.trans mode) ⟨_, plain.append isResponse, writes⟩
  | register => exact gated
  | snapshot => exact gated
  | send => exact gated
  | sendFailed => exact .display _ gated
  | dequeue => exact gated
  | timeout => exact gated
  | unregister => exact gated

theorem Step.origin
    {self : ClientPtr}
    {server final : Server}
    {session next : Session}
    (step : Step self server session final next) :
    next.origin = session.origin := by
  cases step <;> rfl

theorem Step.valid
    {self : ClientPtr}
    {server final : Server}
    {session next : Session}
    (step : Step self server session final next)
    (valid : session.Valid) :
    next.Valid where
  modeless := step.origin ▸ valid.modeless
  silent := step.origin ▸ valid.silent
  gated := step.gated valid

/-! ## What the gate keeps out -/

/-- What is known of a session: it has not done anything, or it ended in `login`, or
it was granted what it went on with. -/
inductive Course (session : Session) : Prop
  | unspoken (notBegun : session.ended = none ∨ session.ended = some .notStarted)
      (same : session.client = session.origin)
  | login (exception : Exception)
      (ended : session.ended = some (.thrown exception))
      (ran : Client.login.run session.origin = .error exception session.client)
  | updater
      (grants : Client.Grants .updater session.origin.infd)
      (mode : session.client.mode = .updater)
      (plain : Client.PlainSoFar session.client.out)
  | display
      (grants : Client.Grants .display session.origin.infd)

theorem Closed.course
    {session : Session}
    {how : End}
    (closed : Closed session.origin session.client how)
    (isEnded : session.ended = some how) :
    Course session := by
  cases closed with
  | notStarted same => exact .unspoken (Or.inr isEnded) same
  | login exception ran => exact .login exception isEnded ran
  | updater _ grants mode plain => exact .updater grants mode plain
  | display _ grants => exact .display grants

theorem Valid.course
    {session : Session}
    (valid : session.Valid) :
    Course session := by
  have gated := valid.gated
  unfold Gated at gated
  cases phase : session.phase with
  | accepted =>
      rw [phase] at gated
      exact .unspoken (Or.inl (by rw [ended, phase])) gated
  | login =>
      rw [phase] at gated
      exact .unspoken (Or.inl (by rw [ended, phase])) gated
  | updater =>
      rw [phase] at gated
      exact .updater gated.1 gated.2.1 gated.2.2.soFar
  | registering =>
      rw [phase] at gated
      exact .display gated
  | copying =>
      rw [phase] at gated
      exact .display gated
  | sending unsent =>
      rw [phase] at gated
      exact .display gated
  | closing how =>
      rw [phase] at gated
      exact gated.course (by rw [ended, phase])
  | unregistered how =>
      rw [phase] at gated
      exact gated.course (by rw [ended, phase])

/-- A session that is not granted a display has sent responses only. -/
theorem Valid.plain
    {session : Session}
    (valid : session.Valid)
    (noDisplay : ¬ Client.Grants .display session.origin.infd) :
    Client.PlainSoFar session.client.out := by
  have silent := valid.silent
  cases valid.course with
  | unspoken _ same =>
      rw [same, silent]
      exact Client.plain_nil.soFar
  | login exception _ ran =>
      have login := Client.Login.of_run ran
      cases login with
      | rejected _ _ denied sameMode same =>
          rw [same, silent]
          exact Client.plain_nil.soFar
      | answered _ _ text denied mode response writes =>
          rw [silent] at writes
          exact ⟨_, Client.plain_nil.append response, writes⟩
      | failed what _ text grants response writes =>
          rw [silent] at writes
          exact ⟨_, Client.plain_nil.append response, writes⟩
  | updater _ _ plain => exact plain
  | display grants => exact absurd grants noDisplay

/-- The mode of a client is `DISPLAY` only after a proper `LOGIN` with that mode. -/
theorem Valid.grants_display
    {session : Session}
    (valid : session.Valid)
    (display : session.client.mode = .display) :
    Client.Grants .display session.origin.infd := by
  have modeless := valid.modeless
  cases valid.course with
  | unspoken _ same =>
      rw [same, modeless] at display
      cases display
  | login exception _ ran =>
      exact ((Client.Login.of_run ran).display_error modeless display).1
  | updater _ updater _ =>
      rw [updater] at display
      cases display
  | display grants => exact grants

/-- A session that is granted nothing has sent nothing until it ends, and it ends as
`login` ends on what its peer sends and accepts. -/
theorem Valid.denied
    {session : Session}
    (valid : session.Valid)
    (noUpdater : ¬ Client.Grants .updater session.origin.infd)
    (noDisplay : ¬ Client.Grants .display session.origin.infd) :
    (session.ended = none ∨ session.ended = some .notStarted) ∧
        session.client.out = [] ∨
      ∃ exception, session.ended = some (.thrown exception) ∧
        Client.login.run session.origin = .error exception session.client := by
  cases valid.course with
  | unspoken notBegun same => exact Or.inl ⟨notBegun, same ▸ valid.silent⟩
  | login exception ended ran => exact Or.inr ⟨exception, ended, ran⟩
  | updater grants => exact absurd grants noUpdater
  | display grants => exact absurd grants noDisplay

/-- There it has run `login`, if its thread was created. -/
theorem Valid.denied_ended
    {session : Session}
    (valid : session.Valid)
    (noUpdater : ¬ Client.Grants .updater session.origin.infd)
    (noDisplay : ¬ Client.Grants .display session.origin.infd)
    {how : End}
    (isEnded : session.ended = some how)
    (started : how ≠ .notStarted) :
    ∃ exception, how = .thrown exception ∧
      Client.login.run session.origin = .error exception session.client := by
  rcases valid.denied noUpdater noDisplay with ⟨none | notStarted, -⟩ |
    ⟨exception, thrown, ran⟩
  · rw [isEnded] at none
    cases none
  · rw [isEnded, Option.some.injEq] at notStarted
    exact absurd notStarted started
  · rw [isEnded, Option.some.injEq] at thrown
    exact ⟨exception, thrown, ran⟩

/-- Only a turn of an updater changes the orders and broadcasts, and makes a queue
longer. -/
theorem Step.changes
    {self : ClientPtr}
    {server final : Server}
    {session next : Session}
    (step : Step self server session final next) :
    (session.phase = .updater ∧ ∃ raw ends turned, raw.length ≤ 9998 ∧
      Updater.Turn raw server (.ok ends turned) ∧ final = turned.server) ∨
    (final.myOrders = server.myOrders ∧ final.nextOrderId = server.nextOrderId ∧
      final.broadcasts = server.broadcasts ∧
      ∀ client, final.queues client <:+ server.queues client) := by
  cases step with
  | turn ends client next origin serial _ _ ran =>
      cases Client.UpdateTurn.of_run ran with
      | answered raw _ turned response _ short turn =>
          exact Or.inl ⟨rfl, raw, ends, turned, short, turn, rfl⟩
  | turnFailed exception client next origin serial _ _ ran =>
      cases Client.UpdateTurn.of_run ran with
      | rejected => exact Or.inr ⟨rfl, rfl, rfl, fun _ => List.suffix_rfl⟩
      | failed raw ends turned response what _ short turn =>
          exact Or.inl ⟨rfl, raw, ends, turned, short, turn, rfl⟩
  | register client origin serial _ _ ran =>
      cases ran
      exact Or.inr ⟨rfl, rfl, rfl, fun _ => List.suffix_rfl⟩
  | dequeue msg client origin serial _ _ ran =>
      obtain ⟨rest, queue, rfl⟩ := Display.dequeue_effect ran
      refine Or.inr ⟨rfl, rfl, rfl, ?_⟩
      intro other
      by_cases own : other = self
      · subst own
        simp [queue]
      · simp [own]
  | unregister how client origin serial _ _ ran =>
      right
      unfold Client.unregister at ran
      split at ran
      · cases ran
        exact ⟨rfl, rfl, rfl, fun _ => List.suffix_rfl⟩
      · cases ran
        exact ⟨rfl, rfl, rfl, fun _ => List.suffix_rfl⟩
  | _ => exact Or.inr ⟨rfl, rfl, rfl, fun _ => List.suffix_rfl⟩

end Session

namespace System

/-- Every session is valid. -/
def AllValid (system : System) : Prop :=
  ∀ self session, system.clients self = some session → session.Valid

theorem AllValid.step
    {self : ClientPtr}
    {system final : System}
    (allValid : AllValid system)
    (step : Step self system final) :
    AllValid final :=
  step.forall_session (fun _ _ => ⟨rfl, rfl, rfl⟩)
    (fun _ _ valid step => step.valid valid) allValid

theorem AllValid.of_reachable
    {server : Server}
    {system : System}
    (reachable : Reachable server system) :
    AllValid system :=
  holds_run AllValid.step reachable fun _ _ live => by cases live

/-- A step that changes the orders, or enqueues something, is one of an updater. -/
theorem Step.updater
    {self : ClientPtr}
    {system final : System}
    (step : Step self system final)
    (changes : final.server.myOrders ≠ system.server.myOrders ∨
      final.server.nextOrderId ≠ system.server.nextOrderId ∨
      ∃ client msg msgs, final.server.queues client =
        system.server.queues client ++ msg :: msgs) :
    ∃ session, system.clients self = some session ∧ session.phase = .updater := by
  have noChange : ¬ (final.server.myOrders = system.server.myOrders ∧
      final.server.nextOrderId = system.server.nextOrderId ∧
      ∀ client, final.server.queues client <:+ system.server.queues client) := by
    rintro ⟨orders, next, queues⟩
    rcases changes with ordersChange | nextChanges | ⟨client, msg, msgs, longer⟩
    · exact ordersChange orders
    · exact nextChanges next
    · have shorter := (queues client).length_le
      rw [longer, List.length_append, List.length_cons] at shorter
      omega
  cases step with
  | accept infd room _ free =>
      refine absurd ⟨rfl, rfl, ?_⟩ noChange
      intro client
      by_cases own : client = self
      · subst own
        simp [System.accept]
      · simp [System.accept, own]
  | run session next server _ live step =>
      rcases step.changes with ⟨phase, -⟩ | ⟨orders, next, -, queues⟩
      · exact ⟨session, live, phase⟩
      · exact absurd ⟨orders, next, queues⟩ noChange
  | free => exact absurd ⟨rfl, rfl, fun _ => List.suffix_rfl⟩ noChange

/-- In every reachable state: a step that changes the orders or enqueues something is
one of a session that is granted an updater, a registered client is granted a display,
a session that is not granted a display has sent nothing but responses, and a session
that is granted nothing sends nothing until it ends and ends like every other session
with the same peer, whatever the server. -/
theorem gate_holds
    {server : Server}
    {system : System}
    (reachable : Reachable server system)
    (self : ClientPtr) :
    (∀ final, Step self system final →
      (final.server.myOrders ≠ system.server.myOrders ∨
        final.server.nextOrderId ≠ system.server.nextOrderId ∨
        ∃ client msg msgs, final.server.queues client =
          system.server.queues client ++ msg :: msgs) →
      ∃ session, system.clients self = some session ∧
        Client.Grants .updater session.origin.infd) ∧
    (self ∈ system.server.myClients →
      ∃ session, system.clients self = some session ∧
        Client.Grants .display session.origin.infd) ∧
    ∀ session, system.clients self = some session →
      ¬ Client.Grants .display session.origin.infd →
        Client.PlainSoFar session.client.out ∧
        (¬ Client.Grants .updater session.origin.infd →
          (session.ended = none ∨ session.ended = some .notStarted →
            session.client.out = []) ∧
          ∀ otherServer otherSystem other otherSession how otherHow,
            Reachable otherServer otherSystem →
            otherSystem.clients other = some otherSession →
            otherSession.origin = session.origin →
            session.ended = some how → how ≠ .notStarted →
            otherSession.ended = some otherHow → otherHow ≠ .notStarted →
              otherHow = how ∧ otherSession.client.out = session.client.out) := by
  refine ⟨?_, ?_, ?_⟩
  · intro final step changes
    obtain ⟨session, live, phase⟩ := step.updater changes
    have gated := (AllValid.of_reachable reachable self session live).gated
    unfold Session.Gated at gated
    rw [phase] at gated
    exact ⟨session, live, gated.1⟩
  · intro registered
    obtain ⟨session, live, display, -⟩ := (registered_alive reachable).1 self registered
    have valid := AllValid.of_reachable reachable self session live
    exact ⟨session, live, valid.grants_display display⟩
  · intro session live noDisplay
    have valid := AllValid.of_reachable reachable self session live
    refine ⟨valid.plain noDisplay, ?_⟩
    intro noUpdater
    constructor
    · intro notBegun
      rcases valid.denied noUpdater noDisplay with ⟨-, silent⟩ | ⟨exception, thrown, -⟩
      · exact silent
      · rw [thrown] at notBegun
        rcases notBegun with none | notStarted
        · cases none
        · cases notStarted
    · intro otherServer otherSystem other otherSession how otherHow otherReachable
        otherLive same isEnded started otherEnded otherStarted
      obtain ⟨exception, rfl, ran⟩ :=
        valid.denied_ended noUpdater noDisplay isEnded started
      have otherValid := AllValid.of_reachable otherReachable other otherSession otherLive
      obtain ⟨otherException, rfl, otherRan⟩ := otherValid.denied_ended
        (same ▸ noUpdater) (same ▸ noDisplay) otherEnded otherStarted
      rw [same, ran, EStateM.Result.error.injEq] at otherRan
      rw [otherRan.1, otherRan.2]
      exact ⟨rfl, rfl⟩

/-- An updater orders a tea, a display has registered, and a peer with the wrong password
learns as much from this server as from one without orders. -/
theorem gate_holds_alice :
    ∃ system final otherSystem : System, ∃ session otherSession : Session,
      system.server.nextOrderId = 1000 ∧ final.server.nextOrderId = 1001 ∧
      (∃ updater, system.clients 3 = some updater ∧
        Client.Grants .updater updater.origin.infd) ∧
      (∃ display, final.clients 7 = some display ∧
        Client.Grants .display display.origin.infd) ∧
      final.clients 5 = some session ∧ otherSystem.clients 5 = some otherSession ∧
      otherSystem.server.nextOrderId = 1000 ∧
      Client.PlainSoFar session.client.out ∧
      otherSession.client.out = session.client.out := by
  obtain ⟨system, final, session, reachable, step, first, second, registered, live, origin,
    phase, -⟩ := exists_guarded
  obtain ⟨otherSystem, otherSession, denies, otherServer, -, otherLive, otherOrigin, otherPhase,
    -⟩ := @exists_denied 5 (start .initial) rfl
  have changes : final.server.nextOrderId ≠ system.server.nextOrderId := by
    rw [first, second]
    decide
  have reachableFinal : Reachable .initial final := reachable.tail ⟨3, step⟩
  have isDenied : ∀ mode, ¬ Client.Grants mode session.origin.infd := by
    rw [origin]
    exact wrongInput_denied
  obtain ⟨plain, alike⟩ := (gate_holds reachableFinal 5).2.2 session live (isDenied _)
  obtain ⟨-, twin⟩ := alike (isDenied _)
  obtain ⟨-, same⟩ := twin _ otherSystem 5 otherSession _ _ (run_of_steps denies) otherLive
    (otherOrigin.trans origin.symm) (by rw [Session.ended, phase]) (by simp)
    (by rw [Session.ended, otherPhase]) (by simp)
  refine ⟨system, final, otherSystem, session, otherSession, first, second,
    (gate_holds reachable 3).1 final step (Or.inr (Or.inl changes)),
    (gate_holds reachableFinal 7).2.1 registered, live, otherLive, ?_, plain, same⟩
  rw [otherServer]
  rfl

end System
end OrderTracking
