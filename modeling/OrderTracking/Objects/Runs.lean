import OrderTracking.Client.Emission
import OrderTracking.Client.Runs
import OrderTracking.Objects.Simulation

/-!
# Runs on objects

The runs of the threads on objects are the runs of the threads by value. What is queued for
a display, or held by its thread, never changes, however the stored orders are updated
before it is sent.
-/

namespace OrderTracking

variable {server : ObjectServer} {byValue : Server}

/-! ## Steps by value -/

namespace ObjectServer

/-- The loop over `my_clients` meets them in some order. -/
theorem exists_lists (myClients : Finset ClientPtr) : ∃ clients, Lists clients myClients :=
  ⟨myClients.toList, myClients.nodup_toList, fun _ => Finset.mem_toList⟩

end ObjectServer

namespace ObjectSession

variable {self : ClientPtr} {client : Client} {origin : Client} {serial : Nat}

theorem exists_turn
    (models : server.Models byValue)
    {finalByValue : Server}
    {nextByValue : Session}
    (step : Session.Step self byValue ⟨client, .updater, origin, serial⟩ finalByValue
      nextByValue) :
    ∃ final next, Step self server ⟨client, .updater, origin, serial⟩ final next ∧
      server.Follows final finalByValue ∧ nextByValue = next.value final.objects := by
  obtain ⟨clients, lists⟩ := ObjectServer.exists_lists server.myClients
  have agree := ObjectClient.agree_updateChat models (models.myClients ▸ lists) client
  cases step with
  | turn ends _ next _ _ _ _ ran =>
      rw [ran] at agree
      obtain ⟨⟨final, _⟩, ranHere, follows, rfl⟩ := agree.symm.of_returned
      refine ⟨final, _, .turn clients ends client _ origin serial server final lists ranHere,
        follows, ?_⟩
      simp only [value, apply_ite (ObjectPhase.value final.objects)]
      rfl
  | turnFailed exception _ next _ _ _ _ ran =>
      rw [ran] at agree
      obtain ⟨⟨final, _⟩, ranHere, follows, rfl⟩ := agree.symm.of_threw
      exact ⟨final, _, .turnFailed clients exception client _ origin serial server final
        lists ranHere, follows, rfl⟩

theorem exists_sending
    (models : server.Models byValue)
    {unsent : List Unsent}
    {finalByValue : Server}
    {nextByValue : Session}
    (step : Session.Step self byValue
      ⟨client, .sending (unsent.map (Unsent.value server.objects)), origin, serial⟩
      finalByValue nextByValue) :
    ∃ final next, Step self server ⟨client, .sending unsent, origin, serial⟩ final next ∧
      server.Follows final finalByValue ∧ nextByValue = next.value final.objects := by
  cases unsent with
  | nil =>
      rw [List.map_nil] at step
      cases step with
      | dequeue msg _ _ _ _ _ ran =>
          obtain ⟨message, final, ranHere⟩ := models.exists_dequeued ran
          obtain ⟨old, _, ranByValue, follows⟩ := models.dequeued ranHere
          rw [ranByValue] at ran
          cases ran
          refine ⟨final, _, .dequeue message client origin serial server final ranHere, follows,
            ?_⟩
          rw [← (follows.keeps.messages message old).2]
          rfl
      | timeout =>
          exact ⟨server, _, .timeout client origin serial server, models.follows, rfl⟩
  | cons first later =>
      rw [List.map_cons] at step
      cases step with
      | send _ _ _ next _ _ _ ran =>
          exact ⟨server, _, .send first later client next origin serial server ran,
            models.follows, rfl⟩
      | sendFailed exception _ _ _ next _ _ _ ran =>
          exact ⟨server, _, .sendFailed exception first later client next origin serial server
            ran, models.follows, rfl⟩

/-- A step of the thread by value is a step of the thread. -/
theorem exists_step
    (models : server.Models byValue)
    {session : ObjectSession}
    {finalByValue : Server}
    {nextByValue : Session}
    (step : Session.Step self byValue (session.value server.objects) finalByValue
      nextByValue) :
    ∃ final next, Step self server session final next ∧
      server.Follows final finalByValue ∧ nextByValue = next.value final.objects := by
  obtain ⟨client, phase, origin, serial⟩ := session
  cases phase with
  | accepted =>
      cases step with
      | spawn => exact ⟨server, _, .spawn client origin serial server, models.follows, rfl⟩
      | spawnFailed =>
          exact ⟨server, _, .spawnFailed client origin serial server, models.follows, rfl⟩
  | login =>
      cases step with
      | login _ next _ _ _ ran =>
          refine ⟨server, _, .login client next origin serial server ran, models.follows, ?_⟩
          simp only [value, apply_ite (ObjectPhase.value server.objects)]
          rfl
      | loginFailed exception _ next _ _ _ ran =>
          exact ⟨server, _, .loginFailed exception client next origin serial server ran,
            models.follows, rfl⟩
  | updater => exact exists_turn models step
  | registering =>
      cases step with
      | register _ _ _ _ _ ran =>
          have agree := models.addClient self
          rw [ran] at agree
          obtain ⟨final, ranHere, follows⟩ := agree.symm.of_returned
          exact ⟨final, _, .register client origin serial server final ranHere, follows, rfl⟩
  | copying =>
      cases step with
      | snapshot orders _ _ _ _ copied =>
          obtain ⟨stored, lists, rfl⟩ := (models.isSnapshot_iff orders).mp copied
          obtain ⟨follows, -, same⟩ := models.snapshot lists rfl
          refine ⟨_, _, .snapshot stored _ client origin serial server _ lists rfl, follows, ?_⟩
          simp only [value, ObjectPhase.value, Display.snapshotMessages, ← same, List.map_map]
          rfl
  | sending unsent => exact exists_sending models step
  | closing how =>
      cases step with
      | unregister _ _ _ _ _ _ ran =>
          have agree := ObjectClient.agree_unregister models self client
          rw [ran] at agree
          obtain ⟨final, ranHere, follows⟩ := agree.symm.of_returned
          exact ⟨final, _, .unregister how client origin serial server final ranHere, follows,
            rfl⟩
  | unregistered how => cases step

end ObjectSession

/-! ## Systems -/

namespace ObjectSystem

/-- What the pointers of the system point to is the system by value. -/
structure Models (system : ObjectSystem) (byValue : System) : Prop where
  server : system.server.Models byValue.server
  clients : ∀ self, byValue.clients self =
    (system.clients self).map (ObjectSession.value system.server.objects)
  created : byValue.created = system.created
  held : ∀ self session, system.clients self = some session → session.Held system.server

theorem models_start : Models start (System.start .initial) where
  server :=
    { separate := ⟨fun _ _ old => absurd old (Nat.not_lt_zero _),
        fun _ old => absurd old (Nat.not_lt_zero _), fun _ old => absurd old (Nat.not_lt_zero _)⟩
      stored := by simp [start, ObjectServer.initial]
      once := by simp [start, ObjectServer.initial]
      unshared := fun _ old => absurd old (Nat.not_lt_zero _)
      copied := List.forall_mem_nil _
      queued := fun _ => List.forall_mem_nil _
      announced := List.forall_mem_nil _
      myClients := rfl
      myOrders := by simp [start, ObjectServer.initial, System.start, Server.initial]
      nextOrderId := rfl
      queues := fun _ => rfl
      broadcasts := rfl }
  clients := fun _ => rfl
  created := rfl
  held := by simp [start]

/-- A step changes the server and one session. -/
theorem Models.update
    {system : ObjectSystem}
    {byValue : System}
    (models : Models system byValue)
    {final : ObjectServer}
    {finalByValue : Server}
    (follows : system.server.Follows final finalByValue)
    (self : ClientPtr)
    {next : Option ObjectSession}
    (held : ∀ session ∈ next, session.Held final)
    {created createdByValue : Nat}
    (isCreated : createdByValue = created) :
    Models ⟨final, Function.update system.clients self next, created⟩
      ⟨finalByValue, Function.update byValue.clients self
        (next.map (ObjectSession.value final.objects)), createdByValue⟩ := by
  refine ⟨follows.models, fun other => ?_, isCreated, fun other session live => ?_⟩
  · by_cases own : other = self
    · simp [own]
    · simp only [Function.update_of_ne own, models.clients]
      cases live : system.clients other with
      | none => rfl
      | some session =>
          exact congrArg some ((models.held other session live).keeps follows.keeps).2.symm
  · dsimp only at live
    by_cases own : other = self
    · rw [own, Function.update_self] at live
      exact held session live
    · rw [Function.update_of_ne own] at live
      exact ((models.held other session live).keeps follows.keeps).1

theorem Step.simulates
    {self : ClientPtr}
    {system final : ObjectSystem}
    {byValue : System}
    (step : Step self system final)
    (models : Models system byValue) :
    system.server.Keeps final.server ∧
      ∃ finalByValue, System.Step self byValue finalByValue ∧ Models final finalByValue := by
  cases step with
  | accept infd room _ free =>
      have reset := models.server.setQueue self (List.forall_mem_nil _)
      have isFree : byValue.clients self = none := by
        rw [models.clients, free]
        rfl
      refine ⟨reset.keeps, _, .accept infd room byValue isFree, ?_⟩
      rw [System.accept, models.created]
      exact models.update reset self (by rintro session ⟨⟩; exact ObjectSession.held_nothing rfl)
        rfl
  | run session next server _ live step =>
      obtain ⟨serverByValue, stepped, follows, held⟩ :=
        step.simulates models.server (models.held self session live)
      refine ⟨follows.keeps, _, .run _ _ serverByValue byValue ?_ stepped, ?_⟩
      · rw [models.clients, live]
        rfl
      · exact models.update follows self (by rintro session ⟨⟩; exact held) models.created
  | free session how _ live destroyed =>
      refine ⟨.refl _, _, .free (session.value system.server.objects) how byValue ?_ ?_,
        models.update models.server.follows self (by rintro session ⟨⟩) models.created⟩
      · rw [models.clients, live]
        rfl
      · rw [ObjectSession.value, destroyed]
        rfl

theorem Models.live
    {system : ObjectSystem}
    {byValue : System}
    (models : Models system byValue)
    {self : ClientPtr}
    {sessionByValue : Session}
    (live : byValue.clients self = some sessionByValue) :
    ∃ session, system.clients self = some session ∧
      session.value system.server.objects = sessionByValue := by
  rw [models.clients, Option.map_eq_some_iff] at live
  exact live

/-- A step by value is a step. -/
theorem exists_step
    {self : ClientPtr}
    {system : ObjectSystem}
    {byValue finalByValue : System}
    (step : System.Step self byValue finalByValue)
    (models : Models system byValue) :
    ∃ final, Step self system final ∧ Models final finalByValue := by
  cases step with
  | accept infd room _ free =>
      rw [models.clients, Option.map_eq_none_iff] at free
      have stepped := Step.accept infd room system free
      refine ⟨_, stepped, ?_⟩
      rw [System.accept, models.created]
      exact models.update (models.server.setQueue self (List.forall_mem_nil _)) self
        (by rintro session ⟨⟩; exact ObjectSession.held_nothing rfl) rfl
  | run sessionByValue nextByValue serverByValue _ liveByValue step =>
      obtain ⟨session, live, rfl⟩ := models.live liveByValue
      have held := models.held self session live
      obtain ⟨server, next, stepped, follows, rfl⟩ :=
        ObjectSession.exists_step models.server step
      obtain ⟨-, -, -, nextHeld⟩ := stepped.simulates models.server held
      exact ⟨_, .run session next server system live stepped,
        models.update follows self (by rintro session ⟨⟩; exact nextHeld) models.created⟩
  | free sessionByValue how _ liveByValue destroyed =>
      obtain ⟨session, live, rfl⟩ := models.live liveByValue
      have isDestroyed : session.phase = .unregistered how := by
        obtain ⟨client, phase, origin, serial⟩ := session
        cases phase <;> cases destroyed
        rfl
      exact ⟨_, .free session how system live isDestroyed,
        models.update models.server.follows self (by rintro session ⟨⟩) models.created⟩

/-! ## Runs -/

/-- What is queued for a display, or about to be sent to one, is the same in both. -/
structure Unchanged (system later : ObjectSystem) : Prop where
  queued : ∀ client, ∀ message ∈ system.server.queues client,
    later.server.objects.message message = system.server.objects.message message
  unsent : ∀ self session, system.clients self = some session →
    session.value later.server.objects = session.value system.server.objects

/-- A run on objects is a run by value, and keeps all messages and copies. -/
theorem simulates_run
    {system later : ObjectSystem}
    {byValue : System}
    (models : Models system byValue)
    (steps : Relation.ReflTransGen Next system later) :
    system.server.Keeps later.server ∧
      ∃ laterByValue, Relation.ReflTransGen System.Next byValue laterByValue ∧
        Models later laterByValue := by
  induction steps with
  | refl => exact ⟨.refl _, byValue, .refl, models⟩
  | tail _ next inductionHypothesis =>
      obtain ⟨keeps, middleByValue, run, middle⟩ := inductionHypothesis
      obtain ⟨self, step⟩ := next
      obtain ⟨keepsLast, lastByValue, stepByValue, last⟩ := step.simulates middle
      exact ⟨keeps.trans keepsLast, lastByValue, run.tail ⟨self, stepByValue⟩, last⟩

theorem exists_run
    {system : ObjectSystem}
    {byValue laterByValue : System}
    (models : Models system byValue)
    (steps : Relation.ReflTransGen System.Next byValue laterByValue) :
    ∃ later, Relation.ReflTransGen Next system later ∧ Models later laterByValue := by
  induction steps with
  | refl => exact ⟨system, .refl, models⟩
  | tail _ next inductionHypothesis =>
      obtain ⟨middle, run, middleModels⟩ := inductionHypothesis
      obtain ⟨self, step⟩ := next
      obtain ⟨last, stepped, lastModels⟩ := exists_step step middleModels
      exact ⟨last, run.tail ⟨self, stepped⟩, lastModels⟩

/-- Every system on objects that can develop models a system by value that can develop, and
each of these is modelled by one. -/
theorem reachable_models :
    (∀ system, Reachable system →
      ∃ byValue, System.Reachable .initial byValue ∧ Models system byValue) ∧
    ∀ byValue, System.Reachable .initial byValue →
      ∃ system, Reachable system ∧ Models system byValue :=
  ⟨fun _ run => (simulates_run models_start run).2, fun _ run => exists_run models_start run⟩

/-- Whatever happens, a message that is queued or about to be sent never changes. -/
theorem unchanged_of_reachable
    {system later : ObjectSystem}
    (reachable : Reachable system)
    (steps : Relation.ReflTransGen Next system later) :
    Unchanged system later := by
  obtain ⟨-, byValue, -, models⟩ := simulates_run models_start reachable
  obtain ⟨keeps, -⟩ := simulates_run models steps
  constructor
  · intro client message member
    exact (keeps.messages message (models.server.queued client message member)).2
  · intro self session live
    exact ((models.held self session live).keeps keeps).2

end ObjectSystem

/-! ## A tea -/

namespace System

/-- A display has registered, a tea was ordered, and it was begun. -/
theorem exists_tea :
    ∃ system later : System, Reachable .initial system ∧
      Relation.ReflTransGen Next system later ∧
      ∃ order begun : Order, .ofOrder .dispOrder (some order) ∈ system.server.queues 7 ∧
        later.server.myOrders.lookup 1000 = some begun ∧ order.status = .new ∧
          begun.status = .inProgress := by
  obtain ⟨display, client, origin, serial, registered, isDisplay, displayOthers, -⟩ :=
    @exists_registered 7 (start .initial) rfl
  obtain ⟨ordered, orders, isOrdered, isStored, orderedOthers⟩ :=
    @exists_ordered 3 display (displayOthers 3 (by decide)) (by rw [isDisplay]; rfl)
  obtain ⟨begun, begins, -, isBegun, -⟩ := @exists_begun 5 ordered
    ((orderedOthers 5 (by decide)).trans (displayOthers 5 (by decide))) isStored
  refine ⟨ordered, begun, (run_of_steps registered).trans (run_of_steps orders),
    run_of_steps begins, storedTea, begunTea, ?_, isBegun, rfl, by decide⟩
  rw [isOrdered, Server.created_queues, isDisplay]
  exact List.mem_append_right _ (List.mem_singleton.mpr rfl)

end System

namespace ObjectSystem

/-- The order is in progress, and the message that waits for the display says that it is
new. -/
theorem unchanged_of_reachable_tea :
    ∃ (system later : ObjectSystem) (message : MessagePtr) (order : Order) (begun : OrderPtr),
      message ∈ system.server.queues 7 ∧ Unchanged system later ∧
      later.server.objects.message message = .ofOrder .dispOrder (some order) ∧
      order.status = .new ∧ later.server.myOrders.lookup 1000 = some begun ∧
      (later.server.objects.order begun).status = .inProgress := by
  obtain ⟨systemByValue, laterByValue, reachable, steps, order, begunByValue, queuedByValue,
    storedByValue, isNew, isBegun⟩ := System.exists_tea
  obtain ⟨system, run, models⟩ := exists_run models_start reachable
  obtain ⟨later, runLater, modelsLater⟩ := exists_run models steps
  rw [models.server.queues] at queuedByValue
  rw [modelsLater.server.myOrders] at storedByValue
  obtain ⟨message, queued, isMessage⟩ := List.mem_map.mp queuedByValue
  obtain ⟨begun, stored, rfl⟩ := Option.map_eq_some_iff.mp storedByValue
  have unchanged := unchanged_of_reachable run runLater
  exact ⟨system, later, message, order, begun, queued, unchanged,
    (unchanged.queued 7 message queued).trans isMessage, isNew, stored, isBegun⟩

end ObjectSystem
end OrderTracking
