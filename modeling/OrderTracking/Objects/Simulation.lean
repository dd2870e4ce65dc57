import OrderTracking.Objects.Refinement
import OrderTracking.Objects.System

/-!
# The threads on objects are the threads by value

Every step of a thread on objects is a step of the thread by value, and the other way
round. So what holds of every run by value holds of every run on objects, and nothing that
a display is about to send changes before it is sent.
-/

namespace OrderTracking

variable {server : ObjectServer} {byValue : Server} {clients : List ClientPtr}

/-! ## Turns -/

namespace ObjectUpdater

/-- The same was sent, and the servers are related. -/
structure Follows (server : ObjectServer) (final : Session) (byValue : Updater.Session) :
    Prop where
  follows : server.Follows final.server byValue.server
  sent : byValue.sent = final.sent

theorem agree_sendMsg
    {session : Session}
    {other : Updater.Session}
    (follows : Follows server session other)
    (msg : Message) :
    Agree (Follows server) ((sendMsg msg).run session)
      ((Updater.sendMsg msg).run other) := by
  unfold sendMsg Updater.sendMsg
  dsimp only [EStateM.run]
  cases (Wire.encode msg) [] with
  | ok _ out => exact .returned _ _ _ ⟨follows.follows, congrArg (· ++ [out]) follows.sent⟩
  | error exception _ => exact .threw _ _ _ follows

theorem agree_return
    {session : Session}
    {other : Updater.Session}
    (follows : Follows server session other)
    (msg : Message)
    (ends : Bool) :
    Agree (Follows server) ((do sendMsg msg; return ends : Code Session Bool).run session)
      ((do Updater.sendMsg msg; return ends : Code Updater.Session Bool).run other) :=
  (agree_sendMsg follows msg).bind fun _ _ _ follows => .returned _ _ _ follows

theorem agree_call
    {session : Session}
    {other : Updater.Session}
    {code : Code ObjectServer α}
    {codeByValue : Code Server α}
    (sent : other.sent = session.sent)
    (agree : Agree server.Follows (code.run session.server) (codeByValue.run other.server)) :
    Agree (Follows server) ((call code).run session)
      ((Updater.call codeByValue).run other) := by
  change Agree _ (call code session) (Updater.call codeByValue other)
  unfold call Updater.call
  generalize code.run session.server = result at agree
  generalize codeByValue.run other.server = otherResult at agree
  cases agree with
  | returned value final byValue follows => exact .returned _ _ _ ⟨follows, sent⟩
  | threw exception final byValue follows => exact .threw _ _ _ ⟨follows, sent⟩

/-- The `switch` does what it does by value with what the message says. -/
theorem agree_handle
    (models : server.Models byValue)
    (lists : ObjectServer.Lists clients byValue.myClients)
    {message : MessagePtr}
    (old : message < server.objects.messages.next) :
    Agree (Follows server) ((handle clients message).run ⟨server, []⟩)
      ((Updater.handle (server.objects.message message)).run ⟨byValue, []⟩) := by
  have unchanged : Follows server ⟨server, []⟩ ⟨byValue, []⟩ := ⟨models.follows, rfl⟩
  have type : (server.objects.message message).type =
      (server.objects.messages.cells message).type := rfl
  have order : (server.objects.message message).order =
      (server.objects.messages.cells message).order.map server.objects.order := rfl
  unfold handle Updater.handle
  simp only [EStateM.run_bind, EStateM.run_get, type, order]
  cases (server.objects.messages.cells message).type with
  | quit => exact agree_return unchanged _ _
  | orderNew =>
      cases points : (server.objects.messages.cells message).order with
      | none => exact .threw _ _ _ unchanged
      | some order =>
          have id : (server.objects.order order).id =
              (server.objects.memory.orders order).id := rfl
          simp only [EStateM.run_bind, EStateM.run_get, Option.map_some, id]
          split
          · exact .threw _ _ _ unchanged
          · have added := models.addOrder lists (models.separate.pointed _ old order points)
            rw [Order.duplicate_eq]
            exact (agree_call rfl added).bind fun _ _ _ follows => agree_return follows _ _
  | itemUpdate =>
      exact (agree_call rfl (models.updateItem lists _ _ _)).bind
        fun _ _ _ follows => agree_return follows _ _
  | orderUpdate =>
      exact (agree_call rfl (models.updateOrder lists _ _)).bind
        fun _ _ _ follows => agree_return follows _ _
  | _ => exact .threw _ _ _ unchanged

theorem agree_updateChat
    (models : server.Models byValue)
    (lists : ObjectServer.Lists clients byValue.myClients)
    (raw : Bytes) :
    Agree (Follows server) ((updateChat clients raw).run ⟨server, []⟩)
      ((Updater.updateChat raw).run ⟨byValue, []⟩) := by
  change Agree _ (updateChat clients raw ⟨server, []⟩) (Updater.updateChat raw ⟨byValue, []⟩)
  unfold updateChat Updater.updateChat
  cases (Wire.decode raw).run .empty with
  | error exception _ => exact .threw _ _ _ ⟨models.follows, rfl⟩
  | ok _ msg =>
      obtain ⟨adds, old, isValue⟩ := Objects.decode_spec models.separate msg
      obtain ⟨decoded, keeps⟩ := models.adds adds
      have handled := agree_handle decoded lists old
      rw [show _ = _ from isValue] at handled
      replace handled := handled.mono fun final other follows =>
        Follows.mk (keeps.follows follows.follows) follows.sent
      dsimp only
      generalize (handle clients _).run _ = result at handled ⊢
      generalize (Updater.handle msg).run _ = otherResult at handled ⊢
      cases handled with
      | returned ends final other follows => exact .returned _ _ _ follows
      | threw exception final other follows =>
          cases exception with
          | semanticError what => exact agree_return follows _ _
          | _ => exact .threw _ _ _ follows

end ObjectUpdater

namespace ObjectClient

/-- The clients are the same, and the servers are related. -/
structure Follows (server : ObjectServer) (final : ObjectServer × Client)
    (byValue : Server × Client) : Prop where
  follows : server.Follows final.1 byValue.1
  client : byValue.2 = final.2

theorem agree_updateChat
    (models : server.Models byValue)
    (lists : ObjectServer.Lists clients byValue.myClients)
    (client : Client) :
    Agree (Follows server) ((updateChat clients).run (server, client))
      (Client.updateChat.run (byValue, client)) := by
  change Agree _ (updateChat clients (server, client)) (Client.updateChat (byValue, client))
  unfold updateChat Client.updateChat
  dsimp only
  cases Client.receive.run client with
  | error exception client => exact .threw _ _ _ ⟨models.follows, rfl⟩
  | ok raw client =>
      have turned := ObjectUpdater.agree_updateChat models lists raw
      dsimp only
      generalize (ObjectUpdater.updateChat clients raw).run _ = result at turned ⊢
      generalize (Updater.updateChat raw).run _ = otherResult at turned ⊢
      cases turned with
      | returned ends final other follows =>
          dsimp only
          rw [follows.sent]
          cases (final.sent.forM Client.send).run client with
          | ok _ client => exact .returned _ _ _ ⟨follows.follows, rfl⟩
          | error failure client => exact .threw _ _ _ ⟨follows.follows, rfl⟩
      | threw exception final other follows =>
          dsimp only
          rw [follows.sent]
          cases (final.sent.forM Client.send).run client with
          | ok _ client => exact .threw _ _ _ ⟨follows.follows, rfl⟩
          | error failure client => exact .threw _ _ _ ⟨follows.follows, rfl⟩

theorem agree_unregister
    (models : server.Models byValue)
    (self : ClientPtr)
    (client : Client) :
    Agree server.Follows ((unregister self client).run server)
      ((Client.unregister self client).run byValue) := by
  unfold unregister Client.unregister
  split
  · exact models.removeClient self
  · exact .returned _ _ _ models.follows

end ObjectClient

/-! ## Sessions -/

/-- What a thread holds a pointer to until it has sent it. -/
def Unsent.Held (server : ObjectServer) : Unsent → Prop
  | .order copy => copy ∈ server.copies
  | .message taken => taken < server.objects.messages.next
  | .heartbeat => True

theorem Unsent.Held.keeps
    {final : ObjectServer}
    {unsent : Unsent}
    (held : unsent.Held server)
    (keeps : server.Keeps final) :
    unsent.Held final ∧ unsent.value final.objects = unsent.value server.objects := by
  cases unsent with
  | order copy =>
      obtain ⟨still, same⟩ := keeps.copies copy held
      exact ⟨still, congrArg (fun order => Message.ofOrder .dispOrder (some order)) same⟩
  | message taken => exact keeps.messages taken held
  | heartbeat => exact ⟨trivial, rfl⟩

namespace ObjectSession

/-- Whatever the thread is about to send is there. -/
def Held (server : ObjectServer) (session : ObjectSession) : Prop :=
  ∀ unsent ∈ session.phase.unsent, unsent.Held server

/-- What a thread is about to send stays as it is. -/
theorem Held.keeps
    {final : ObjectServer}
    {session : ObjectSession}
    (held : session.Held server)
    (keeps : server.Keeps final) :
    session.Held final ∧ session.value final.objects = session.value server.objects := by
  refine ⟨fun unsent member => ((held unsent member).keeps keeps).1, ?_⟩
  obtain ⟨client, phase, origin, serial⟩ := session
  cases phase with
  | sending unsent =>
      have same : unsent.map (Unsent.value final.objects) =
          unsent.map (Unsent.value server.objects) :=
        List.map_congr_left fun first member => ((held first member).keeps keeps).2
      simp only [value, ObjectPhase.value, same]
  | _ => rfl

theorem held_nothing
    {session : ObjectSession}
    (nothing : session.phase.unsent = []) :
    session.Held server := by
  rw [Held, nothing]
  exact List.forall_mem_nil _

/-- A step of a thread is the step of the thread by value. -/
theorem Step.simulates
    {self : ClientPtr}
    {final : ObjectServer}
    {session next : ObjectSession}
    (step : Step self server session final next)
    (models : server.Models byValue)
    (held : session.Held server) :
    ∃ finalByValue,
      Session.Step self byValue (session.value server.objects) finalByValue
          (next.value final.objects) ∧
        server.Follows final finalByValue ∧ next.Held final := by
  cases step with
  | spawn => exact ⟨byValue, .spawn .., models.follows, held_nothing rfl⟩
  | spawnFailed => exact ⟨byValue, .spawnFailed .., models.follows, held_nothing rfl⟩
  | login client next origin serial _ ran =>
      have stepped := @Session.Step.login self client next origin serial byValue ran
      refine ⟨byValue, ?_, models.follows, held_nothing ?_⟩
      · simp only [value, apply_ite (ObjectPhase.value server.objects)]
        exact stepped
      · dsimp only
        split <;> rfl
  | loginFailed exception client next origin serial _ ran =>
      exact ⟨byValue, .loginFailed exception client next origin serial byValue ran,
        models.follows, held_nothing rfl⟩
  | turn clients ends client next origin serial _ _ lists ran =>
      rw [← models.myClients] at lists
      have agree := ObjectClient.agree_updateChat models lists client
      rw [ran] at agree
      obtain ⟨⟨finalByValue, _⟩, ranByValue, follows, rfl⟩ := agree.of_returned
      have stepped := @Session.Step.turn self ends client _ origin serial _ _ ranByValue
      refine ⟨finalByValue, ?_, follows, held_nothing ?_⟩
      · simp only [value, apply_ite (ObjectPhase.value final.objects)]
        exact stepped
      · dsimp only
        split <;> rfl
  | turnFailed clients exception client next origin serial _ _ lists ran =>
      rw [← models.myClients] at lists
      have agree := ObjectClient.agree_updateChat models lists client
      rw [ran] at agree
      obtain ⟨⟨finalByValue, _⟩, ranByValue, follows, rfl⟩ := agree.of_threw
      exact ⟨finalByValue, .turnFailed exception client _ origin serial _ _ ranByValue,
        follows, held_nothing rfl⟩
  | register client origin serial _ _ ran =>
      have agree := models.addClient self
      rw [ran] at agree
      obtain ⟨finalByValue, ranByValue, follows⟩ := agree.of_returned
      exact ⟨finalByValue, .register client origin serial _ _ ranByValue, follows,
        held_nothing rfl⟩
  | snapshot orders copies client origin serial _ _ lists ran =>
      obtain ⟨follows, copied, same⟩ := models.snapshot lists ran
      have isSnapshot := (models.isSnapshot_iff _).mpr ⟨orders, lists, same.symm⟩
      refine ⟨byValue, ?_, follows, ?_⟩
      · have stepped := @Session.Step.snapshot self _ client origin serial _ isSnapshot
        simp only [Display.snapshotMessages, List.map_map] at stepped
        simp only [value, ObjectPhase.value, List.map_map]
        exact stepped
      · intro unsent member
        obtain ⟨copy, isCopy, rfl⟩ := List.mem_map.mp member
        exact copied copy isCopy
  | send unsent later client next origin serial _ ran =>
      refine ⟨byValue, .send _ _ client next origin serial _ ran, models.follows, ?_⟩
      exact fun other member => held other (List.mem_cons_of_mem _ member)
  | sendFailed exception unsent later client next origin serial _ ran =>
      exact ⟨byValue, .sendFailed exception _ _ client next origin serial _ ran,
        models.follows, held_nothing rfl⟩
  | dequeue message client origin serial _ _ ran =>
      obtain ⟨old, finalByValue, ranByValue, follows⟩ := models.dequeued ran
      obtain ⟨still, same⟩ := follows.keeps.messages message old
      refine ⟨finalByValue, ?_, follows, ?_⟩
      · rw [← same] at ranByValue
        exact .dequeue _ client origin serial _ _ ranByValue
      · exact fun unsent member => List.mem_singleton.mp member ▸ still
  | timeout client origin serial _ =>
      refine ⟨byValue, .timeout client origin serial _, models.follows, ?_⟩
      exact fun unsent member => List.mem_singleton.mp member ▸ trivial
  | unregister how client origin serial _ _ ran =>
      have agree := ObjectClient.agree_unregister models self client
      rw [ran] at agree
      obtain ⟨finalByValue, ranByValue, follows⟩ := agree.of_returned
      exact ⟨finalByValue, .unregister how client origin serial _ _ ranByValue, follows,
        held_nothing rfl⟩

end ObjectSession
end OrderTracking
