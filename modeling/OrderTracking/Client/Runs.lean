import OrderTracking.Client.Registration
import OrderTracking.Updater.Delivery

/-!
# What can happen at a server

Alice logs in at several places: at a display, which registers, at an updater, which
orders a tea, and at another one, which begins it. What happens to each of her clients are
steps of its thread.
-/

namespace OrderTracking

/-! ## Steps of a display -/

namespace Session

variable {self : ClientPtr} {client origin : Client} {serial : Nat} {server : Server}

theorem Step.dequeue_of_queued
    {msg : Message}
    {queue : List Message}
    (queued : server.queues self = msg :: queue) :
    Step self server ⟨client, .sending [], origin, serial⟩
      { server with queues := Function.update server.queues self queue }
      ⟨client, .sending [msg], origin, serial⟩ := by
  refine .dequeue msg client origin serial server _ ?_
  simp only [Server.dequeue, bind_pure_comp, EStateM.run_bind, EStateM.run_get, queued]
  rfl

theorem Step.exists_send
    {msg : Message}
    {s : Bytes}
    (encodes : (Wire.encode msg).run [] = .ok () s)
    (unlimited : client.room = none)
    (unsent : List Message) :
    ∃ next, Step self server ⟨client, .sending (msg :: unsent), origin, serial⟩ server
      ⟨next, .sending unsent, origin, serial⟩ ∧ next.room = none ∧
        next.out = client.out ++ Framing.frame s := by
  have ran := (Client.sendMsg_run encodes client).trans (Client.send_unlimited unlimited s)
  refine ⟨_, .send msg unsent client _ origin serial server ran, unlimited, ?_⟩
  obtain ⟨-, other, otherEncodes, writes⟩ := Client.sendMsg_ok ran
  rw [encodes] at otherEncodes
  cases otherEncodes
  exact writes

end Session

namespace System

variable {self : ClientPtr} {system : System}

/-! ## Clients of alice -/

theorem run_of_steps
    {final : System}
    (steps : Relation.ReflTransGen (Step self) system final) :
    Relation.ReflTransGen Next system final := by
  induction steps with
  | refl => exact .refl
  | tail _ step inductionHypothesis => exact inductionHypothesis.tail ⟨self, step⟩

theorem exists_step
    {session next : Session}
    (live : system.clients self = some session)
    {server : Server}
    (step : Session.Step self system.server session server next) :
    ∃ final, Step self system final ∧ final.server = server ∧
      final.clients self = some next ∧
      ∀ other, other ≠ self → final.clients other = system.clients other :=
  ⟨_, .run session next server system live step, rfl, Function.update_self ..,
    fun _ different => Function.update_of_ne different ..⟩

/-- Alice logs in and sends more. -/
theorem exists_connected
    (free : system.clients self = none)
    {mode : ClientMode}
    {valid : mode ≠ .invalid}
    (short : (aliceLogin mode valid).print.length ≤ 9998)
    (more : Bytes) :
    ∃ final client origin serial, Relation.ReflTransGen (Step self) system final ∧
      final.server =
        { system.server with queues := Function.update system.server.queues self [] } ∧
      (∀ other, other ≠ self → final.clients other = system.clients other) ∧
      final.clients self = some ⟨client,
        if mode = .updater then .updater else .registering, origin, serial⟩ ∧
      Framing.available client.infd = more ∧ client.room = none := by
  let login := aliceLogin mode valid
  let infd : Framing.Input :=
    [.chunk (Framing.frame login.print ++ more) (by simp [Framing.frame])]
  obtain ⟨rest, returned, left⟩ := @Framing.receive_frame login.print more short
    ⟨infd, []⟩ (List.append_nil _)
  have proper : mode = .updater ∨ mode = .display := by
    cases mode with
    | invalid => exact absurd rfl valid
    | updater => exact Or.inl rfl
    | display => exact Or.inr rfl
  obtain ⟨next, ran, isMode, rfl, unlimited⟩ := Client.login_of_unlimited
    (show Framing.receive.run ⟨(Client.accepted infd none).infd, []⟩ = _ from returned)
    (Wire.decode_print ..) rfl proper (show ascii "alice/foobar" ∈ _ by decide) rfl
  obtain rfl : next.mode = mode := isMode
  have accepted := (Relation.ReflTransGen.refl (r := Step self)).tail
    (.accept infd none system free)
  have spawned := accepted.tail (.run _ _ _ _ (Function.update_self ..) (.spawn _ _ _ _))
  have loggedIn := spawned.tail (.run _ _ _ _ (Function.update_self ..)
    (.login _ next _ _ _ ran))
  refine ⟨_, next, _, _, loggedIn, rfl, fun other different => ?_, Function.update_self ..,
    left, unlimited⟩
  simp [System.accept, different]

/-- A display logs in and registers. -/
theorem exists_registered
    (free : system.clients self = none) :
    ∃ final client origin serial, Relation.ReflTransGen (Step self) system final ∧
      final.server = { system.server with
        queues := Function.update system.server.queues self []
        myClients := insert self system.server.myClients } ∧
      (∀ other, other ≠ self → final.clients other = system.clients other) ∧
      final.clients self = some ⟨client, .copying, origin, serial⟩ ∧ client.room = none := by
  obtain ⟨later, client, origin, serial, run, server, others, live, -, unlimited⟩ :=
    @exists_connected self system free .display (by decide) (by decide) []
  have registered := run.tail (.run _ _ _ _ live (.register _ _ _ _ _ rfl))
  refine ⟨_, client, origin, serial, registered, ?_, fun other different => ?_,
    Function.update_self .., unlimited⟩
  · rw [server]
  · exact (Function.update_of_ne different ..).trans (others other different)

/-- An updater logs in, and its request is served. -/
theorem exists_served
    (free : system.clients self = none)
    {raw response : Bytes}
    (short : raw.length ≤ 9998)
    {server : Server}
    (ran : (Updater.updateChat raw).run ⟨{ system.server with
        queues := Function.update system.server.queues self [] }, []⟩ =
      .ok false ⟨server, [response]⟩) :
    ∃ final, Relation.ReflTransGen (Step self) system final ∧ final.server = server ∧
      ∀ other, other ≠ self → final.clients other = system.clients other := by
  obtain ⟨later, client, origin, serial, run, isServer, others, live, sent, unlimited⟩ :=
    @exists_connected self system free .updater (by decide) (by decide) (Framing.frame raw)
  obtain ⟨rest, returned, -⟩ := @Framing.receive_frame raw [] short ⟨client.infd, []⟩
    (sent.trans (List.append_nil _).symm)
  rw [← isServer] at ran
  obtain ⟨next, ranTurn⟩ := Client.updateChat_of_unlimited returned ran unlimited
  have answered := run.tail (.run _ _ _ _ live (.turn _ _ _ _ _ _ _ ranTurn))
  exact ⟨_, answered, rfl, fun other different =>
    (Function.update_of_ne different ..).trans (others other different)⟩

/-- A login of alice with a wrong password. -/
def wrongLogin : Wire.Sentence :=
  .login .updater (by decide) (ascii "alice/wrong") (by decide)

/-- What the peer with the wrong password sends. -/
def wrongInput : Framing.Input :=
  [.chunk (Framing.frame wrongLogin.print) (by simp [Framing.frame])]

theorem wrongInput_denied (mode : ClientMode) : ¬ Client.Grants mode wrongInput := by
  obtain ⟨rest, returned, -⟩ := @Framing.receive_frame wrongLogin.print [] (by decide)
    ⟨wrongInput, []⟩ rfl
  refine Client.denied_of_decode returned fun req decodes granted => ?_
  rw [Wire.decode_print] at decodes
  cases decodes
  exact absurd granted.2.2 (by decide +kernel)

/-- Somebody tries to log in with the wrong password. -/
theorem exists_denied
    (free : system.clients self = none) :
    ∃ final session, Relation.ReflTransGen (Step self) system final ∧
      final.server =
        { system.server with queues := Function.update system.server.queues self [] } ∧
      (∀ other, other ≠ self → final.clients other = system.clients other) ∧
      final.clients self = some session ∧ session.origin = .accepted wrongInput none ∧
      session.phase = .closing (.thrown (.protocolError "auth error")) ∧
      session.client.out = Framing.frame (Updater.textOf .error (ascii "Bad Login")) := by
  obtain ⟨rest, returned, -⟩ := @Framing.receive_frame wrongLogin.print [] (by decide)
    ⟨wrongInput, []⟩ rfl
  obtain ⟨next, ran, out⟩ := Client.login_of_unknown
    (show Framing.receive.run ⟨(Client.accepted wrongInput none).infd, []⟩ = _ from returned)
    (Wire.decode_print ..) rfl (show ascii "alice/wrong" ∉ _ by decide +kernel) rfl
  have accepted := (Relation.ReflTransGen.refl (r := Step self)).tail
    (.accept wrongInput none system free)
  have spawned := accepted.tail (.run _ _ _ _ (Function.update_self ..) (.spawn _ _ _ _))
  have denied := spawned.tail (.run _ _ _ _ (Function.update_self ..)
    (.loginFailed _ _ next _ _ _ ran))
  refine ⟨_, _, denied, rfl, fun other different => ?_, Function.update_self .., rfl, rfl, out⟩
  simp [System.accept, different]

/-! ## A tea -/

/-- The tea as it is ordered. -/
def tea : Order :=
  ⟨1, .new, [⟨1, 1, .new, ascii "tea", 1⟩]⟩

/-- The tea as it is stored, and as it is shown first. -/
def storedTea : Order :=
  Server.assigned 1000 tea

/-- The tea that was begun. -/
def begunTea : Order :=
  Server.itemUpdatedOrder 1 .inProgress storedTea

theorem exists_ordered
    (free : system.clients self = none)
    (first : system.server.nextOrderId = 1000) :
    ∃ final, Relation.ReflTransGen (Step self) system final ∧
      final.server = Server.created tea { system.server with
        queues := Function.update system.server.queues self [] } ∧
      final.server.myOrders.lookup 1000 = some storedTea ∧
      ∀ other, other ≠ self → final.clients other = system.clients other := by
  have ran := Updater.updateChat_run_created
    (Wire.decode_print (Updater.orderTea .new (by decide)) .empty) rfl rfl rfl
  obtain ⟨final, orders, isOrdered, others⟩ :=
    @exists_served self system free _ _ (by decide) _ (ran _)
  refine ⟨final, orders, isOrdered, ?_, others⟩
  rw [isOrdered, Server.created_myOrders, first]
  exact Finmap.lookup_insert ..

/-- A display has registered, somebody has tried to log in with the wrong password, and the
next step is that of an updater that orders a tea. -/
theorem exists_guarded :
    ∃ system final session, Reachable .initial system ∧ Step 3 system final ∧
      system.server.nextOrderId = 1000 ∧ final.server.nextOrderId = 1001 ∧
      7 ∈ final.server.myClients ∧
      final.clients 5 = some session ∧ session.origin = .accepted wrongInput none ∧
      session.phase = .closing (.thrown (.protocolError "auth error")) ∧
      session.client.out = Framing.frame (Updater.textOf .error (ascii "Bad Login")) := by
  let order := Updater.orderTea .new (by decide)
  obtain ⟨display, -, -, -, registers, isDisplay, others, -⟩ :=
    @exists_registered 7 (start .initial) rfl
  obtain ⟨connected, client, origin, serial, connects, isConnected, othersConnected, live, sent,
    unlimited⟩ := @exists_connected 3 display (others 3 (by decide)) .updater (by decide)
      (by decide) (Framing.frame order.print)
  have isFree : connected.clients 5 = none :=
    (othersConnected 5 (by decide)).trans (others 5 (by decide))
  obtain ⟨denied, session, denies, isDenied, othersDenied, isSession, origin', phase, out⟩ :=
    exists_denied isFree
  obtain ⟨rest, returned, -⟩ := @Framing.receive_frame order.print [] (by decide)
    ⟨client.infd, []⟩ (sent.trans (List.append_nil _).symm)
  have ran := Updater.updateChat_run_created (Wire.decode_print order .empty) rfl rfl rfl
    denied.server
  obtain ⟨next, turned⟩ := Client.updateChat_of_unlimited returned ran unlimited
  obtain ⟨final, step, server, -, othersFinal⟩ := exists_step
    ((othersDenied 3 (by decide)).trans live) (.turn false client next origin serial _ _ turned)
  have first : denied.server.nextOrderId = 1000 := by
    rw [isDenied, isConnected, isDisplay]
    rfl
  refine ⟨denied, final, session, ?_, step, first, ?_, ?_,
    (othersFinal 5 (by decide)).trans isSession, origin', phase, out⟩
  · exact ((run_of_steps registers).trans (run_of_steps connects)).trans (run_of_steps denies)
  · rw [server, Server.created_nextOrderId, first]
    rfl
  · rw [server, Server.created_myClients, isDenied, isConnected, isDisplay]
    exact Finset.mem_insert_self 7 _

theorem exists_begun
    (free : system.clients self = none)
    (stored : system.server.myOrders.lookup 1000 = some storedTea) :
    ∃ final, Relation.ReflTransGen (Step self) system final ∧
      final.server = Server.itemUpdated 1000 1 .inProgress storedTea { system.server with
        queues := Function.update system.server.queues self [] } ∧
      final.server.myOrders.lookup 1000 = some begunTea ∧
      ∀ other, other ≠ self → final.clients other = system.clients other := by
  let server : Server :=
    { system.server with queues := Function.update system.server.queues self [] }
  have updates := Updater.call_run_ok (Server.updateItem_run
    (show server.myOrders.lookup 1000 = some storedTea from stored)
    (show storedTea.findItem 1 = some _ from rfl) (Or.inl ⟨rfl, rfl⟩))
  have handled : (Updater.handle (Updater.updateTea .inProgress (by decide)).meaning).run
      ⟨server, []⟩ = .ok false ⟨server.itemUpdated 1000 1 .inProgress storedTea,
        [Updater.textOf .ok (ascii "successful item update")]⟩ := by
    change (do
      Updater.call (Server.updateItem 1000 1 .inProgress)
      Updater.sendMsg (.ofStr .ok (ascii "successful item update"))
      return false : Code Updater.Session Bool).run _ = _
    rw [updates]
    exact Updater.sendMsg_text_return (Or.inr (Or.inl rfl)) _ false ⟨_, []⟩
  obtain ⟨final, begins, isBegun, others⟩ := @exists_served self system free _ _ (by decide) _
    (Updater.updateChat_run_of_handle (Wire.decode_print ..) handled)
  refine ⟨final, begins, isBegun, ?_, others⟩
  rw [isBegun, Server.itemUpdated_myOrders]
  exact Finmap.lookup_insert ..

/-- The string the tea is shown with first. -/
def shownTea : Bytes :=
  ascii "DISP_ORDER|1000,NEW,1000:1:NEW:tea:1"

theorem encode_storedTea :
    (Wire.encode (.ofOrder .dispOrder (some storedTea))).run [] = .ok () shownTea := by
  rfl

/-- What the display is sent when the tea is begun. -/
theorem itemUpdateMessages_storedTea :
    Server.itemUpdateMessages 1000 1 .inProgress storedTea =
      [.ofItemStatus .dispItemUpdate 1000 1 .inProgress,
        .ofOrderStatus .dispOrderUpdate 1000 .inProgress] := by
  decide

/-- A display that has sent its copies of no orders is sent a tea. Then the tea is begun:
the display is about to be sent the one update, and the other one is queued. -/
theorem exists_behind :
    ∃ system session, Reachable .initial system ∧ system.clients 7 = some session ∧
      session.phase = .sending [.ofItemStatus .dispItemUpdate 1000 1 .inProgress] ∧
      system.server.queues 7 = [.ofOrderStatus .dispOrderUpdate 1000 .inProgress] ∧
      system.server.myOrders.lookup 1000 = some begunTea := by
  obtain ⟨display, client, origin, serial, registers, isDisplay, others, live, unlimited⟩ :=
    @exists_registered 7 (start .initial) rfl
  obtain ⟨copied, copies, isCopied, live, othersCopied⟩ := exists_step live
    (.snapshot [] client origin serial display.server (by rw [isDisplay]; rfl))
  have free : ∀ other, other ≠ 7 → copied.clients other = none := fun other different =>
    (othersCopied other different).trans (others other different)
  obtain ⟨ordered, orders, isOrdered, isStored, othersOrdered⟩ :=
    @exists_ordered 3 copied (free 3 (by decide)) (by rw [isCopied, isDisplay]; rfl)
  -- the session sends the tea
  have queued : ordered.server.queues 7 = [.ofOrder .dispOrder (some storedTea)] := by
    rw [isOrdered, Server.created_queues, isCopied, isDisplay]
    rfl
  obtain ⟨taken, takes, isTaken, live, othersTaken⟩ :=
    exists_step ((othersOrdered 7 (by decide)).trans live) (.dequeue_of_queued queued)
  obtain ⟨next, sends, -⟩ := Session.Step.exists_send encode_storedTea unlimited []
  obtain ⟨sent, sends, isSent, live, othersSent⟩ := exists_step live sends
  -- the tea is begun, and the session takes the one update
  have stored : sent.server.myOrders.lookup 1000 = some storedTea := by
    rw [isSent, isTaken]
    exact isStored
  have isFree : sent.clients 5 = none := by
    rw [othersSent 5 (by decide), othersTaken 5 (by decide), othersOrdered 5 (by decide)]
    exact free 5 (by decide)
  obtain ⟨begun, begins, isBegun, nowBegun, othersBegun⟩ := exists_begun isFree stored
  have queued : begun.server.queues 7 =
      [.ofItemStatus .dispItemUpdate 1000 1 .inProgress,
        .ofOrderStatus .dispOrderUpdate 1000 .inProgress] := by
    rw [isBegun, Server.itemUpdated_queues, itemUpdateMessages_storedTea, isSent, isTaken,
      isOrdered, isCopied, isDisplay]
    rfl
  obtain ⟨behind, retakes, isBehind, live, -⟩ :=
    exists_step ((othersBegun 7 (by decide)).trans live) (.dequeue_of_queued queued)
  refine ⟨behind, _, ?_, live, rfl, ?_, ?_⟩
  · have run := (run_of_steps registers).tail ⟨7, copies⟩
    have run := ((run.trans (run_of_steps orders)).tail ⟨7, takes⟩).tail ⟨7, sends⟩
    exact (run.trans (run_of_steps begins)).tail ⟨7, retakes⟩
  · rw [isBehind]
    exact Function.update_self 7 _ begun.server.queues
  · rw [isBehind]
    exact nowBegun

end System
end OrderTracking
