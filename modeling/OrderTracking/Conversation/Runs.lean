import OrderTracking.Conversation.Performs

/-!
# What can happen in a conversation

Alice orders a tea and quits. She watches a display while others order a tea and begin
it, so that the display is behind by what has been written, what is about to be sent and
what is queued; and the connection can be lost. Whatever happens is a run of the threads of
the server.
-/

namespace OrderTracking
namespace Conversation

open Framing (frame)
open OrderTracking.System (begunTea encode_storedTea itemUpdateMessages_storedTea shownTea
  storedTea)
open Programs (Exit Tells welcome)

variable {σ : Type} {program : Programs.Program σ} {conversation : Conversation σ}

/-! ## The updater -/

/-- What alice types to log in and order a tea. -/
def teaLines : List Bytes :=
  ["alice", "foobar", "order_new", "1", "1", "tea", "1"].map ascii

/-- The response to the order. -/
abbrev createdTea : Bytes :=
  ascii "Created order id 1000"

theorem exists_ordered (more : List Bytes) :
    ∃ (s : Bytes) (conversation : Conversation Unit),
      Relation.ReflTransGen (Inner Programs.updater)
        (initial Programs.updater .initial (Programs.typing (teaLines ++ more)))
        { conversation with talk := .result (.inl ()) } ∧
      Quiet 3 .updater conversation ∧ conversation.cin = Programs.typing more ∧
      conversation.cout =
        Programs.prompts ++ ascii "> " ++ (ascii "Success: " ++ createdTea ++ ascii "\n") ∧
      conversation.cerr = [] ∧
      conversation.sent = [s, (Updater.orderTea .new (by decide)).print] ∧
      conversation.received = [welcome, Updater.textOf .ok createdTea] := by
  obtain ⟨s, loggedIn, logsIn, quiet, server, cin, cout, cerr, sent, received⟩ :=
    @exists_loggedIn Unit Programs.updater .updater _ rfl (Or.inl rfl) (ascii "alice")
      (ascii "foobar") (by decide) (by decide) (by decide)
      (["order_new", "1", "1", "tea", "1"].map ascii ++ more) 3 .initial
  let order := Updater.orderTea .new (by decide)
  let asked : Conversation Unit := { loggedIn with
    cout := loggedIn.cout ++ ascii "> "
    cin := Programs.typing more }
  have isQuiet : Quiet 3 .updater asked := ⟨quiet.linked, quiet.live⟩
  have countable : Wire.Countable order.meaning := by
    rintro _ ⟨⟩
    decide
  have ran := Updater.updateChat_run_created (Wire.decode_print order .empty) rfl rfl rfl
    asked.system.server
  have isCreated : asked.system.server.nextOrderId = 1000 := by
    change loggedIn.system.server.nextOrderId = _
    rw [server]
    rfl
  rw [isCreated] at ran
  obtain ⟨later, performs, stillQuiet, -, exchanged⟩ :=
    @Quiet.performs_request _ _ asked 3 isQuiet _ _ createdTea
      (Wire.encode_meaning order countable []) (by decide) _ ran (by decide)
  have orders := loops_input (performs_input_orderNew cin
    (performs_orderNew (by decide) (by decide) (by decide) (by decide) rfl performs))
  refine ⟨s, later, logsIn.trans orders, stillQuiet, exchanged.cin, ?_, exchanged.cerr.trans cerr,
    ?_, ?_⟩
  · rw [exchanged.cout, ← cout]
  · rw [exchanged.sent, show asked.sent = _ from sent]
    rfl
  · rw [exchanged.received, show asked.received = _ from received]
    rfl

/-- Alice orders a tea and quits. -/
theorem exists_quit :
    ∃ (s : Bytes) (conversation : Conversation Unit) (session : Session),
      Relation.ReflTransGen (Inner Programs.updater)
        (initial Programs.updater .initial (Programs.typing (teaLines ++ [ascii "quit"])))
        conversation ∧
      conversation.talk = .result (.inr (.status 0)) ∧
      conversation.link = some ⟨.client 3, [], [], .closed⟩ ∧
      conversation.system.clients 3 = some session ∧ session.phase = .closing .left ∧
      conversation.cerr = [] ∧
      conversation.sent = [s, (Updater.orderTea .new (by decide)).print, ascii "QUIT|quit"] ∧
      conversation.received = [welcome, Updater.textOf .ok createdTea,
        Updater.textOf .ok (ascii "goodbye")] := by
  obtain ⟨s, ordered, orders, quiet, cin, -, cerr, sent, received⟩ :=
    exists_ordered [ascii "quit"]
  obtain ⟨quit, performs, ⟨linked, client, origin, serial, live, -⟩, -, exchanged⟩ :=
    quiet.performs_input_quit cin
  let link : Link := ⟨.client 3, [], [], .opened⟩
  let closed : Conversation Unit :=
    (quit.changeSession link (Session.limit 0)).setLink { link with line := .closed }
  have closes : Performs Programs.updater Programs.close quit () closed :=
    (Answered.close 0 link quit linked rfl).performs
  have turns : Performs Programs.updater (Programs.updater.loop ()) ordered
      (.inr (.status 0)) closed :=
    performs.bind (closes.bind (performs_result (Sum.inr (Exit.status 0))))
  refine ⟨s, _, _, orders.trans turns.loops, rfl, rfl, System.modifySession_live live _, rfl,
    exchanged.cerr.trans cerr, exchanged.sent.trans ?_, exchanged.received.trans ?_⟩
  · rw [sent]
    rfl
  · rw [received]
    rfl

/-! ## The display -/

/-- A display that has registered is about to send its copies of no orders. -/
theorem exists_watching (lines : List Bytes) :
    ∃ (conversation : Conversation OrderMap) (client origin : Client) (serial : Nat),
      Relation.ReflTransGen (Inner Programs.display)
        (initial Programs.display .initial
          (Programs.typing (ascii "alice" :: ascii "foobar" :: lines)))
        { conversation with talk := .result (.inl ∅) } ∧
      conversation.link = some ⟨.client 7, [], [], .opened⟩ ∧
      conversation.system.clients 7 = some ⟨client, .sending [], origin, serial⟩ ∧
      client.room = none ∧
      conversation.system.server = { Server.initial with
        myClients := {7}
        queues := Function.update Server.initial.queues 7 [] } ∧
      conversation.received = [welcome] := by
  obtain ⟨s, loggedIn, logsIn, quiet, server, -, -, -, -, received⟩ :=
    @exists_loggedIn OrderMap Programs.display .display _ rfl (Or.inr rfl) (ascii "alice")
      (ascii "foobar") (by decide) (by decide) (by decide) lines 7 .initial
  obtain ⟨linked, client, origin, serial, live, -, -, unlimited⟩ := quiet
  obtain ⟨registered, registers, same, isRegistered, linked, live⟩ :=
    @exists_goesOn_silently _ Programs.display loggedIn _ linked 7 rfl _ _ live _
      (.register _ _ _ _ _ rfl) (fun ended => by cases ended) rfl
  obtain ⟨copied, copies, stillSame, isCopied, linked, live⟩ :=
    @exists_goesOn_silently _ Programs.display registered _ linked 7 rfl _ _ live _
      (.snapshot [] _ _ _ _ (by rw [isRegistered, server]; rfl)) (fun ended => by cases ended)
      rfl
  let shown : Conversation OrderMap :=
    { copied with cout := copied.cout ++ Programs.clearScreen }
  let stop : OrderMap ⊕ Exit := .inl ∅
  have shows : Performs Programs.display
      (Programs.print Programs.clearScreen >>= fun _ => .result stop) copied stop shown :=
    (performs_print _).bind (performs_result stop)
  have run := (logsIn.trans ((registers.trans copies) _)).trans shows.run
  refine ⟨shown, client, origin, serial, run, linked, live, unlimited, ?_, ?_⟩
  · change copied.system.server = _
    rw [isCopied, isRegistered, server]
    rfl
  · change copied.received = _
    rw [stillSame.received, same.received, received]

/-- Somebody has ordered a tea, which was written to the display. -/
theorem exists_told (lines : List Bytes) :
    ∃ (conversation : Conversation OrderMap) (client origin : Client) (serial : Nat),
      Relation.ReflTransGen (Step Programs.display)
        (initial Programs.display .initial
          (Programs.typing (ascii "alice" :: ascii "foobar" :: lines)))
        { conversation with talk := .result (.inl ∅) } ∧
      conversation.link = some ⟨.client 7, [], frame shownTea, .opened⟩ ∧
      conversation.system.clients 7 = some ⟨client, .sending [], origin, serial⟩ ∧
      7 ∈ conversation.system.server.myClients ∧
      conversation.system.server.queues 7 = [] ∧
      conversation.system.server.myOrders.lookup 1000 = some storedTea ∧
      conversation.system.server.broadcasts = [.ofOrder .dispOrder (some storedTea)] ∧
      conversation.received = [welcome] := by
  obtain ⟨watching, client, origin, serial, watches, linked, live, unlimited, server,
    received⟩ := exists_watching lines
  have run := steps_of_inner watches
  obtain ⟨other, free⟩ := Reachable.exists_free ⟨_, run⟩
  obtain ⟨ordered, orders, isOrdered, isStored, others⟩ := @System.exists_ordered other
    watching.system free (by rw [server]; rfl)
  have different : 7 ≠ other := by
    rintro rfl
    cases free.symm.trans live
  have mine : 7 ∈ watching.system.server.myClients := by
    rw [server]
    exact Finset.mem_singleton_self 7
  have queued : ordered.server.queues 7 = [.ofOrder .dispOrder (some storedTea)] := by
    rw [isOrdered, Server.created_queues, if_pos mine]
    dsimp only
    rw [Function.update_of_ne different, server]
    rfl
  obtain ⟨taken, takes, same, isTaken, linked, live⟩ :=
    @exists_taken _ Programs.display watching _ linked 7 other rfl _ _ _ live free ordered orders
      others _ _ queued
  obtain ⟨next, step, -, out⟩ := Session.Step.exists_send encode_storedTea unlimited []
  obtain ⟨sent, sends, sameSent, isSent, linked, live⟩ :=
    @exists_goesOn_session _ Programs.display taken _ linked 7 rfl _ _ live _ step
      fun ended => by cases ended
  rw [out, List.drop_left] at linked
  refine ⟨sent, next, origin, serial, (run.trans (takes _)).trans (steps_of_inner (sends _)),
    linked, live, ?_, ?_, ?_, ?_, ?_⟩
  · rw [isSent, isTaken, isOrdered]
    exact mine
  · rw [isSent, isTaken]
    exact Function.update_self 7 ([] : List Message) ordered.server.queues
  · rw [isSent, isTaken]
    exact isStored
  · rw [isSent, isTaken, isOrdered, Server.created_broadcasts, server]
    rfl
  · exact sameSent.received.trans (same.received.trans received)

/-- The display is behind by a tea that was written to it, one update that its session is
about to send, and one that is queued. -/
theorem exists_behind (lines : List Bytes) :
    ∃ (conversation : Conversation OrderMap) (session : Session),
      Relation.ReflTransGen (Step Programs.display)
        (initial Programs.display .initial
          (Programs.typing (ascii "alice" :: ascii "foobar" :: lines)))
        { conversation with talk := .result (.inl ∅) } ∧
      conversation.link = some ⟨.client 7, [], frame shownTea, .opened⟩ ∧
      conversation.system.clients 7 = some session ∧
      session.phase = .sending [.ofItemStatus .dispItemUpdate 1000 1 .inProgress] ∧
      conversation.system.server.queues 7 =
        [.ofOrderStatus .dispOrderUpdate 1000 .inProgress] ∧
      conversation.system.server.myOrders.lookup 1000 = some begunTea ∧
      conversation.system.server.broadcasts =
        [.ofOrder .dispOrder (some storedTea),
          .ofItemStatus .dispItemUpdate 1000 1 .inProgress,
          .ofOrderStatus .dispOrderUpdate 1000 .inProgress] ∧
      conversation.received = [welcome] := by
  obtain ⟨told, client, origin, serial, run, linked, live, mine, empty, stored, broadcasts,
    received⟩ := exists_told lines
  obtain ⟨other, free⟩ := Reachable.exists_free ⟨_, run⟩
  obtain ⟨begun, begins, isBegun, nowBegun, others⟩ := @System.exists_begun other
    told.system free stored
  have different : 7 ≠ other := by
    rintro rfl
    cases free.symm.trans live
  have queued : begun.server.queues 7 =
      [.ofItemStatus .dispItemUpdate 1000 1 .inProgress,
        .ofOrderStatus .dispOrderUpdate 1000 .inProgress] := by
    rw [isBegun, Server.itemUpdated_queues, if_pos mine, itemUpdateMessages_storedTea]
    dsimp only
    rw [Function.update_of_ne different, empty, List.nil_append]
  obtain ⟨behind, takes, same, isBehind, linked, live⟩ :=
    @exists_taken _ Programs.display told _ linked 7 other rfl _ _ _ live free begun begins others
      _ _ queued
  refine ⟨behind, _, run.trans (takes _), linked, live, rfl, ?_, ?_, ?_,
    same.received.trans received⟩
  · rw [isBehind]
    exact Function.update_self 7 _ begun.server.queues
  · rw [isBehind]
    exact nowBegun
  · rw [isBehind, isBegun, Server.itemUpdated_broadcasts, itemUpdateMessages_storedTea]
    change told.system.server.broadcasts ++ _ = _
    rw [broadcasts]
    rfl

/-- Every conversation is a run of the threads of the server, in which all that the
program writes was there when its connection was accepted. -/
theorem conversation_isRun
    {server : Server}
    (reachable : Reachable program server conversation) :
    ∃ later total, System.Reachable server (conversation.foresee later total) :=
  (Foreseen.of_reachable reachable).isRun

theorem conversation_isRun_tea :
    ∃ (s : Bytes) (conversation : Conversation Unit),
      conversation.sent = [s, (Updater.orderTea .new (by decide)).print, ascii "QUIT|quit"] ∧
      conversation.received = [welcome, Updater.textOf .ok createdTea,
        Updater.textOf .ok (ascii "goodbye")] ∧
      ∃ later total, System.Reachable .initial (conversation.foresee later total) := by
  obtain ⟨s, conversation, session, steps, -, -, -, -, -, sent, received⟩ := exists_quit
  exact ⟨s, conversation, sent, received, conversation_isRun (.of_inner steps)⟩

end Conversation
end OrderTracking
