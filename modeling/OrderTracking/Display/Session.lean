import Mathlib.Logic.Relation
import OrderTracking.Display.Replica

/-!
# Display sessions

The thread that runs `chat_display` for one client, among all the threads of the
server. `register_display` is `add_client`, and `snapshot_orders` copies the
stored orders as the locked block of `send_order_message` does. Whatever the
other threads do in between, the display ends up with the stored orders.
-/

namespace OrderTracking
namespace Display

/-! ## Steps -/

/-- What the threads of other displays do: they register, unregister, and take
messages from their queues. -/
inductive Elsewhere (client : ClientPtr) : Server → Server → Prop
  | join (other : ClientPtr) (server final : Server)
      (different : other ≠ client)
      (ran : (Server.addClient other).run server = .ok () final) :
      Elsewhere client server final
  | leave (other : ClientPtr) (server final : Server)
      (different : other ≠ client)
      (ran : (Server.removeClient other).run server = .ok () final) :
      Elsewhere client server final
  | dequeue (other : ClientPtr) (result : Option Message) (server final : Server)
      (different : other ≠ client)
      (ran : (Server.dequeue other).run server = .ok result final) :
      Elsewhere client server final

/-- How far `chat_display` is: before `register_display`, before
`snapshot_orders`, or with messages to send before it turns to the queue. -/
inductive Progress
  | start
  | registered
  | sending (unsent : List Message)

/-- The server and the session of one display. -/
structure Session where
  server : Server
  progress : Progress
  sent : List Message

/-- A step of some thread. -/
inductive Step (client : ClientPtr) : Session → Session → Prop
  | call (operation : Server.Operation) (server : Server) (progress : Progress)
      (sent : List Message) :
      Step client ⟨server, progress, sent⟩
        ⟨server.perform operation, progress, sent⟩
  | elsewhere (server final : Server) (progress : Progress) (sent : List Message)
      (other : Elsewhere client server final) :
      Step client ⟨server, progress, sent⟩ ⟨final, progress, sent⟩
  | register (server final : Server) (sent : List Message)
      (ran : (Server.addClient client).run server = .ok () final) :
      Step client ⟨server, .start, sent⟩ ⟨final, .registered, sent⟩
  | snapshot (orders : List Order) (server : Server) (sent : List Message)
      (copied : Server.IsSnapshot orders server) :
      Step client ⟨server, .registered, sent⟩
        ⟨server, .sending (snapshotMessages orders), sent⟩
  | send (msg : Message) (server : Server) (unsent sent : List Message) :
      Step client ⟨server, .sending (msg :: unsent), sent⟩
        ⟨server, .sending unsent, sent ++ [msg]⟩
  | dequeue (msg : Message) (server final : Server) (sent : List Message)
      (ran : (Server.dequeue client).run server = .ok (some msg) final) :
      Step client ⟨server, .sending [], sent⟩ ⟨final, .sending [msg], sent⟩
  | timeout (server : Server) (sent : List Message) :
      Step client ⟨server, .sending [], sent⟩
        ⟨server, .sending [.ofType .dispHeartbeat], sent⟩

/-- The server has just started, and the session is about to. -/
def Session.initial : Session := ⟨.initial, .start, []⟩

/-- The sessions a run can lead to. -/
def Reachable (client : ClientPtr) (session : Session) : Prop :=
  Relation.ReflTransGen (Step client) .initial session

/-! ## The invariant -/

/-- Taking from a queue finds it empty, or takes its first message. -/
theorem dequeue_cases
    {client : ClientPtr}
    {result : Option Message}
    {server final : Server}
    (ran : (Server.dequeue client).run server = .ok result final) :
    result = none ∧ final = server ∨
      ∃ msg rest, result = some msg ∧ server.queues client = msg :: rest ∧
        final = { server with queues := Function.update server.queues client rest } := by
  simp only [Server.dequeue, EStateM.run_bind, EStateM.run_get] at ran
  cases queue : server.queues client with
  | nil =>
      rw [queue] at ran
      cases ran
      exact Or.inl ⟨rfl, rfl⟩
  | cons msg rest =>
      rw [queue] at ran
      cases ran
      exact Or.inr ⟨msg, rest, rfl, rfl, rfl⟩

/-- The other displays concern neither the stored orders nor this client. -/
theorem Elsewhere.frame
    {client : ClientPtr}
    {server final : Server}
    (other : Elsewhere client server final) :
    final.myOrders = server.myOrders ∧ final.queues client = server.queues client ∧
      (client ∈ final.myClients ↔ client ∈ server.myClients) := by
  cases other with
  | join other _ _ different ran =>
      cases ran
      exact ⟨rfl, rfl, by simp [Ne.symm different]⟩
  | leave other _ _ different ran =>
      cases ran
      exact ⟨rfl, rfl, by simp [Ne.symm different]⟩
  | dequeue other result _ _ different ran =>
      rcases dequeue_cases ran with ⟨-, rfl⟩ | ⟨msg, rest, -, -, rfl⟩
      · exact ⟨rfl, rfl, Iff.rfl⟩
      · exact ⟨rfl, Function.update_of_ne (Ne.symm different) _ _, Iff.rfl⟩

/-- Taking a message from a queue takes its first and nothing else. -/
theorem dequeue_effect
    {client : ClientPtr}
    {msg : Message}
    {server final : Server}
    (ran : (Server.dequeue client).run server = .ok (some msg) final) :
    ∃ rest, server.queues client = msg :: rest ∧
      final = { server with queues := Function.update server.queues client rest } := by
  rcases dequeue_cases ran with ⟨none, -⟩ | ⟨first, rest, taken, queue, effect⟩
  · cases none
  · rw [Option.some.injEq] at taken
    exact ⟨rest, taken ▸ queue, effect⟩

theorem dequeue_run
    {client : ClientPtr}
    {msg : Message}
    {server final : Server}
    (ran : (Server.dequeue client).run server = .ok (some msg) final) :
    server.queues client = msg :: final.queues client ∧
      final.myOrders = server.myOrders ∧ final.myClients = server.myClients := by
  obtain ⟨rest, queue, rfl⟩ := dequeue_effect ran
  exact ⟨by simp [queue], rfl, rfl⟩

/-- What holds in every state of a run: what was sent, is about to be sent and is
still queued shows exactly the stored orders. -/
inductive Invariant (client : ClientPtr) : Session → Prop
  | start (server : Server)
      (identified : Identified server.myOrders)
      (absent : client ∉ server.myClients)
      (empty : server.queues client = []) :
      Invariant client ⟨server, .start, []⟩
  | registered (server : Server) (before : OrderMap)
      (identified : Identified server.myOrders)
      (present : client ∈ server.myClients)
      (shown : ∀ msg ∈ server.queues client, Shown msg)
      (upToDate : replay apply before (server.queues client) = server.myOrders) :
      Invariant client ⟨server, .registered, []⟩
  | sending (server : Server) (unsent sent : List Message)
      (identified : Identified server.myOrders)
      (present : client ∈ server.myClients)
      (shown : ∀ msg ∈ sent ++ unsent ++ server.queues client, Shown msg)
      (upToDate : replay apply ∅ (sent ++ unsent ++ server.queues client) =
        server.myOrders) :
      Invariant client ⟨server, .sending unsent, sent⟩

namespace Invariant

variable {client : ClientPtr}

/-- A call reaches the session through the client's queue. -/
theorem call
    {server : Server}
    {progress : Progress}
    {sent : List Message}
    (invariant : Invariant client ⟨server, progress, sent⟩)
    (operation : Server.Operation) :
    Invariant client ⟨server.perform operation, progress, sent⟩ := by
  obtain ⟨messages, announces⟩ :=
    exists_announces (Server.change_perform server operation)
  cases invariant with
  | start _ identified absent empty =>
      obtain ⟨stillAbsent, queue⟩ := announces.absent absent
      exact .start _ (announces.identified identified) stillAbsent (queue.trans empty)
  | registered _ before identified present shown upToDate =>
      obtain ⟨stillPresent, queue⟩ := announces.present present
      refine .registered _ before (announces.identified identified) stillPresent ?_ ?_
      · rw [queue]
        exact announces.shown_append shown
      · rw [queue]
        exact announces.upToDate upToDate
  | sending _ unsent sent identified present shown upToDate =>
      obtain ⟨stillPresent, queue⟩ := announces.present present
      refine .sending _ unsent sent (announces.identified identified) stillPresent ?_ ?_
      · rw [queue, ← List.append_assoc]
        exact announces.shown_append shown
      · rw [queue, ← List.append_assoc]
        exact announces.upToDate upToDate

/-- What changes neither the stored orders nor this client. -/
theorem of_frame
    {server final : Server}
    {progress : Progress}
    {sent : List Message}
    (invariant : Invariant client ⟨server, progress, sent⟩)
    (stored : final.myOrders = server.myOrders)
    (queue : final.queues client = server.queues client)
    (clients : client ∈ final.myClients ↔ client ∈ server.myClients) :
    Invariant client ⟨final, progress, sent⟩ := by
  cases invariant with
  | start _ identified absent empty =>
      refine .start final ?_ ?_ ?_
      · rwa [stored]
      · rwa [clients]
      · rwa [queue]
  | registered _ before identified present shown upToDate =>
      refine .registered final before ?_ ?_ ?_ ?_
      · rwa [stored]
      · rwa [clients]
      · rwa [queue]
      · rwa [queue, stored]
  | sending _ unsent sent identified present shown upToDate =>
      refine .sending final unsent sent ?_ ?_ ?_ ?_
      · rwa [stored]
      · rwa [clients]
      · rwa [queue]
      · rwa [queue, stored]

theorem elsewhere
    {server final : Server}
    {progress : Progress}
    {sent : List Message}
    (invariant : Invariant client ⟨server, progress, sent⟩)
    (other : Elsewhere client server final) :
    Invariant client ⟨final, progress, sent⟩ := by
  obtain ⟨stored, queue, clients⟩ := other.frame
  exact invariant.of_frame stored queue clients

/-- The snapshot may be newer than messages that are still queued. -/
theorem snapshot
    {server : Server}
    {sent : List Message}
    (invariant : Invariant client ⟨server, .registered, sent⟩)
    {orders : List Order}
    (copied : Server.IsSnapshot orders server) :
    Invariant client ⟨server, .sending (snapshotMessages orders), sent⟩ := by
  cases invariant with
  | registered _ before identified present shown upToDate =>
      refine .sending server _ [] identified present ?_ ?_
      · intro msg member
        rw [List.nil_append, List.mem_append] at member
        exact member.elim shown_of_mem_snapshotMessages (shown msg)
      · have current := (behind_empty server.myOrders).replay_snapshotMessages identified
          copied
        rw [List.nil_append, replay_append, current, ← upToDate]
        exact overwriting_apply.replay_replay before _

/-- What one step preserves. -/
theorem step
    {session next : Session}
    (invariant : Invariant client session)
    (step : Step client session next) :
    Invariant client next := by
  cases step with
  | call operation server progress sent => exact invariant.call operation
  | elsewhere server final progress sent other => exact invariant.elsewhere other
  | register server final sent ran =>
      cases invariant with
      | start _ identified absent empty =>
          cases ran
          refine .registered _ server.myOrders identified
            (Finset.mem_insert_self client _) ?_ ?_
          · intro msg member
            rw [empty] at member
            cases member
          · rw [empty, replay_nil]
  | snapshot orders server sent copied => exact invariant.snapshot copied
  | send msg server unsent sent =>
      cases invariant with
      | sending _ _ _ identified present shown upToDate =>
          have moved : sent ++ [msg] ++ unsent ++ server.queues client =
              sent ++ msg :: unsent ++ server.queues client := by
            simp
          exact .sending server unsent (sent ++ [msg]) identified present
            (moved ▸ shown) (moved ▸ upToDate)
  | dequeue msg server final sent ran =>
      obtain ⟨queue, stored, clients⟩ := dequeue_run ran
      cases invariant with
      | sending _ _ _ identified present shown upToDate =>
          rw [queue] at shown upToDate
          have moved : sent ++ [msg] ++ final.queues client =
              sent ++ [] ++ msg :: final.queues client := by
            simp
          refine .sending final [msg] sent ?_ ?_ (moved ▸ shown) ?_
          · rwa [stored]
          · rwa [clients]
          · rwa [moved, stored]
  | timeout server sent =>
      cases invariant with
      | sending _ _ _ identified present shown upToDate =>
          refine .sending server _ sent identified present ?_ ?_
          · intro msg member
            simp only [List.append_assoc, List.mem_append, List.mem_singleton]
              at member shown
            rcases member with isSent | rfl | queued
            · exact shown msg (Or.inl isSent)
            · exact .heartbeat
            · exact shown msg (Or.inr (Or.inr queued))
          · rw [← upToDate]
            simp only [replay_append, replay_cons, replay_nil, apply_heartbeat]

/-- What a run preserves. -/
theorem of_reachable
    {session : Session}
    (reachable : Reachable client session) :
    Invariant client session := by
  induction reachable with
  | refl =>
      refine .start .initial ?_ (Finset.notMem_empty client) rfl
      intro orderId order stored
      cases stored
  | tail _ last inductionHypothesis => exact inductionHypothesis.step last

end Invariant

/-- However calls interleave with the session, once the display has received what
was sent, what is about to be sent and what is queued, it shows exactly the
stored orders. -/
theorem display_converges
    {client : ClientPtr}
    {session : Session}
    (reachable : Reachable client session)
    {unsent : List Message}
    (sending : session.progress = .sending unsent) :
    (receive (session.sent ++ unsent ++ session.server.queues client)).run ∅ =
      .ok () session.server.myOrders := by
  have invariant := Invariant.of_reachable reachable
  cases invariant with
  | start => cases sending
  | registered => cases sending
  | sending server _ sent identified present shown upToDate =>
      cases sending
      rw [receive_run shown, upToDate]

/-- A new order of one tea. -/
def newTea : Order :=
  ⟨1, .new, [⟨1, 1, .new, ascii "tea", 1⟩]⟩

/-- The tea as it is stored once it is begun. -/
def begunTea : Order :=
  ⟨1000, .inProgress, [⟨1000, 1, .inProgress, ascii "tea", 1⟩]⟩

/-- A tea is ordered before a display registers, and begun before the display
gets its snapshot. -/
def teaBegun : Session :=
  let ordered := Server.initial.perform (.createOrder newTea)
  let joined := { ordered with myClients := insert 7 ordered.myClients }
  ⟨joined.perform (.updateItem 1000 1 .inProgress),
    .sending (snapshotMessages [begunTea]), []⟩

theorem reachable_teaBegun : Reachable 7 teaBegun := by
  have ordered := Relation.ReflTransGen.refl.tail
    (@Step.call 7 (.createOrder newTea) Server.initial .start [])
  have joined := ordered.tail (.register _ _ _ rfl)
  have begun := joined.tail (.call (.updateItem 1000 1 .inProgress) _ _ _)
  exact begun.tail (.snapshot [begunTea] _ [] rfl)

theorem display_converges_teaBegun :
    (receive (snapshotMessages [begunTea] ++
        [.ofItemStatus .dispItemUpdate 1000 1 .inProgress,
          .ofOrderStatus .dispOrderUpdate 1000 .inProgress])).run ∅ =
      .ok () teaBegun.server.myOrders :=
  display_converges reachable_teaBegun rfl

end Display
end OrderTracking
