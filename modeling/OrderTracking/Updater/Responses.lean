import Mathlib.Logic.Relation
import OrderTracking.Updater.Turn

/-!
# Requests and responses

The sessions of any number of updaters, interleaved with each other and with
whatever the other threads of the server do. In each of them the responses answer
the requests one by one, and say what became of them.
-/

namespace OrderTracking
namespace Updater

/-! ## Sessions -/

/-- A received string that a session has processed: the server its turn found, the
server it left, and what it sent. -/
structure Processed where
  raw : Bytes
  before : Server
  after : Server
  responses : List Bytes

/-- The server and the sessions of the updaters. -/
structure World (Peer : Type) where
  server : Server
  running : Peer → Bool
  received : Peer → List Bytes
  processed : Peer → List Processed
  sent : Peer → List Bytes

variable {Peer : Type} [DecidableEq Peer]

namespace World

/-- Record the turn of a session on a string. -/
def record (peer : Peer) (raw : Bytes) (continues : Bool) (session : Session)
    (world : World Peer) : World Peer where
  server := session.server
  running := Function.update world.running peer continues
  received := Function.update world.received peer (world.received peer ++ [raw])
  processed := Function.update world.processed peer
    (world.processed peer ++ [⟨raw, world.server, session.server, session.sent⟩])
  sent := Function.update world.sent peer (world.sent peer ++ session.sent)

/-- A peer sends a string. Its session makes a turn of the loop of `update_chat`
unless it has left the loop. -/
def receive (peer : Peer) (raw : Bytes) (world : World Peer) : World Peer :=
  if world.running peer then
    match (updateChat raw).run ⟨world.server, []⟩ with
    | .ok ends session => world.record peer raw (!ends) session
    | .error _ session => world.record peer raw false session
  else
    { world with
      received := Function.update world.received peer (world.received peer ++ [raw]) }

/-- All sessions are at the start of their loops. -/
def initial (server : Server) : World Peer where
  server := server
  running := fun _ => true
  received := fun _ => []
  processed := fun _ => []
  sent := fun _ => []

/-- A step of an updater session, or anything another thread does to the server. -/
inductive Step : World Peer → World Peer → Prop
  | receive (peer : Peer) (raw : Bytes) (world : World Peer) :
      Step world (world.receive peer raw)
  | elsewhere (server : Server) (world : World Peer) :
      Step world { world with server := server }

/-- The states the sessions can reach from some server. -/
def Reachable (world : World Peer) : Prop :=
  ∃ server, Relation.ReflTransGen Step (initial server) world

end World

/-! ## What a response says -/

/-- The string is a response of this type. -/
def IsResponse (type : MessageType) (response : Bytes) : Prop :=
  ∃ str, (Wire.encode (.ofStr type str)).run [] = .ok () response

/-- The operation of the request took effect on the orders. -/
def TookEffect (req : Message) (before after : Server) : Prop :=
  match req.type with
  | .orderNew => ∃ order, req.order = some order ∧
      after.myOrders = before.myOrders.insert before.nextOrderId
        (Server.assigned before.nextOrderId order) ∧
      after.nextOrderId = before.nextOrderId + 1
  | .itemUpdate | .orderUpdate => after.myOrders ≠ before.myOrders
  | _ => False

/-- The orders, the next id and the queues of all displays are as before. -/
structure Unchanged (before after : Server) : Prop where
  myOrders : after.myOrders = before.myOrders
  nextOrderId : after.nextOrderId = before.nextOrderId
  queues : after.queues = before.queues

/-- The response to a request: it is `OK` exactly for a `QUIT` or an operation that
took effect, and `ERROR` exactly for an operation that changed nothing. The `OK` for
a new order names the key of the order. -/
structure Answers (req : Message) (turn : Processed) (response : Bytes) : Prop where
  decodes : (Wire.decode turn.raw).run .empty = .ok () req
  expected : req.type = .quit ∨ Calls req.type
  only : turn.responses = [response]
  ok : IsResponse .ok response ↔
    req.type = .quit ∨ TookEffect req turn.before turn.after
  error : IsResponse .error response ↔
    Calls req.type ∧ Unchanged turn.before turn.after
  answered : IsResponse .ok response ∨ IsResponse .error response
  names : req.type = .orderNew → IsResponse .ok response →
    ∃ orderId order, req.order = some order ∧
      response = textOf .ok (ascii "Created order id " ++ Cxx.toString orderId) ∧
      turn.after.myOrders.lookup orderId = some (Server.assigned orderId order)

/-- The string decodes to `QUIT`. -/
def Quits (raw : Bytes) : Prop :=
  ∃ req, (Wire.decode raw).run .empty = .ok () req ∧ req.type = .quit

/-- These strings were processed in order, none of them a `QUIT`, and each got its
response. -/
structure Served (strings : List Bytes) (turns : List Processed) (sent : List Bytes) :
    Prop where
  inOrder : turns.map Processed.raw = strings
  answers : List.Forall₂ (fun turn response => ∃ req, Answers req turn response)
    turns sent
  noQuit : ∀ string ∈ strings, ¬ Quits string

/-- The discipline of a session, by whether it is still running, with the strings it
was sent, its turns and its responses. It has stopped right after the response to a
`QUIT`, or without a response and an effect at the first string it rejected. -/
inductive Disciplined :
    Bool → List Bytes → List Processed → List Bytes → Prop
  | running (strings : List Bytes) (turns : List Processed) (sent : List Bytes)
      (served : Served strings turns sent) :
      Disciplined true strings turns sent
  | quit (strings ignored : List Bytes) (turns : List Processed) (sent : List Bytes)
      (last : Processed) (req : Message) (response : Bytes)
      (served : Served strings turns sent)
      (quits : req.type = .quit)
      (answers : Answers req last response) :
      Disciplined false (strings ++ last.raw :: ignored) (turns ++ [last])
        (sent ++ [response])
  | rejected (strings ignored : List Bytes) (turns : List Processed)
      (sent : List Bytes) (last : Processed)
      (served : Served strings turns sent)
      (rejects : Rejects last.raw)
      (silent : last.responses = [])
      (noEffect : last.after = last.before) :
      Disciplined false (strings ++ last.raw :: ignored) (turns ++ [last]) sent

/-! ## Responses -/

theorem isResponse_iff
    {type : MessageType}
    (kind : Message.IsText type)
    (response : Bytes) :
    IsResponse type response ↔ ∃ str, response = textOf type str := by
  simp only [IsResponse, Wire.encode_text kind, textOf, EStateM.Result.ok.injEq, true_and,
    eq_comm]

/-- No string is both an `OK` and an `ERROR`. -/
theorem not_isResponse_ok_and_error
    (response : Bytes) :
    ¬ (IsResponse .ok response ∧ IsResponse .error response) := by
  rw [isResponse_iff (by decide), isResponse_iff (by decide)]
  rintro ⟨⟨str, rfl⟩, other, equal⟩
  have ok : Wire.messageTypeToStr .ok = ascii "OK" := by decide
  have error : Wire.messageTypeToStr .error = ascii "ERROR" := by decide
  rw [textOf, textOf, ok, error] at equal
  have heads : some 'O'.toUInt8 = some 'E'.toUInt8 := congrArg List.head? equal
  exact absurd heads (by decide)

theorem isResponse_ok (str : Bytes) : IsResponse .ok (textOf .ok str) :=
  (isResponse_iff (by decide) _).mpr ⟨str, rfl⟩

theorem isResponse_error (str : Bytes) : IsResponse .error (textOf .error str) :=
  (isResponse_iff (by decide) _).mpr ⟨str, rfl⟩

/-! ## What an accepted call changes -/

theorem itemUpdated_myOrders_ne
    {server : Server}
    {orderId itemId : Int32}
    {newStatus : ItemStatus}
    {order : Order}
    {item : Item}
    (stored : server.myOrders.lookup orderId = some order)
    (found : order.findItem itemId = some item)
    (allowed : Server.ItemStep item.status newStatus) :
    (server.itemUpdated orderId itemId newStatus order).myOrders ≠ server.myOrders := by
  intro same
  have sameOrder := congrArg (Finmap.lookup orderId) same
  rw [Server.itemUpdated_myOrders, Finmap.lookup_insert, stored,
    Option.some.injEq] at sameOrder
  have sameItems := congrArg Order.items sameOrder
  rw [Server.itemUpdatedOrder_items] at sameItems
  have sameItem : (order.setItemStatus itemId newStatus).findItem itemId =
      order.findItem itemId := by
    rw [Order.findItem, sameItems, Order.findItem]
  rw [Order.findItem_setItemStatus_self, found, Option.map_some,
    Option.some.injEq] at sameItem
  have sameStatus : newStatus = item.status := congrArg Item.status sameItem
  rw [sameStatus, Server.ItemStep] at allowed
  rcases allowed with ⟨new, inProgress⟩ | ⟨inProgress, done⟩
  · rw [new] at inProgress
    cases inProgress
  · rw [inProgress] at done
    cases done

theorem delivered_myOrders_ne
    {server : Server}
    {orderId : Int32}
    {order : Order}
    (stored : server.myOrders.lookup orderId = some order) :
    (server.delivered orderId).myOrders ≠ server.myOrders := by
  intro same
  have sameOrder := congrArg (Finmap.lookup orderId) same
  rw [Server.delivered_myOrders, Finmap.lookup_erase, stored] at sameOrder
  cases sameOrder

/-! ## A turn -/

/-- The response `OK` to a request that took effect. -/
theorem Answers.of_ok
    {req : Message}
    {raw str : Bytes}
    {before after : Server}
    (decodes : (Wire.decode raw).run .empty = .ok () req)
    (effect : req.type = .quit ∨ Calls req.type ∧ TookEffect req before after ∧
      ¬ Unchanged before after)
    (names : req.type = .orderNew →
      ∃ orderId order, req.order = some order ∧
        str = ascii "Created order id " ++ Cxx.toString orderId ∧
        after.myOrders.lookup orderId = some (Server.assigned orderId order)) :
    Answers req ⟨raw, before, after, [textOf .ok str]⟩ (textOf .ok str) where
  decodes := decodes
  expected := effect.imp_right And.left
  only := rfl
  ok := by
    refine ⟨fun _ => effect.imp_right fun effect => effect.2.1, fun _ => isResponse_ok str⟩
  error := by
    constructor
    · intro error
      exact absurd ⟨isResponse_ok str, error⟩ (not_isResponse_ok_and_error _)
    · rintro ⟨calls, unchanged⟩
      rcases effect with quit | ⟨-, -, changed⟩
      · rw [quit] at calls
        exact absurd calls (by simp [Calls])
      · exact absurd unchanged changed
  answered := Or.inl (isResponse_ok str)
  names := by
    intro type _
    obtain ⟨orderId, order, given, rfl, stored⟩ := names type
    exact ⟨orderId, order, given, rfl, stored⟩

/-- Nothing took effect if nothing changed. -/
theorem not_tookEffect_self (req : Message) (server : Server) :
    ¬ TookEffect req server server := by
  unfold TookEffect
  cases req.type <;> simp

/-- The response `ERROR` to a request that changed nothing. -/
theorem Answers.of_error
    {req : Message}
    {raw str : Bytes}
    {server : Server}
    (decodes : (Wire.decode raw).run .empty = .ok () req)
    (calls : Calls req.type) :
    Answers req ⟨raw, server, server, [textOf .error str]⟩ (textOf .error str) where
  decodes := decodes
  expected := Or.inr calls
  only := rfl
  ok := by
    constructor
    · intro ok
      exact absurd ⟨ok, isResponse_error str⟩ (not_isResponse_ok_and_error _)
    · rintro (quit | effect)
      · rw [quit] at calls
        exact absurd calls (by simp [Calls])
      · exact absurd effect (not_tookEffect_self req server)
  error := ⟨fun _ => ⟨calls, ⟨rfl, rfl, rfl⟩⟩, fun _ => isResponse_error str⟩
  answered := Or.inr (isResponse_error str)
  names := by
    intro type ok
    exact absurd ⟨ok, isResponse_error str⟩ (not_isResponse_ok_and_error _)

/-- A turn that returns answers its request, and ends the session after a `QUIT`. -/
theorem Turn.answers
    {raw : Bytes}
    {server : Server}
    {ends : Bool}
    {session : Session}
    (turn : Turn raw server (.ok ends session)) :
    ∃ req response, session.sent = [response] ∧
      Answers req ⟨raw, server, session.server, session.sent⟩ response ∧
      (ends = true ↔ req.type = .quit) := by
  cases turn with
  | quit req decodes type =>
      refine ⟨req, _, rfl, .of_ok decodes (Or.inl type) ?_, by simp [type]⟩
      intro orderNew
      rw [type] at orderNew
      cases orderNew
  | refused req what decodes calls known =>
      refine ⟨req, _, rfl, .of_error decodes calls, ?_⟩
      rcases calls with type | type | type <;> simp [type]
  | created req order decodes type given one =>
      refine ⟨req, _, rfl, .of_ok decodes (Or.inr ⟨Or.inl type, ?_, ?_⟩) ?_, by simp [type]⟩
      · simp [TookEffect, type, given]
      · intro unchanged
        have next := unchanged.nextOrderId
        rw [Server.created_nextOrderId] at next
        simp at next
      · intro _
        refine ⟨server.nextOrderId, order, given, rfl, ?_⟩
        rw [Server.created_myOrders, Finmap.lookup_insert]
  | itemUpdated req order item decodes type stored found allowed =>
      have changed := itemUpdated_myOrders_ne stored found allowed
      refine ⟨req, _, rfl, .of_ok decodes (Or.inr ⟨Or.inr (Or.inl type), ?_, ?_⟩) ?_,
        by simp [type]⟩
      · simp only [TookEffect, type]
        exact changed
      · intro unchanged
        exact changed unchanged.myOrders
      · intro orderNew
        rw [type] at orderNew
        cases orderNew
  | delivered req order decodes type stored done deliver =>
      have changed := delivered_myOrders_ne stored
      refine ⟨req, _, rfl, .of_ok decodes (Or.inr ⟨Or.inr (Or.inr type), ?_, ?_⟩) ?_,
        by simp [type]⟩
      · simp only [TookEffect, type]
        exact changed
      · intro unchanged
        exact changed unchanged.myOrders
      · intro orderNew
        rw [type] at orderNew
        cases orderNew

/-- A turn that throws had no effect, on a string it rejects. -/
theorem Turn.throws
    {raw : Bytes}
    {server : Server}
    {exception : Exception}
    {session : Session}
    (turn : Turn raw server (.error exception session)) :
    Rejects raw ∧ session = ⟨server, []⟩ := by
  cases turn with
  | rejected _ rejects => exact ⟨rejects, rfl⟩

/-! ## Runs -/

theorem served_nil : Served [] [] [] where
  inOrder := rfl
  answers := .nil
  noQuit := by simp

/-- One more string that gets its response. -/
theorem Served.concat
    {strings : List Bytes}
    {turns : List Processed}
    {sent : List Bytes}
    (served : Served strings turns sent)
    {req : Message}
    {turn : Processed}
    {response : Bytes}
    (answers : Answers req turn response)
    (noQuit : req.type ≠ .quit) :
    Served (strings ++ [turn.raw]) (turns ++ [turn]) (sent ++ [response]) where
  inOrder := by rw [List.map_append, served.inOrder, List.map_singleton]
  answers := List.rel_append served.answers (.cons ⟨req, answers⟩ .nil)
  noQuit := by
    intro string member
    rcases List.mem_append.mp member with earlier | last
    · exact served.noQuit string earlier
    · rw [List.mem_singleton.mp last]
      rintro ⟨other, decodes, quit⟩
      rw [answers.decodes] at decodes
      cases decodes
      exact noQuit quit

/-- A session that has stopped ignores what it is sent. -/
theorem Disciplined.ignore
    {strings : List Bytes}
    {turns : List Processed}
    {sent : List Bytes}
    (disciplined : Disciplined false strings turns sent)
    (raw : Bytes) :
    Disciplined false (strings ++ [raw]) turns sent := by
  cases disciplined with
  | quit strings ignored turns sent last req response served quits answers =>
      rw [List.append_assoc, List.cons_append]
      exact .quit strings (ignored ++ [raw]) turns sent last req response served quits answers
  | rejected strings ignored turns sent last served rejects silent noEffect =>
      rw [List.append_assoc, List.cons_append]
      exact .rejected strings (ignored ++ [raw]) turns sent last served rejects silent noEffect

/-- A running session answers the next string or stops. -/
theorem Disciplined.turn
    {strings : List Bytes}
    {turns : List Processed}
    {sent : List Bytes}
    (disciplined : Disciplined true strings turns sent)
    (raw : Bytes)
    (server : Server) :
    match (updateChat raw).run ⟨server, []⟩ with
    | .ok ends session =>
        Disciplined (!ends) (strings ++ [raw])
          (turns ++ [⟨raw, server, session.server, session.sent⟩]) (sent ++ session.sent)
    | .error _ session =>
        Disciplined false (strings ++ [raw])
          (turns ++ [⟨raw, server, session.server, session.sent⟩]) (sent ++ session.sent) := by
  have turn := turn_updateChat raw server
  cases disciplined with
  | running strings turns sent served =>
      cases result : (updateChat raw).run ⟨server, []⟩ with
      | ok ends session =>
          rw [result] at turn
          obtain ⟨req, response, only, answers, quits⟩ := turn.answers
          dsimp only
          rw [only] at answers ⊢
          cases ends with
          | false =>
              exact .running _ _ _ (served.concat answers (by simpa using quits))
          | true =>
              exact .quit strings [] turns sent _ req response served (by simpa using quits)
                answers
      | error exception session =>
          rw [result] at turn
          obtain ⟨rejects, rfl⟩ := turn.throws
          dsimp only
          rw [List.append_nil]
          exact .rejected strings [] turns sent ⟨raw, server, server, []⟩ served rejects
            rfl rfl

namespace World

/-- Every session is disciplined. -/
def Invariant (world : World Peer) : Prop :=
  ∀ peer, Disciplined (world.running peer) (world.received peer)
    (world.processed peer) (world.sent peer)

theorem Invariant.receive
    {world : World Peer}
    (invariant : Invariant world)
    (peer : Peer)
    (raw : Bytes) :
    Invariant (world.receive peer raw) := by
  intro other
  have disciplined := invariant other
  rw [World.receive]
  by_cases own : other = peer
  · subst own
    cases running : world.running other with
    | false =>
        rw [running] at disciplined
        simpa [running] using disciplined.ignore raw
    | true =>
        rw [running] at disciplined
        have turn := disciplined.turn raw world.server
        rw [if_pos rfl]
        cases result : (updateChat raw).run ⟨world.server, []⟩ with
        | ok ends session =>
            rw [result] at turn
            simpa [record] using turn
        | error exception session =>
            rw [result] at turn
            simpa [record] using turn
  · cases running : world.running peer with
    | false => simpa [own] using disciplined
    | true =>
        rw [if_pos rfl]
        cases (updateChat raw).run ⟨world.server, []⟩ with
        | ok ends session => simpa [record, own] using disciplined
        | error exception session => simpa [record, own] using disciplined

theorem Invariant.of_reachable
    {world : World Peer}
    (reachable : Reachable world) :
    Invariant world := by
  obtain ⟨server, steps⟩ := reachable
  induction steps with
  | refl =>
      intro peer
      exact .running [] [] [] served_nil
  | tail _ step inductionHypothesis =>
      cases step with
      | receive peer raw _ => exact inductionHypothesis.receive peer raw
      | elsewhere final _ => exact inductionHypothesis

end World

/-- However the sessions interleave, each of them is disciplined, and once it has
stopped nothing it is sent has an effect. -/
theorem sessions_disciplined
    {world : World Peer}
    (reachable : world.Reachable)
    (peer : Peer) :
    Disciplined (world.running peer) (world.received peer) (world.processed peer)
        (world.sent peer) ∧
      (world.running peer = false → ∀ raw,
        (world.receive peer raw).server = world.server ∧
          (world.receive peer raw).sent peer = world.sent peer) := by
  refine ⟨World.Invariant.of_reachable reachable peer, ?_⟩
  intro stopped raw
  rw [World.receive, stopped]
  exact ⟨rfl, rfl⟩

/-- One updater orders a tea, another one updates it, and the first one quits. -/
def twoUpdaters : World Bool :=
  (((World.initial .initial).receive true (ascii "ORDER_NEW|1,NEW,1:1:NEW:tea:1")).receive
    false (ascii "ITEM_UPDATE|1000|1|IN_PROGRESS")).receive true (ascii "QUIT|")

theorem reachable_twoUpdaters : twoUpdaters.Reachable :=
  ⟨.initial, .tail (.tail (.tail .refl (.receive true _ _)) (.receive false _ _))
    (.receive true _ _)⟩

theorem sessions_disciplined_twoUpdaters :
    Disciplined (twoUpdaters.running true) (twoUpdaters.received true)
      (twoUpdaters.processed true) (twoUpdaters.sent true) :=
  (sessions_disciplined reachable_twoUpdaters true).1

end Updater
end OrderTracking
