import OrderTracking.Server.History
import OrderTracking.Updater.Defs
import OrderTracking.Wire.Encode

/-!
# Deliveries requested by updaters

Whatever strings updater sessions send, each leads to at most one call of the
server. While every admitted order is sound, an order is delivered only after
the kitchen has made it.
-/

namespace OrderTracking
namespace Updater

/-! ## A turn makes at most one call -/

/-- The server a piece of a turn leaves behind. -/
def serverAfter (code : Code Session α) (session : Session) : Server :=
  match code.run session with
  | .ok _ final => final.server
  | .error _ final => final.server

/-- Sending keeps the server. -/
theorem serverAfter_sendMsg
    (msg : Message)
    (session : Session) :
    serverAfter (sendMsg msg) session = session.server := by
  rw [serverAfter, EStateM.run, sendMsg]
  cases (Wire.encode msg).run [] <;> rfl

theorem serverAfter_sendMsg_return
    (msg : Message)
    (ends : Bool)
    (session : Session) :
    serverAfter (do sendMsg msg; return ends) session = session.server := by
  have kept := serverAfter_sendMsg msg session
  unfold serverAfter at kept
  unfold serverAfter
  rw [EStateM.run_bind]
  cases result : (sendMsg msg).run session <;> rw [result] at kept <;> exact kept

/-- A call and the response to it change the server as the call does. -/
theorem serverAfter_call
    (code : Code Server α)
    (response : α → Message)
    (session : Session) :
    serverAfter (do
        let value ← call code
        sendMsg (response value)
        return false) session =
      match code.run session.server with
      | .ok _ server => server
      | .error _ server => server := by
  rw [serverAfter, EStateM.run_bind, EStateM.run, call]
  cases result : code.run session.server with
  | error exception server => rfl
  | ok value server =>
      exact serverAfter_sendMsg_return (response value) false ⟨server, session.sent⟩

/-- The server's part of handling a request is the call it leads to, if any. -/
theorem serverAfter_handle
    (req : Message)
    (session : Session) :
    serverAfter (handle req) session =
      Server.performAll session.server (operation req).toList := by
  unfold handle operation
  cases req.type with
  | quit => exact serverAfter_sendMsg_return _ _ _
  | orderNew =>
      cases req.order with
      | none => rfl
      | some order =>
          by_cases one : order.id = 1
          · simp only [one, ne_eq, not_true_eq_false, if_false, Order.duplicate_eq]
            rw [serverAfter_call, Server.createOrder_run]
            exact (Server.perform_createOrder order session.server).symm
          · simp only [one, ne_eq, not_false_eq_true, if_true]
            rfl
  | itemUpdate =>
      dsimp only
      rw [serverAfter_call, Option.toList_some, Server.performAll, replay_cons,
        replay_nil, Server.perform, Server.Operation.code, EStateM.run_bind]
      cases (Server.updateItem req.orderId req.itemId req.itemStatus).run
        session.server <;> rfl
  | orderUpdate =>
      dsimp only
      rw [serverAfter_call, Option.toList_some, Server.performAll, replay_cons,
        replay_nil, Server.perform, Server.Operation.code, EStateM.run_bind]
      cases (Server.updateOrder req.orderId req.orderStatus).run session.server <;>
        rfl
  | invalid => rfl
  | login => rfl
  | ok => rfl
  | error => rfl
  | dispOrder => rfl
  | dispItemUpdate => rfl
  | dispOrderUpdate => rfl
  | dispHeartbeat => rfl

/-- The server's part of a turn is the call the string leads to, if any. -/
theorem serve_eq
    (server : Server)
    (raw : Bytes) :
    serve server raw = Server.performAll server (request raw).toList := by
  rw [serve, EStateM.run, updateChat, request]
  cases (Wire.decode raw).run .empty with
  | error exception final => rfl
  | ok _ req =>
      have handled := serverAfter_handle req ⟨server, []⟩
      unfold serverAfter at handled
      dsimp only
      cases result : (handle req).run ⟨server, []⟩ with
      | ok ends final =>
          rw [result] at handled
          exact handled
      | error exception final =>
          rw [result] at handled
          cases exception with
          | semanticError what =>
              rw [← handled]
              exact serverAfter_sendMsg_return (.ofStr .error (ascii what)) false final
          | invalidMessage what => exact handled
          | ioException what => exact handled
          | protocolError what => exact handled
          | outOfRange => exact handled
          | invalidArgument => exact handled

/-- A run of turns is the run of the calls they lead to. -/
theorem serveAll_eq
    (server : Server)
    (raws : List Bytes) :
    serveAll server raws = Server.performAll server (raws.filterMap request) := by
  induction raws generalizing server with
  | nil => rfl
  | cons raw raws inductionHypothesis =>
      have rest := inductionHypothesis (serve server raw)
      rw [serveAll, replay_cons, ← serveAll, rest, serve_eq, List.filterMap_cons]
      cases request raw <;> rfl

/-! ## Deliveries -/

/-- Handling a string broadcasts that an order is delivered. -/
def Delivers (server : Server) (raw : Bytes) (orderId : Int32) : Prop :=
  ∃ messages, (serve server raw).broadcasts = server.broadcasts ++ messages ∧
    .ofOrderStatus .dispOrderUpdate orderId .delivered ∈ messages

/-- Whenever a string of a run delivers an order, the kitchen has made it. -/
def MadeFirst (raws : List Bytes) : Prop :=
  ∀ front raw back orderId, raws = front ++ raw :: back →
    Delivers (serveAll .initial front) raw orderId →
      ∃ order, (serveAll .initial front).myOrders.lookup orderId = some order ∧
        Server.Made orderId order (serveAll .initial front).broadcasts

/-- A turn that delivers an order found it done. -/
theorem Delivers.done
    {server : Server}
    {raw : Bytes}
    {orderId : Int32}
    (delivers : Delivers server raw orderId) :
    ∃ order, server.myOrders.lookup orderId = some order ∧ order.status = .done := by
  obtain ⟨messages, broadcasts, delivery⟩ := delivers
  rw [serve_eq] at broadcasts
  cases leads : request raw with
  | none =>
      rw [leads] at broadcasts
      exact (Server.Change.refused (.updateOrder orderId .delivered)
        server).done_of_delivery broadcasts delivery
  | some operation =>
      rw [leads] at broadcasts
      exact (Server.change_perform server operation).done_of_delivery broadcasts delivery

/-- While every admitted order is sound, nothing is delivered before the kitchen
has made it. -/
theorem madeFirst_of_sound
    {raws : List Bytes}
    (sound : ∀ raw ∈ raws, ∀ order,
      request raw = some (.createOrder order) → Server.Sound order) :
    MadeFirst raws := by
  rintro front raw back orderId rfl delivers
  obtain ⟨order, stored, done⟩ := delivers.done
  refine ⟨order, stored, ?_⟩
  have recorded : Server.Recorded (serveAll .initial front) := by
    rw [serveAll_eq]
    apply Server.recorded_performAll
    intro created member
    obtain ⟨earlier, isEarlier, leads⟩ := List.mem_filterMap.mp member
    exact sound earlier (List.mem_append_left _ isEarlier) created leads
  exact recorded.made stored done

/-- A request for one item that calls the order's status something. -/
def orderOne (status : OrderStatus) (valid : status ≠ .invalid) (desc : Bytes)
    (plain : Wire.Lacks [Wire.pipe, Wire.semicolon, Wire.colon] desc) : Wire.Sentence :=
  let one := Wire.Numeral.ofPositive 1 Wire.one_valid
  .order .orderNew Wire.isOrder_orderNew
    { id := one
      status := status
      valid := valid
      items :=
        [{ orderId := one, id := one, status := .new, valid := Wire.itemNew_valid,
           desc := desc, plain := plain, qty := one }]
      nonempty := by simp }

/-- A request for one tea. -/
def orderTea (status : OrderStatus) (valid : status ≠ .invalid) : Wire.Sentence :=
  orderOne status valid (ascii "tea") Wire.lacks_tea

/-- A request to update the tea of the first order. -/
def updateTea (status : ItemStatus) (valid : status ≠ .invalid) : Wire.Sentence :=
  .itemUpdate .itemUpdate (by decide) (.ofPositive 1000 (by decide))
    (.ofPositive 1 (by decide)) status valid

/-- A request to deliver the first order. -/
def deliverTea : Wire.Sentence :=
  .orderUpdate .orderUpdate (by decide) (.ofPositive 1000 (by decide)) .delivered
    (by decide)

/-- The call a sentence of the grammar leads to. -/
theorem request_print (sentence : Wire.Sentence) :
    request sentence.print = operation sentence.meaning := by
  rw [request, Wire.decode_print]

theorem request_deliverTea :
    request (ascii "ORDER_UPDATE|1000|DELIVERED") =
      some (.updateOrder 1000 .delivered) := by
  have sentence : ascii "ORDER_UPDATE|1000|DELIVERED" = deliverTea.print := by
    decide
  rw [sentence, request_print]
  rfl

/-- A tea is ordered and made. -/
def teaMade : List Bytes :=
  [ascii "ORDER_NEW|1,NEW,1:1:NEW:tea:1", ascii "ITEM_UPDATE|1000|1|IN_PROGRESS",
    ascii "ITEM_UPDATE|1000|1|DONE"]

theorem filterMap_request_teaMade :
    teaMade.filterMap request =
      [.createOrder ⟨1, .new, [⟨1, 1, .new, ascii "tea", 1⟩]⟩,
        .updateItem 1000 1 .inProgress, .updateItem 1000 1 .done] := by
  have sentences : teaMade =
      [(orderTea .new (by decide)).print, (updateTea .inProgress (by decide)).print,
        (updateTea .done (by decide)).print] := by
    decide
  rw [sentences]
  simp only [List.filterMap_cons, request_print]
  rfl

theorem madeFirst_teaMade :
    MadeFirst (teaMade ++ [ascii "ORDER_UPDATE|1000|DELIVERED"]) ∧
      Delivers (serveAll .initial teaMade) (ascii "ORDER_UPDATE|1000|DELIVERED")
        1000 := by
  constructor
  · apply madeFirst_of_sound
    intro raw member order leads
    have among : .createOrder order ∈
        (teaMade ++ [ascii "ORDER_UPDATE|1000|DELIVERED"]).filterMap request :=
      List.mem_filterMap.mpr ⟨raw, member, leads⟩
    simp only [List.filterMap_append, filterMap_request_teaMade, List.filterMap_cons,
      List.filterMap_nil, request_deliverTea] at among
    have isTea : order = ⟨1, .new, [⟨1, 1, .new, ascii "tea", 1⟩]⟩ := by
      simpa using among
    subst isTea
    refine ⟨by decide, Or.inr (Or.inr ⟨rfl, ?_⟩)⟩
    intro itemId item found
    have isItem := Order.findItem_mem found
    rw [List.mem_singleton] at isItem
    rw [isItem]
  · rw [serveAll_eq, filterMap_request_teaMade, Delivers]
    refine ⟨[.ofOrderStatus .dispOrderUpdate 1000 .delivered], ?_,
      List.mem_singleton.mpr rfl⟩
    rw [serve_eq, request_deliverTea]
    rfl

/-- A tea is ordered as done and delivered at once. -/
def teaNeverMade : List Bytes :=
  [ascii "ORDER_NEW|1,DONE,1:1:NEW:tea:1", ascii "ORDER_UPDATE|1000|DELIVERED"]

theorem teaNeverMade_not_madeFirst : ¬ MadeFirst teaNeverMade := by
  intro made
  have sentence : ascii "ORDER_NEW|1,DONE,1:1:NEW:tea:1" =
      (orderTea .done (by decide)).print := by
    decide
  have ordered : serveAll .initial [ascii "ORDER_NEW|1,DONE,1:1:NEW:tea:1"] =
      Server.performAll .initial
        [.createOrder ⟨1, .done, [⟨1, 1, .new, ascii "tea", 1⟩]⟩] := by
    rw [serveAll_eq, sentence]
    simp only [List.filterMap_cons, List.filterMap_nil, request_print]
    rfl
  have delivers : Delivers
      (serveAll .initial [ascii "ORDER_NEW|1,DONE,1:1:NEW:tea:1"])
      (ascii "ORDER_UPDATE|1000|DELIVERED") 1000 := by
    refine ⟨[.ofOrderStatus .dispOrderUpdate 1000 .delivered], ?_,
      List.mem_singleton.mpr rfl⟩
    rw [serve_eq, request_deliverTea, ordered]
    rfl
  obtain ⟨order, stored, kitchen⟩ := made _ _ [] 1000 rfl delivers
  rw [ordered] at stored
  obtain rfl : ⟨1000, .done, [⟨1000, 1, .new, ascii "tea", 1⟩]⟩ = order := by
    exact Option.some.inj stored
  cases kitchen.done _ (List.mem_singleton.mpr rfl)

end Updater
end OrderTracking
