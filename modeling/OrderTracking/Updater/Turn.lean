import OrderTracking.Updater.Defs
import OrderTracking.Wire.Encode

/-!
# One turn of an updater session

Everything a turn of the loop of `update_chat` can do with a received string: it
ends the session without a response, or it sends exactly one response after at most
one call of the server.
-/

namespace OrderTracking
namespace Updater

/-- The string that is sent for a message with a text. -/
def textOf (type : MessageType) (str : Bytes) : Bytes :=
  [Wire.pipe].intercalate [Wire.messageTypeToStr type, str]

/-- The requests that lead to a call of the server. -/
def Calls (type : MessageType) : Prop :=
  type = .orderNew ∨ type = .itemUpdate ∨ type = .orderUpdate

/-- The string does not decode, or not to a request. -/
def Rejects (raw : Bytes) : Prop :=
  ∀ req, (Wire.decode raw).run .empty = .ok () req →
    req.type ≠ .quit ∧ ¬ Calls req.type

/-- What a `SemanticError` says, of `update_chat` or of the server. -/
def refusals : List String :=
  ["ORDER_NEW missing order", "ORDER_NEW must have order id of 1"] ++ Server.refusals

/-- The outcomes of a turn, with what it sent. -/
inductive Turn (raw : Bytes) (server : Server) :
    EStateM.Result Exception Session Bool → Prop
  | rejected (exception : Exception)
      (rejects : Rejects raw) :
      Turn raw server (.error exception ⟨server, []⟩)
  | quit (req : Message)
      (decodes : (Wire.decode raw).run .empty = .ok () req)
      (type : req.type = .quit) :
      Turn raw server (.ok true ⟨server, [textOf .ok (ascii "goodbye")]⟩)
  | refused (req : Message) (what : String)
      (decodes : (Wire.decode raw).run .empty = .ok () req)
      (calls : Calls req.type)
      (known : what ∈ refusals) :
      Turn raw server (.ok false ⟨server, [textOf .error (ascii what)]⟩)
  | created (req : Message) (order : Order)
      (decodes : (Wire.decode raw).run .empty = .ok () req)
      (type : req.type = .orderNew)
      (given : req.order = some order)
      (one : order.id = 1) :
      Turn raw server (.ok false ⟨server.created order,
        [textOf .ok (ascii "Created order id " ++ Cxx.toString server.nextOrderId)]⟩)
  | itemUpdated (req : Message) (order : Order) (item : Item)
      (decodes : (Wire.decode raw).run .empty = .ok () req)
      (type : req.type = .itemUpdate)
      (stored : server.myOrders.lookup req.orderId = some order)
      (found : order.findItem req.itemId = some item)
      (allowed : Server.ItemStep item.status req.itemStatus) :
      Turn raw server (.ok false
        ⟨server.itemUpdated req.orderId req.itemId req.itemStatus order,
          [textOf .ok (ascii "successful item update")]⟩)
  | delivered (req : Message) (order : Order)
      (decodes : (Wire.decode raw).run .empty = .ok () req)
      (type : req.type = .orderUpdate)
      (stored : server.myOrders.lookup req.orderId = some order)
      (done : order.status = .done)
      (deliver : req.orderStatus = .delivered) :
      Turn raw server (.ok false ⟨server.delivered req.orderId,
        [textOf .ok (ascii "successful order update")]⟩)

/-- Sending a text succeeds. -/
theorem sendMsg_text
    {type : MessageType}
    (kind : Message.IsText type)
    (str : Bytes)
    (session : Session) :
    (sendMsg (.ofStr type str)).run session =
      .ok () { session with sent := session.sent ++ [textOf type str] } := by
  rw [EStateM.run, sendMsg, Wire.encode_text kind]
  rfl

/-- Send a text and return. -/
theorem sendMsg_text_return
    {type : MessageType}
    (kind : Message.IsText type)
    (str : Bytes)
    (ends : Bool)
    (session : Session) :
    (do sendMsg (.ofStr type str); return ends : Code Session Bool).run session =
      .ok ends { session with sent := session.sent ++ [textOf type str] } := by
  rw [EStateM.run_bind, sendMsg_text kind]
  rfl

/-- A call that returns is followed by the response. -/
theorem call_run_ok
    {code : Code Server α}
    {value : α}
    {server final : Server}
    (ran : code.run server = .ok value final)
    (next : α → Code Session Bool) :
    (call code >>= next).run ⟨server, []⟩ = (next value).run ⟨final, []⟩ := by
  rw [EStateM.run_bind, EStateM.run, call, ran]

/-- A call that throws is followed by nothing. -/
theorem call_run_error
    {code : Code Server α}
    {exception : Exception}
    {server final : Server}
    (ran : code.run server = .error exception final)
    (next : α → Code Session Bool) :
    (call code >>= next).run ⟨server, []⟩ = .error exception ⟨final, []⟩ := by
  rw [EStateM.run_bind, EStateM.run, call, ran]

/-- A turn on a decoded request handles it, and responds to a `SemanticError`. -/
theorem updateChat_run_of_handle
    {raw : Bytes}
    {req : Message}
    {server final : Server}
    {sent : List Bytes}
    {ends : Bool}
    (decodes : (Wire.decode raw).run .empty = .ok () req)
    (handled : (handle req).run ⟨server, []⟩ = .ok ends ⟨final, sent⟩) :
    (updateChat raw).run ⟨server, []⟩ = .ok ends ⟨final, sent⟩ := by
  rw [EStateM.run, updateChat, decodes]
  dsimp only
  rw [handled]

theorem updateChat_run_of_refused
    {raw : Bytes}
    {req : Message}
    {what : String}
    {server : Server}
    (decodes : (Wire.decode raw).run .empty = .ok () req)
    (refused : (handle req).run ⟨server, []⟩ =
      .error (.semanticError what) ⟨server, []⟩) :
    (updateChat raw).run ⟨server, []⟩ =
      .ok false ⟨server, [textOf .error (ascii what)]⟩ := by
  rw [EStateM.run, updateChat, decodes]
  dsimp only
  rw [refused]
  exact sendMsg_text_return (Or.inr (Or.inr rfl)) (ascii what) false ⟨server, []⟩

/-- A turn on any other request ends the session. -/
theorem turn_of_unexpected
    {raw : Bytes}
    {req : Message}
    {server : Server}
    (decodes : (Wire.decode raw).run .empty = .ok () req)
    (noQuit : req.type ≠ .quit)
    (noCall : ¬ Calls req.type) :
    Turn raw server ((updateChat raw).run ⟨server, []⟩) := by
  have handled : (handle req).run ⟨server, []⟩ =
      .error (.protocolError "unexpected message type from updater") ⟨server, []⟩ := by
    unfold handle
    unfold Calls at noCall
    cases type : req.type <;> simp_all <;> rfl
  have ran : (updateChat raw).run ⟨server, []⟩ =
      .error (.protocolError "unexpected message type from updater") ⟨server, []⟩ := by
    rw [EStateM.run, updateChat, decodes]
    dsimp only
    rw [handled]
  rw [ran]
  refine .rejected _ ?_
  intro other otherDecodes
  rw [decodes] at otherDecodes
  cases otherDecodes
  exact ⟨noQuit, noCall⟩

/-- A turn on the request to quit. -/
theorem updateChat_run_quit
    {raw : Bytes}
    {req : Message}
    (decodes : (Wire.decode raw).run .empty = .ok () req)
    (type : req.type = .quit)
    (server : Server) :
    (updateChat raw).run ⟨server, []⟩ =
      .ok true ⟨server, [textOf .ok (ascii "goodbye")]⟩ := by
  apply updateChat_run_of_handle decodes
  unfold handle
  rw [type]
  exact sendMsg_text_return (Or.inr (Or.inl rfl)) _ true ⟨server, []⟩

theorem turn_of_quit
    {raw : Bytes}
    {req : Message}
    {server : Server}
    (decodes : (Wire.decode raw).run .empty = .ok () req)
    (type : req.type = .quit) :
    Turn raw server ((updateChat raw).run ⟨server, []⟩) := by
  rw [updateChat_run_quit decodes type]
  exact .quit req decodes type

/-- A turn on a request for an order with the order id 1. -/
theorem updateChat_run_created
    {raw : Bytes}
    {req : Message}
    {order : Order}
    (decodes : (Wire.decode raw).run .empty = .ok () req)
    (type : req.type = .orderNew)
    (given : req.order = some order)
    (one : order.id = 1)
    (server : Server) :
    (updateChat raw).run ⟨server, []⟩ = .ok false ⟨server.created order,
      [textOf .ok (ascii "Created order id " ++ Cxx.toString server.nextOrderId)]⟩ := by
  apply updateChat_run_of_handle decodes
  unfold handle
  rw [type, given]
  simp only [one, ne_eq, not_true_eq_false, if_false, Order.duplicate_eq]
  rw [call_run_ok (Server.createOrder_run order server)]
  exact sendMsg_text_return (Or.inr (Or.inl rfl)) _ false ⟨server.created order, []⟩

theorem turn_of_orderNew
    {raw : Bytes}
    {req : Message}
    {server : Server}
    (decodes : (Wire.decode raw).run .empty = .ok () req)
    (type : req.type = .orderNew) :
    Turn raw server ((updateChat raw).run ⟨server, []⟩) := by
  have calls : Calls req.type := Or.inl type
  cases given : req.order with
  | none =>
      have refused : (handle req).run ⟨server, []⟩ =
          .error (.semanticError "ORDER_NEW missing order") ⟨server, []⟩ := by
        unfold handle
        rw [type, given]
        rfl
      rw [updateChat_run_of_refused decodes refused]
      exact .refused req _ decodes calls (by simp [refusals])
  | some order =>
      by_cases one : order.id = 1
      · rw [updateChat_run_created decodes type given one]
        exact .created req order decodes type given one
      · have refused : (handle req).run ⟨server, []⟩ =
            .error (.semanticError "ORDER_NEW must have order id of 1") ⟨server, []⟩ := by
          unfold handle
          rw [type, given]
          simp only [one, ne_eq, not_false_eq_true, if_true]
          rfl
        rw [updateChat_run_of_refused decodes refused]
        exact .refused req _ decodes calls (by simp [refusals])

theorem turn_of_itemUpdate
    {raw : Bytes}
    {req : Message}
    {server : Server}
    (decodes : (Wire.decode raw).run .empty = .ok () req)
    (type : req.type = .itemUpdate) :
    Turn raw server ((updateChat raw).run ⟨server, []⟩) := by
  by_cases accepted : ∃ order item, server.myOrders.lookup req.orderId = some order ∧
      order.findItem req.itemId = some item ∧ Server.ItemStep item.status req.itemStatus
  · obtain ⟨order, item, stored, found, allowed⟩ := accepted
    have handled : (handle req).run ⟨server, []⟩ =
        .ok false ⟨server.itemUpdated req.orderId req.itemId req.itemStatus order,
          [textOf .ok (ascii "successful item update")]⟩ := by
      unfold handle
      rw [type]
      dsimp only
      rw [call_run_ok (Server.updateItem_run stored found allowed)]
      exact sendMsg_text_return (Or.inr (Or.inl rfl)) _ false ⟨_, []⟩
    rw [updateChat_run_of_handle decodes handled]
    exact .itemUpdated req order item decodes type stored found allowed
  · obtain ⟨what, known, thrown⟩ := Server.updateItem_run_refusal accepted
    have refused : (handle req).run ⟨server, []⟩ =
        .error (.semanticError what) ⟨server, []⟩ := by
      unfold handle
      rw [type]
      exact call_run_error thrown _
    rw [updateChat_run_of_refused decodes refused]
    exact .refused req what decodes (Or.inr (Or.inl type)) (List.mem_append_right _ known)

theorem turn_of_orderUpdate
    {raw : Bytes}
    {req : Message}
    {server : Server}
    (decodes : (Wire.decode raw).run .empty = .ok () req)
    (type : req.type = .orderUpdate) :
    Turn raw server ((updateChat raw).run ⟨server, []⟩) := by
  by_cases accepted : (∃ order, server.myOrders.lookup req.orderId = some order ∧
      order.status = .done) ∧ req.orderStatus = .delivered
  · obtain ⟨⟨order, stored, done⟩, deliver⟩ := accepted
    have handled : (handle req).run ⟨server, []⟩ =
        .ok false ⟨server.delivered req.orderId,
          [textOf .ok (ascii "successful order update")]⟩ := by
      unfold handle
      rw [type, deliver]
      dsimp only
      rw [call_run_ok (Server.updateOrder_run stored done)]
      exact sendMsg_text_return (Or.inr (Or.inl rfl)) _ false ⟨_, []⟩
    rw [updateChat_run_of_handle decodes handled]
    exact .delivered req order decodes type stored done deliver
  · obtain ⟨what, known, thrown⟩ := Server.updateOrder_run_refusal accepted
    have refused : (handle req).run ⟨server, []⟩ =
        .error (.semanticError what) ⟨server, []⟩ := by
      unfold handle
      rw [type]
      exact call_run_error thrown _
    rw [updateChat_run_of_refused decodes refused]
    exact .refused req what decodes (Or.inr (Or.inr type)) (List.mem_append_right _ known)

/-- Every turn has one of the outcomes. -/
theorem turn_updateChat
    (raw : Bytes)
    (server : Server) :
    Turn raw server ((updateChat raw).run ⟨server, []⟩) := by
  cases decodes : (Wire.decode raw).run .empty with
  | error exception msg =>
      have ran : (updateChat raw).run ⟨server, []⟩ = .error exception ⟨server, []⟩ := by
        rw [EStateM.run, updateChat, decodes]
      rw [ran]
      refine .rejected exception ?_
      intro req otherDecodes
      rw [decodes] at otherDecodes
      cases otherDecodes
  | ok _ req =>
      by_cases quits : req.type = .quit
      · exact turn_of_quit decodes quits
      · by_cases calls : Calls req.type
        · rcases calls with type | type | type
          · exact turn_of_orderNew decodes type
          · exact turn_of_itemUpdate decodes type
          · exact turn_of_orderUpdate decodes type
        · exact turn_of_unexpected decodes quits calls

end Updater
end OrderTracking
