import OrderTracking.Server.Life

/-!
# Order life-cycles in the broadcasts

For every id, what was broadcast about it and whether an order is stored under it
agree: nothing was broadcast before the id was given out, the stored order is
where the broadcasts lead, and after a delivery there is none.
-/

namespace OrderTracking
namespace Server

/-- The message is about the order with this id. -/
def mentions (orderId : Int32) (message : Message) : Bool :=
  match message.type with
  | .dispOrder => message.order.any fun order => order.id = orderId
  | .dispItemUpdate | .dispOrderUpdate => message.orderId = orderId
  | _ => false

/-- The broadcasts about the order with this id. -/
def trace (orderId : Int32) (server : Server) : List Message :=
  server.broadcasts.filter (mentions orderId)

/-- The id was given to an order. -/
def GivenOut (server : Server) (orderId : Int32) : Prop :=
  1000 ≤ orderId ∧ orderId < server.nextOrderId

/-- Where an order id is in its life. -/
inductive Phase (server : Server) (orderId : Int32) : Prop
  | unborn
      (silent : server.trace orderId = [])
      (absent : server.myOrders.lookup orderId = none)
      (notGivenOut : ¬ server.GivenOut orderId)
  | alive (first order : Order) (messages : List Message)
      (traced : server.trace orderId =
        .ofOrder .dispOrder (some first) :: messages)
      (own : first.id = orderId)
      (life : Life orderId first messages order)
      (stored : server.myOrders.lookup orderId = some order)
      (givenOut : server.GivenOut orderId)
  | gone (first order : Order) (messages : List Message)
      (traced : server.trace orderId =
        .ofOrder .dispOrder (some first) ::
          (messages ++ [.ofOrderStatus .dispOrderUpdate orderId .delivered]))
      (own : first.id = orderId)
      (life : Life orderId first messages order)
      (done : order.status = .done)
      (absent : server.myOrders.lookup orderId = none)
      (givenOut : server.GivenOut orderId)

/-! ## What a change adds to a trace -/

theorem trace_created_self
    (order : Order)
    (server : Server) :
    (server.created order).trace server.nextOrderId =
      server.trace server.nextOrderId ++
        [.ofOrder .dispOrder (some (assigned server.nextOrderId order))] := by
  simp [trace, mentions, Message.ofOrder, assigned, Order.setItemOrderIds, Order.setId]

theorem trace_created_other
    {server : Server}
    {orderId : Int32}
    (other : orderId ≠ server.nextOrderId)
    (order : Order) :
    (server.created order).trace orderId = server.trace orderId := by
  simp [trace, mentions, Message.ofOrder, assigned, Order.setItemOrderIds,
    Order.setId, other.symm]

theorem trace_itemUpdated_self
    (orderId itemId : Int32)
    (newStatus : ItemStatus)
    (order : Order)
    (server : Server) :
    (server.itemUpdated orderId itemId newStatus order).trace orderId =
      server.trace orderId ++ itemUpdateMessages orderId itemId newStatus order := by
  have all : ∀ message ∈ itemUpdateMessages orderId itemId newStatus order,
      mentions orderId message = true := by
    intro message member
    rcases mem_itemUpdateMessages member with rfl | ⟨-, rfl⟩
    · simp [mentions, Message.ofItemStatus]
    · simp [mentions, Message.ofOrderStatus]
  rw [trace, itemUpdated_broadcasts, List.filter_append, List.filter_eq_self.mpr all]
  rfl

theorem trace_itemUpdated_other
    {orderId other : Int32}
    (different : other ≠ orderId)
    (itemId : Int32)
    (newStatus : ItemStatus)
    (order : Order)
    (server : Server) :
    (server.itemUpdated orderId itemId newStatus order).trace other =
      server.trace other := by
  have none : ∀ message ∈ itemUpdateMessages orderId itemId newStatus order,
      ¬ mentions other message = true := by
    intro message member
    rcases mem_itemUpdateMessages member with rfl | ⟨-, rfl⟩
    · simp [mentions, Message.ofItemStatus, different.symm]
    · simp [mentions, Message.ofOrderStatus, different.symm]
  rw [trace, itemUpdated_broadcasts, List.filter_append, List.filter_eq_nil_iff.mpr none,
    List.append_nil]
  rfl

theorem trace_delivered_self
    (orderId : Int32)
    (server : Server) :
    (server.delivered orderId).trace orderId =
      server.trace orderId ++
        [.ofOrderStatus .dispOrderUpdate orderId .delivered] := by
  simp [trace, mentions, Message.ofOrderStatus]

theorem trace_delivered_other
    {orderId other : Int32}
    (different : other ≠ orderId)
    (server : Server) :
    (server.delivered orderId).trace other = server.trace other := by
  simp [trace, mentions, Message.ofOrderStatus, different.symm]

/-! ## The phases of all ids -/

/-- An id that a change does not concern keeps its phase. -/
theorem Phase.keep
    {server final : Server}
    {orderId : Int32}
    (phase : Phase server orderId)
    (sameTrace : final.trace orderId = server.trace orderId)
    (sameOrder : final.myOrders.lookup orderId = server.myOrders.lookup orderId)
    (sameIds : final.GivenOut orderId ↔ server.GivenOut orderId) :
    Phase final orderId := by
  cases phase with
  | unborn silent absent notGivenOut =>
      exact .unborn (sameTrace.trans silent) (sameOrder.trans absent)
        (fun givenOut => notGivenOut (sameIds.mp givenOut))
  | alive first order messages traced own life stored givenOut =>
      exact .alive first order messages (sameTrace.trans traced) own life
        (sameOrder.trans stored) (sameIds.mpr givenOut)
  | gone first order messages traced own life done absent givenOut =>
      exact .gone first order messages (sameTrace.trans traced) own life done
        (sameOrder.trans absent) (sameIds.mpr givenOut)

/-- The next id was not given out, so the order created under it begins its life. -/
theorem Phase.created
    {server : Server}
    (phase : Phase server server.nextOrderId)
    (order : Order)
    (started : 1000 ≤ server.nextOrderId)
    (room : server.nextOrderId < server.nextOrderId + 1) :
    Phase (server.created order) server.nextOrderId := by
  cases phase with
  | unborn silent absent notGivenOut =>
      refine .alive (assigned server.nextOrderId order) _ [] ?_ rfl .created ?_ ?_
      · rw [trace_created_self, silent, List.nil_append]
      · rw [created_myOrders, Finmap.lookup_insert]
      · exact ⟨started, by rwa [created_nextOrderId]⟩
  | alive first stored messages traced own life stored givenOut =>
      exact absurd givenOut.2 Int32.lt_irrefl
  | gone first stored messages traced own life done absent givenOut =>
      exact absurd givenOut.2 Int32.lt_irrefl

/-- An order that is stored is alive. -/
theorem Phase.of_stored
    {server : Server}
    {orderId : Int32}
    {order : Order}
    (phase : Phase server orderId)
    (stored : server.myOrders.lookup orderId = some order) :
    ∃ first messages,
      server.trace orderId = .ofOrder .dispOrder (some first) :: messages ∧
        first.id = orderId ∧ Life orderId first messages order ∧
        server.GivenOut orderId := by
  cases phase with
  | unborn silent absent notGivenOut =>
      rw [absent] at stored
      cases stored
  | alive first current messages traced own life currentStored givenOut =>
      rw [currentStored, Option.some.injEq] at stored
      subst stored
      exact ⟨first, messages, traced, own, life, givenOut⟩
  | gone first current messages traced own life done absent givenOut =>
      rw [absent] at stored
      cases stored

/-- The order an item update concerns lives on. -/
theorem Phase.itemUpdated
    {server : Server}
    {orderId itemId : Int32}
    {newStatus : ItemStatus}
    {order : Order}
    {item : Item}
    (phase : Phase server orderId)
    (stored : server.myOrders.lookup orderId = some order)
    (found : order.findItem itemId = some item)
    (allowed : ItemStep item.status newStatus) :
    Phase (server.itemUpdated orderId itemId newStatus order) orderId := by
  obtain ⟨first, messages, traced, own, life, givenOut⟩ := phase.of_stored stored
  refine .alive first (itemUpdatedOrder itemId newStatus order)
    (messages ++ itemUpdateMessages orderId itemId newStatus order)
    ?_ own (life.update found allowed) ?_ ?_
  · rw [trace_itemUpdated_self, traced, List.cons_append]
  · rw [itemUpdated_myOrders, Finmap.lookup_insert]
  · simpa [GivenOut] using givenOut

/-- The order that is delivered was done, and is gone. -/
theorem Phase.delivered
    {server : Server}
    {orderId : Int32}
    {order : Order}
    (phase : Phase server orderId)
    (stored : server.myOrders.lookup orderId = some order)
    (done : order.status = .done) :
    Phase (server.delivered orderId) orderId := by
  obtain ⟨first, messages, traced, own, life, givenOut⟩ := phase.of_stored stored
  refine .gone first order messages ?_ own life done ?_ ?_
  · rw [trace_delivered_self, traced, List.cons_append]
  · rw [delivered_myOrders, Finmap.lookup_erase]
  · simpa [GivenOut] using givenOut

/-- What one call preserves. -/
theorem phase_of_change
    {operation : Operation}
    {server final : Server}
    (phases : ∀ orderId, Phase server orderId)
    (change : Change operation server final)
    (started : 1000 ≤ server.nextOrderId)
    (room : operation.creates → server.nextOrderId < server.nextOrderId + 1)
    (orderId : Int32) :
    Phase final orderId := by
  cases change with
  | refused => exact phases orderId
  | created order =>
      have room := room rfl
      by_cases own : orderId = server.nextOrderId
      · subst own
        exact (phases server.nextOrderId).created order started room
      · refine (phases orderId).keep (trace_created_other own order) ?_ ?_
        · rw [created_myOrders, Finmap.lookup_insert_of_ne _ own]
        · have next := toInt_succ room
          have different : orderId.toInt ≠ server.nextOrderId.toInt :=
            fun same => own (Int32.toInt_inj.mp same)
          apply and_congr_right
          intro lower
          rw [created_nextOrderId, Int32.lt_iff_toInt_lt, Int32.lt_iff_toInt_lt, next]
          omega
  | itemUpdated updatedId itemId newStatus order item _ stored found allowed =>
      by_cases own : orderId = updatedId
      · subst own
        exact (phases orderId).itemUpdated stored found allowed
      · refine (phases orderId).keep (trace_itemUpdated_other own _ _ _ _) ?_ ?_
        · rw [itemUpdated_myOrders, Finmap.lookup_insert_of_ne _ own]
        · simp [GivenOut]
  | delivered deliveredId order _ stored done =>
      by_cases own : orderId = deliveredId
      · subst own
        exact (phases orderId).delivered stored done
      · refine (phases orderId).keep (trace_delivered_other own _) ?_ ?_
        · rw [delivered_myOrders, Finmap.lookup_erase_ne own]
        · simp [GivenOut]

theorem le_nextOrderId
    {operations : List Operation}
    (few : creations operations < 2 ^ 31 - 1000) :
    1000 ≤ (performAll initial operations).nextOrderId := by
  have thousand : (1000 : Int32).toInt = 1000 := by decide
  rw [Int32.le_iff_toInt_le, toInt_nextOrderId_performAll few, thousand]
  omega

/-- In every run, every id is in some phase of its life. -/
theorem phase_performAll
    {operations : List Operation}
    (few : creations operations < 2 ^ 31 - 1000)
    (orderId : Int32) :
    Phase (performAll initial operations) orderId := by
  induction operations using List.reverseRecOn generalizing orderId with
  | nil =>
      refine .unborn rfl rfl ?_
      rintro ⟨lower, upper⟩
      exact Int32.lt_irrefl (Int32.lt_of_le_of_lt lower upper)
  | append_singleton operations operation inductionHypothesis =>
      rw [creations_concat] at few
      rw [performAll_concat]
      refine phase_of_change (fun other => inductionHypothesis (by omega) other)
        (change_perform _ operation) (le_nextOrderId (by omega)) ?_ orderId
      intro creates
      rw [creates, if_pos rfl] at few
      exact nextOrderId_lt_succ few

/-! ## The life-cycle of an order -/

/-- What the broadcasts about an order look like: none, or the order itself
followed by updates that move its status and the statuses of its items forward,
with a delivery at the end if there is one. -/
def LifeCycle (orderId : Int32) (messages : List Message) : Prop :=
  messages = [] ∨
    ∃ first later, messages = .ofOrder .dispOrder (some first) :: later ∧
      first.id = orderId ∧
      (∀ message ∈ later,
        message.type = .dispItemUpdate ∨ message.type = .dispOrderUpdate) ∧
      Increasing (first.status :: orderStatuses later) ∧
      (∀ itemId,
        match first.findItem itemId with
        | some item => Successive (item.status :: itemStatuses itemId later)
        | none => itemStatuses itemId later = []) ∧
      ∀ before after,
        later = before ++ .ofOrderStatus .dispOrderUpdate orderId .delivered :: after →
        after = []

theorem Life.itemStatuses_cases
    {orderId : Int32}
    {first order : Order}
    {messages : List Message}
    (life : Life orderId first messages order)
    (itemId : Int32) :
    match first.findItem itemId with
    | some item => Successive (item.status :: itemStatuses itemId messages)
    | none => itemStatuses itemId messages = [] := by
  cases found : first.findItem itemId with
  | none => exact (life.itemStatuses_eq_nil found).2
  | some item =>
      obtain ⟨-, -, successive, -⟩ := life.itemStatuses_succeed found
      exact successive

theorem lifeCycle_of_phase
    {server : Server}
    {orderId : Int32}
    (phase : Phase server orderId) :
    LifeCycle orderId (server.trace orderId) := by
  cases phase with
  | unborn silent => exact Or.inl silent
  | alive first order messages traced own life stored givenOut =>
      right
      refine ⟨first, messages, traced, own, ?_, life.orderStatuses_increase.1,
        life.itemStatuses_cases, ?_⟩
      · exact fun message member => (life.messages_are_updates message member).1
      · rintro before after rfl
        exact absurd rfl (life.messages_are_updates _ (by simp)).2
  | gone first order messages traced own life done absent givenOut =>
      obtain ⟨increasing, last⟩ := life.orderStatuses_increase
      right
      refine ⟨first, _, traced, own, ?_, ?_, ?_, ?_⟩
      · intro message member
        rcases List.mem_append.mp member with old | new
        · exact (life.messages_are_updates message old).1
        · rw [List.mem_singleton] at new
          rw [new]
          exact Or.inr rfl
      · rw [orderStatuses_append, orderStatuses_orderUpdate, ← List.cons_append]
        refine isChain_concat increasing last ?_
        rw [done]
        decide
      · intro itemId
        simpa using life.itemStatuses_cases itemId
      · intro before after split
        rcases List.eq_nil_or_concat after with rfl | ⟨front, final, rfl⟩
        · rfl
        · rw [List.concat_eq_append, ← List.cons_append, ← List.append_assoc] at split
          have inMessages := (List.append_inj' split rfl).1
          exact absurd rfl (life.messages_are_updates
            (.ofOrderStatus .dispOrderUpdate orderId .delivered)
            (by rw [inMessages]; simp)).2

/-- Once an order was delivered, no update of it succeeds. -/
theorem absent_of_delivered
    {server : Server}
    {orderId : Int32}
    (phase : Phase server orderId)
    (delivered : .ofOrderStatus .dispOrderUpdate orderId .delivered ∈
      server.broadcasts) :
    server.myOrders.lookup orderId = none := by
  have inTrace : .ofOrderStatus .dispOrderUpdate orderId .delivered ∈
      server.trace orderId := by
    rw [trace, List.mem_filter]
    exact ⟨delivered, by simp [mentions, Message.ofOrderStatus]⟩
  cases phase with
  | unborn silent absent => exact absent
  | alive first order messages traced own life stored givenOut =>
      rw [traced, List.mem_cons] at inTrace
      rcases inTrace with created | later
      · cases created
      · exact absurd rfl (life.messages_are_updates _ later).2
  | gone first order messages traced own life done absent => exact absent

/-! ## Created ids -/

/-- The id a call returns, if it is one that returns an id. -/
def returned (server : Server) (operation : Operation) : Option Int32 :=
  match operation.code.run server with
  | .ok orderId _ => orderId
  | .error _ _ => none

/-- The ids returned by the calls of a run. -/
def createdIds (server : Server) : List Operation → List Int32
  | [] => []
  | operation :: operations =>
      (returned server operation).toList ++
        createdIds (perform server operation) operations

theorem createdIds_concat
    (server : Server)
    (operations : List Operation)
    (operation : Operation) :
    createdIds server (operations ++ [operation]) =
      createdIds server operations ++
        (returned (performAll server operations) operation).toList := by
  induction operations generalizing server with
  | nil => simp [createdIds]
  | cons first operations inductionHypothesis =>
      simp only [List.cons_append, createdIds, List.append_assoc]
      rw [inductionHypothesis]
      rfl

theorem returned_eq
    (server : Server)
    (operation : Operation) :
    returned server operation =
      if operation.creates then some server.nextOrderId else none := by
  cases operation with
  | createOrder order =>
      simp only [returned, Operation.code, EStateM.run_bind, createOrder_run,
        EStateM.run_pure]
      rfl
  | updateItem orderId itemId newStatus =>
      simp only [returned, Operation.code, EStateM.run_bind]
      cases (updateItem orderId itemId newStatus).run server <;> rfl
  | updateOrder orderId newStatus =>
      simp only [returned, Operation.code, EStateM.run_bind]
      cases (updateOrder orderId newStatus).run server <;> rfl

/-- A run returns consecutive ids. -/
theorem createdIds_eq (operations : List Operation) :
    createdIds initial operations =
      (List.range (creations operations)).map fun n : Nat => Int32.ofInt (1000 + n) := by
  induction operations using List.reverseRecOn with
  | nil => rfl
  | append_singleton operations operation inductionHypothesis =>
      rw [createdIds_concat, inductionHypothesis, returned_eq,
        nextOrderId_performAll, creations_concat]
      cases operation.creates with
      | false => simp
      | true => simp [List.range_succ]

theorem nodup_createdIds
    {operations : List Operation}
    (few : creations operations < 2 ^ 31 - 1000) :
    (createdIds initial operations).Nodup := by
  rw [createdIds_eq]
  refine List.Nodup.map_on ?_ List.nodup_range
  intro left leftSmall right rightSmall same
  rw [List.mem_range] at leftSmall rightSmall
  have sameInt := congrArg Int32.toInt same
  rw [Int32.toInt_ofInt_of_le (by omega) (by omega),
    Int32.toInt_ofInt_of_le (by omega) (by omega)] at sameInt
  omega

/-- In every run, whatever orders are created and whatever calls succeed or fail,
the broadcasts about every id are a life-cycle, after a delivery every update of
the order throws `SemanticError`, and all returned ids differ. -/
theorem order_lifeCycle
    {operations : List Operation}
    (few : creations operations < 2 ^ 31 - 1000) :
    (∀ orderId,
      LifeCycle orderId ((performAll initial operations).trace orderId) ∧
      (.ofOrderStatus .dispOrderUpdate orderId .delivered ∈
          (performAll initial operations).broadcasts →
        (∀ itemId newStatus, ∃ what,
          (updateItem orderId itemId newStatus).run (performAll initial operations) =
            .error (.semanticError what) (performAll initial operations)) ∧
        ∀ newStatus, ∃ what,
          (updateOrder orderId newStatus).run (performAll initial operations) =
            .error (.semanticError what) (performAll initial operations))) ∧
    (createdIds initial operations).Nodup := by
  refine ⟨fun orderId => ?_, nodup_createdIds few⟩
  have phase := phase_performAll few orderId
  refine ⟨lifeCycle_of_phase phase, fun delivered => ?_⟩
  have absent := absent_of_delivered phase delivered
  constructor
  · intro itemId newStatus
    apply updateItem_run_refused
    rintro ⟨order, item, stored, -⟩
    rw [absent] at stored
    cases stored
  · intro newStatus
    apply updateOrder_run_refused
    rintro ⟨⟨order, stored, -⟩, -⟩
    rw [absent] at stored
    cases stored

/-- A soup is ordered, cooked and delivered. -/
def soupDelivered : List Operation :=
  [.createOrder ⟨1, .new, [⟨1, 1, .new, ascii "soup", 2⟩]⟩,
    .updateItem 1000 1 .inProgress, .updateItem 1000 1 .done,
    .updateOrder 1000 .delivered]

theorem order_lifeCycle_soup :
    LifeCycle 1000 ((performAll initial soupDelivered).trace 1000) ∧
      ∃ what, (updateOrder 1000 .delivered).run (performAll initial soupDelivered) =
        .error (.semanticError what) (performAll initial soupDelivered) := by
  have lifeCycle := (order_lifeCycle
    (show creations soupDelivered < 2 ^ 31 - 1000 by decide)).1 1000
  exact ⟨lifeCycle.1, (lifeCycle.2 (by decide)).2 .delivered⟩

end Server
end OrderTracking
