import OrderTracking.Display.Defs
import OrderTracking.Server.Life

/-!
# The display as a replica

A display applies the messages it receives to its map of orders. The messages
overwrite, each acts on one order, and what the server broadcasts is exactly what
happened to its own map of orders.
-/

namespace OrderTracking
namespace Display

/-! ## The effect of a message -/

/-- Messages a display accepts. -/
inductive Shown : Message → Prop
  | heartbeat : Shown (.ofType .dispHeartbeat)
  | order (order : Order) : Shown (.ofOrder .dispOrder (some order))
  | itemUpdate (orderId itemId : Int32) (status : ItemStatus) :
      Shown (.ofItemStatus .dispItemUpdate orderId itemId status)
  | orderUpdate (orderId : Int32) (status : OrderStatus) :
      Shown (.ofOrderStatus .dispOrderUpdate orderId status)

/-- The id of the order a message is about. -/
def subject (msg : Message) : Int32 :=
  match msg.order with
  | none => msg.orderId
  | some order => order.id

/-- What a message does to the order it is about. -/
def act (shown : Option Order) (msg : Message) : Option Order :=
  match msg.type with
  | .dispOrder => msg.order
  | .dispItemUpdate => shown.map (Order.setItemStatus msg.itemId msg.itemStatus)
  | .dispOrderUpdate =>
      if msg.orderStatus = .delivered then none
      else shown.map (Order.setStatus msg.orderStatus)
  | _ => shown

/-- What a message does to the map of orders. -/
def apply (orders : OrderMap) (msg : Message) : OrderMap :=
  match act (orders.lookup (subject msg)) msg with
  | none => orders.erase (subject msg)
  | some order => orders.insert (subject msg) order

theorem lookup_apply
    (orders : OrderMap)
    (msg : Message)
    (orderId : Int32) :
    (apply orders msg).lookup orderId =
      if orderId = subject msg then act (orders.lookup orderId) msg
      else orders.lookup orderId := by
  by_cases own : orderId = subject msg
  · subst own
    unfold apply
    rw [if_pos rfl]
    cases result : act (orders.lookup (subject msg)) msg with
    | none => exact Finmap.lookup_erase _ _
    | some order => exact Finmap.lookup_insert _
  · unfold apply
    rw [if_neg own]
    cases act (orders.lookup (subject msg)) msg with
    | none => exact Finmap.lookup_erase_ne own
    | some order => exact Finmap.lookup_insert_of_ne _ own

/-- Each message acts on the one order it is about. -/
theorem keyed_apply :
    Keyed apply (fun orders orderId => orders.lookup orderId) subject act where
  ext _ _ same := Finmap.ext_lookup same
  get_apply := lookup_apply

@[simp] theorem subject_ofItemStatus
    (type : MessageType)
    (orderId itemId : Int32)
    (status : ItemStatus) :
    subject (.ofItemStatus type orderId itemId status) = orderId := rfl

@[simp] theorem subject_ofOrderStatus
    (type : MessageType)
    (orderId : Int32)
    (status : OrderStatus) :
    subject (.ofOrderStatus type orderId status) = orderId := rfl

@[simp] theorem subject_ofOrder
    (type : MessageType)
    (order : Order) :
    subject (.ofOrder type (some order)) = order.id := rfl

@[simp] theorem act_heartbeat
    (shown : Option Order) :
    act shown (.ofType .dispHeartbeat) = shown := rfl

@[simp] theorem act_order
    (shown : Option Order)
    (order : Order) :
    act shown (.ofOrder .dispOrder (some order)) = some order := rfl

@[simp] theorem act_itemUpdate
    (shown : Option Order)
    (orderId itemId : Int32)
    (status : ItemStatus) :
    act shown (.ofItemStatus .dispItemUpdate orderId itemId status) =
      shown.map (Order.setItemStatus itemId status) := rfl

@[simp] theorem act_delivered
    (shown : Option Order)
    (orderId : Int32) :
    act shown (.ofOrderStatus .dispOrderUpdate orderId .delivered) = none := rfl

theorem act_orderUpdate
    {status : OrderStatus}
    (notDelivered : status ≠ .delivered)
    (shown : Option Order)
    (orderId : Int32) :
    act shown (.ofOrderStatus .dispOrderUpdate orderId status) =
      shown.map (Order.setStatus status) :=
  if_neg notDelivered

/-- A message that does nothing to its order does nothing. -/
theorem apply_eq_self
    (orders : OrderMap)
    (msg : Message)
    (unchanged : act (orders.lookup (subject msg)) msg = orders.lookup (subject msg)) :
    apply orders msg = orders := by
  apply Finmap.ext_lookup
  intro orderId
  rw [lookup_apply]
  by_cases own : orderId = subject msg
  · rw [if_pos own, own, unchanged]
  · rw [if_neg own]

@[simp] theorem apply_heartbeat (orders : OrderMap) :
    apply orders (.ofType .dispHeartbeat) = orders :=
  apply_eq_self _ _ rfl

@[simp] theorem apply_order
    (orders : OrderMap)
    (order : Order) :
    apply orders (.ofOrder .dispOrder (some order)) = orders.insert order.id order :=
  rfl

theorem apply_itemUpdate_of_none
    {orders : OrderMap}
    {orderId : Int32}
    (absent : orders.lookup orderId = none)
    (itemId : Int32)
    (status : ItemStatus) :
    apply orders (.ofItemStatus .dispItemUpdate orderId itemId status) = orders := by
  apply apply_eq_self
  rw [act_itemUpdate, subject_ofItemStatus, absent, Option.map_none]

theorem apply_itemUpdate_of_some
    {orders : OrderMap}
    {orderId : Int32}
    {order : Order}
    (stored : orders.lookup orderId = some order)
    (itemId : Int32)
    (status : ItemStatus) :
    apply orders (.ofItemStatus .dispItemUpdate orderId itemId status) =
      orders.insert orderId (order.setItemStatus itemId status) := by
  rw [apply, act_itemUpdate, subject_ofItemStatus, stored, Option.map_some]

theorem apply_orderUpdate_of_none
    {orders : OrderMap}
    {orderId : Int32}
    (absent : orders.lookup orderId = none)
    (status : OrderStatus) :
    apply orders (.ofOrderStatus .dispOrderUpdate orderId status) = orders := by
  apply apply_eq_self
  rw [subject_ofOrderStatus, absent]
  by_cases delivered : status = .delivered
  · rw [delivered, act_delivered]
  · rw [act_orderUpdate delivered, Option.map_none]

theorem apply_orderUpdate_of_some
    {orders : OrderMap}
    {orderId : Int32}
    {order : Order}
    (stored : orders.lookup orderId = some order)
    {status : OrderStatus}
    (notDelivered : status ≠ .delivered) :
    apply orders (.ofOrderStatus .dispOrderUpdate orderId status) =
      orders.insert orderId (order.setStatus status) := by
  rw [apply, act_orderUpdate notDelivered, subject_ofOrderStatus, stored,
    Option.map_some]

@[simp] theorem apply_delivered
    (orders : OrderMap)
    (orderId : Int32) :
    apply orders (.ofOrderStatus .dispOrderUpdate orderId .delivered) =
      orders.erase orderId := rfl

/-- Applying an accepted message is what the loop does with it. -/
theorem receiveMessage_run
    {msg : Message}
    (shown : Shown msg)
    (orders : OrderMap) :
    (receiveMessage msg).run orders = .ok () (apply orders msg) := by
  cases shown with
  | heartbeat =>
      rw [apply_heartbeat]
      rfl
  | order order => rfl
  | itemUpdate orderId itemId status =>
      unfold receiveMessage
      cases stored : orders.lookup orderId with
      | none =>
          rw [apply_itemUpdate_of_none stored]
          simp [Message.ofItemStatus, stored]
      | some order =>
          rw [apply_itemUpdate_of_some stored]
          cases found : order.findItem itemId with
          | none =>
              rw [Order.setItemStatus_of_findItem_eq_none found,
                insert_eq_self_of_lookup stored]
              simp [Message.ofItemStatus, stored, found]
          | some item => simp [Message.ofItemStatus, stored, found]
  | orderUpdate orderId status =>
      unfold receiveMessage
      cases stored : orders.lookup orderId with
      | none =>
          rw [apply_orderUpdate_of_none stored]
          simp [Message.ofOrderStatus, stored]
      | some order =>
          by_cases delivered : status = .delivered
          · rw [delivered, apply_delivered]
            simp [Message.ofOrderStatus, stored]
          · rw [apply_orderUpdate_of_some stored delivered]
            simp [Message.ofOrderStatus, stored, delivered]

theorem receive_run
    {msgs : List Message}
    (shown : ∀ msg ∈ msgs, Shown msg)
    (orders : OrderMap) :
    (receive msgs).run orders = .ok () (replay apply orders msgs) := by
  induction msgs generalizing orders with
  | nil => rfl
  | cons msg msgs inductionHypothesis =>
      have first := receiveMessage_run (shown msg (List.mem_cons_self ..)) orders
      have rest := inductionHypothesis
        (fun other member => shown other (List.mem_cons_of_mem _ member))
        (apply orders msg)
      rw [receive, List.forM_eq_forM, List.forM_cons, EStateM.run_bind, first]
      exact rest

/-! ## Messages overwrite -/

/-- How a message modifies an order that is there, unless it replaces it. -/
def modifier (msg : Message) : Option (Order → Order) :=
  match msg.type with
  | .dispOrder => none
  | .dispItemUpdate => some (Order.setItemStatus msg.itemId msg.itemStatus)
  | .dispOrderUpdate =>
      if msg.orderStatus = .delivered then none
      else some (Order.setStatus msg.orderStatus)
  | _ => some id

theorem act_of_modifier_eq_none
    {msg : Message}
    (replaces : modifier msg = none)
    (left right : Option Order) :
    act left msg = act right msg := by
  unfold modifier at replaces
  unfold act
  split at replaces
  · rfl
  · cases replaces
  · split at replaces
    · next delivered => rw [if_pos delivered, if_pos delivered]
    · cases replaces
  · cases replaces

theorem act_of_modifier_eq_some
    {msg : Message}
    {modify : Order → Order}
    (modifies : modifier msg = some modify)
    (shown : Option Order) :
    act shown msg = shown.map modify := by
  unfold modifier at modifies
  unfold act
  split at modifies
  · cases modifies
  · cases modifies
    rfl
  · split at modifies
    · cases modifies
    · next delivered =>
      cases modifies
      rw [if_neg delivered]
  · cases modifies
    exact (Option.map_id_apply).symm

theorem modifier_cases
    {msg : Message}
    {modify : Order → Order}
    (modifies : modifier msg = some modify) :
    modify = id ∨ (∃ itemId status, modify = Order.setItemStatus itemId status) ∨
      ∃ status, modify = Order.setStatus status := by
  unfold modifier at modifies
  split at modifies
  · cases modifies
  · cases modifies
    exact Or.inr (Or.inl ⟨_, _, rfl⟩)
  · split at modifies
    · cases modifies
    · cases modifies
      exact Or.inr (Or.inr ⟨_, rfl⟩)
  · cases modifies
    exact Or.inl rfl

theorem modifier_compatible
    {first second : Message}
    {modify change : Order → Order}
    (modifies : modifier first = some modify)
    (changes : modifier second = some change) :
    (∀ order, modify (change order) = modify order) ∨
      ∀ order, modify (change order) = change (modify order) := by
  rcases modifier_cases modifies with rfl | ⟨itemId, status, rfl⟩ | ⟨status, rfl⟩
  · exact Or.inr fun order => rfl
  · rcases modifier_cases changes with rfl | ⟨otherId, otherStatus, rfl⟩ | ⟨_, rfl⟩
    · exact Or.inl fun order => rfl
    · by_cases same : itemId = otherId
      · subst same
        exact Or.inl (Order.setItemStatus_setItemStatus_self itemId otherStatus status)
      · exact Or.inr
          (Order.setItemStatus_comm (Ne.symm same) otherStatus status)
    · exact Or.inr fun order => rfl
  · rcases modifier_cases changes with rfl | ⟨itemId, itemStatus, rfl⟩ | ⟨other, rfl⟩
    · exact Or.inl fun order => rfl
    · exact Or.inr fun order => rfl
    · exact Or.inl (Order.setStatus_setStatus other status)

/-- The last of several messages about an order or one of its items decides. -/
theorem overwriting_apply : Overwriting apply := by
  apply keyed_apply.overwriting
  apply Overwriting.of_modifiers modifier
  · exact fun msg => act_of_modifier_eq_none
  · exact fun msg modify => act_of_modifier_eq_some
  · intro msg modify modifies order
    rcases modifier_cases modifies with rfl | ⟨itemId, status, rfl⟩ | ⟨status, rfl⟩
    · rfl
    · exact Order.setItemStatus_setItemStatus_self itemId status status order
    · rfl
  · exact fun first second modify change => modifier_compatible

/-! ## The server's broadcasts -/

/-- A call announces the messages: it hands them to every registered client, and
they tell what it does to the stored orders. -/
structure Announces (operation : Server.Operation) (server final : Server)
    (messages : List Message) : Prop where
  shown : ∀ msg ∈ messages, Shown msg
  touched : ∀ msg ∈ messages, operation.Touches server (subject msg)
  myOrders : final.myOrders = replay apply server.myOrders messages
  myClients : final.myClients = server.myClients
  queues : ∀ client, final.queues client =
    if client ∈ server.myClients then server.queues client ++ messages
    else server.queues client

theorem replay_itemUpdateMessages
    {orders : OrderMap}
    {orderId : Int32}
    {order : Order}
    (stored : orders.lookup orderId = some order)
    (itemId : Int32)
    (newStatus : ItemStatus) :
    replay apply orders (Server.itemUpdateMessages orderId itemId newStatus order) =
      orders.insert orderId (Server.itemUpdatedOrder itemId newStatus order) := by
  have updated := apply_itemUpdate_of_some stored itemId newStatus
  rw [Server.itemUpdateMessages, replay_cons, updated]
  by_cases same : Server.newOrderStatus (order.setItemStatus itemId newStatus) newStatus =
      (order.setItemStatus itemId newStatus).status
  · rw [if_pos same, replay_nil, Server.itemUpdatedOrder, same]
    rfl
  · have notDelivered : Server.newOrderStatus (order.setItemStatus itemId newStatus)
        newStatus ≠ .delivered := by
      rcases Server.newOrderStatus_cases (order.setItemStatus itemId newStatus)
        newStatus with unchanged | ⟨-, forward⟩
      · exact absurd unchanged same
      · rcases forward with status | status <;> rw [status] <;> decide
    rw [if_neg same, replay_cons, replay_nil,
      apply_orderUpdate_of_some (Finmap.lookup_insert _) notDelivered,
      Finmap.insert_insert]
    rfl

/-- Every call announces what it does. -/
theorem exists_announces
    {operation : Server.Operation}
    {server final : Server}
    (change : Server.Change operation server final) :
    ∃ messages, Announces operation server final messages := by
  cases change with
  | refused =>
      refine ⟨[], ?_, ?_, rfl, rfl, ?_⟩
      · intro msg member
        cases member
      · intro msg member
        cases member
      · intro client
        rw [List.append_nil, ite_self]
  | created order =>
      refine ⟨[.ofOrder .dispOrder (some (Server.assigned server.nextOrderId order))],
        ?_, ?_, ?_, by simp, by simp⟩
      · intro msg member
        rw [List.mem_singleton] at member
        rw [member]
        exact .order _
      · intro msg member
        rw [List.mem_singleton] at member
        rw [member]
        rfl
      · rw [Server.created_myOrders]
        rfl
  | itemUpdated orderId itemId newStatus order item _ stored found allowed =>
      refine ⟨Server.itemUpdateMessages orderId itemId newStatus order, ?_, ?_, ?_,
        by simp, by simp⟩
      · intro msg member
        rcases Server.mem_itemUpdateMessages member with rfl | ⟨-, rfl⟩
        · exact .itemUpdate _ _ _
        · exact .orderUpdate _ _
      · intro msg member
        have own : subject msg = orderId := by
          rcases Server.mem_itemUpdateMessages member with rfl | ⟨-, rfl⟩
          · rfl
          · rfl
        rw [own]
        exact ⟨rfl, order, item, stored, found, allowed⟩
      · rw [Server.itemUpdated_myOrders, replay_itemUpdateMessages stored]
  | delivered orderId order _ stored done =>
      refine ⟨[.ofOrderStatus .dispOrderUpdate orderId .delivered], ?_, ?_, ?_,
        by simp, by simp⟩
      · intro msg member
        rw [List.mem_singleton] at member
        rw [member]
        exact .orderUpdate _ _
      · intro msg member
        rw [List.mem_singleton] at member
        rw [member]
        exact ⟨rfl, ⟨order, stored, done⟩, rfl⟩
      · rw [Server.delivered_myOrders]
        rfl

/-- Every stored order has its key as id. -/
def Identified (orders : OrderMap) : Prop :=
  ∀ orderId order, orders.lookup orderId = some order → order.id = orderId

/-- Messages keep the ids of the orders in step with their keys. -/
theorem Identified.apply
    {orders : OrderMap}
    (identified : Identified orders)
    {msg : Message}
    (shown : Shown msg) :
    Identified (apply orders msg) := by
  intro orderId order stored
  rw [lookup_apply] at stored
  by_cases own : orderId = subject msg
  · rw [if_pos own] at stored
    cases shown with
    | heartbeat => exact identified orderId order stored
    | order shownOrder =>
        cases stored
        exact own.symm
    | itemUpdate =>
        obtain ⟨earlier, isStored, rfl⟩ := Option.map_eq_some_iff.mp stored
        exact identified orderId earlier isStored
    | orderUpdate updatedId status =>
        by_cases delivered : status = .delivered
        · rw [delivered, act_delivered] at stored
          cases stored
        · rw [act_orderUpdate delivered] at stored
          obtain ⟨earlier, isStored, rfl⟩ := Option.map_eq_some_iff.mp stored
          exact identified orderId earlier isStored
  · rw [if_neg own] at stored
    exact identified orderId order stored

theorem Identified.replay
    {orders : OrderMap}
    (identified : Identified orders)
    {msgs : List Message}
    (shown : ∀ msg ∈ msgs, Shown msg) :
    Identified (OrderTracking.replay Display.apply orders msgs) := by
  induction msgs generalizing orders with
  | nil => exact identified
  | cons msg msgs inductionHypothesis =>
      exact inductionHypothesis (identified.apply (shown msg (List.mem_cons_self ..)))
        fun other member => shown other (List.mem_cons_of_mem _ member)

namespace Announces

variable {operation : Server.Operation} {server final : Server}
variable {messages : List Message} {client : ClientPtr}

theorem identified
    (announces : Announces operation server final messages)
    (identified : Identified server.myOrders) :
    Identified final.myOrders := by
  rw [announces.myOrders]
  exact identified.replay announces.shown

/-- A registered client gets the messages and stays registered. -/
theorem present
    (announces : Announces operation server final messages)
    (present : client ∈ server.myClients) :
    client ∈ final.myClients ∧
      final.queues client = server.queues client ++ messages := by
  rw [announces.myClients, announces.queues, if_pos present]
  exact ⟨present, rfl⟩

/-- Other clients get nothing. -/
theorem absent
    (announces : Announces operation server final messages)
    (absent : client ∉ server.myClients) :
    client ∉ final.myClients ∧ final.queues client = server.queues client := by
  rw [announces.myClients, announces.queues, if_neg absent]
  exact ⟨absent, rfl⟩

/-- What was shown is still shown, followed by the messages. -/
theorem shown_append
    (announces : Announces operation server final messages)
    {earlier : List Message}
    (shown : ∀ msg ∈ earlier, Shown msg) :
    ∀ msg ∈ earlier ++ messages, Shown msg := by
  intro msg member
  rw [List.mem_append] at member
  exact member.elim (shown msg) (announces.shown msg)

/-- A display that was up to date is up to date again after the messages. -/
theorem upToDate
    (announces : Announces operation server final messages)
    {before : OrderMap}
    {earlier : List Message}
    (upToDate : replay apply before earlier = server.myOrders) :
    replay apply before (earlier ++ messages) = final.myOrders := by
  rw [replay_append, upToDate, announces.myOrders]

end Announces

/-! ## Snapshots -/

/-- What is sent for a snapshot. -/
def snapshotMessages (orders : List Order) : List Message :=
  orders.map fun order => .ofOrder .dispOrder (some order)

theorem shown_of_mem_snapshotMessages
    {orders : List Order}
    {msg : Message}
    (member : msg ∈ snapshotMessages orders) : Shown msg := by
  obtain ⟨order, -, rfl⟩ := List.mem_map.mp member
  exact .order order

/-- A snapshot has exactly the stored orders. -/
theorem mem_snapshot_iff
    {orders : List Order}
    {server : Server}
    (snapshot : Server.IsSnapshot orders server)
    (order : Order) :
    order ∈ orders ↔ ∃ orderId, server.myOrders.lookup orderId = some order := by
  rw [← Multiset.mem_coe, snapshot, Multiset.mem_map]
  constructor
  · rintro ⟨entry, stored, rfl⟩
    rw [Order.duplicate_eq]
    exact ⟨entry.1, Finmap.lookup_eq_some_iff.mpr stored⟩
  · rintro ⟨orderId, stored⟩
    exact ⟨⟨orderId, order⟩, Finmap.lookup_eq_some_iff.mp stored, order.duplicate_eq⟩

theorem lookup_replay_snapshotMessages
    {store : OrderMap}
    {orders : List Order}
    (stored : ∀ order ∈ orders, store.lookup order.id = some order)
    (shown : OrderMap)
    (orderId : Int32) :
    (replay apply shown (snapshotMessages orders)).lookup orderId =
      if orderId ∈ orders.map Order.id then store.lookup orderId
      else shown.lookup orderId := by
  induction orders generalizing shown with
  | nil => rfl
  | cons order orders inductionHypothesis =>
      have rest := inductionHypothesis
        (fun other member => stored other (List.mem_cons_of_mem _ member))
        (shown.insert order.id order)
      rw [snapshotMessages, List.map_cons, replay_cons, apply_order, ← snapshotMessages,
        rest, List.map_cons]
      by_cases later : orderId ∈ orders.map Order.id
      · rw [if_pos later, if_pos (List.mem_cons_of_mem _ later)]
      · rw [if_neg later]
        by_cases own : orderId = order.id
        · subst own
          rw [if_pos (List.mem_cons_self ..), Finmap.lookup_insert,
            stored order (List.mem_cons_self ..)]
        · rw [if_neg (List.not_mem_cons_of_ne_of_not_mem own later),
            Finmap.lookup_insert_of_ne _ own]

/-- The shown orders are some of the stored ones, as they are stored. -/
def Behind (shown store : OrderMap) : Prop :=
  ∀ orderId, shown.lookup orderId = none ∨ shown.lookup orderId = store.lookup orderId

theorem behind_empty (store : OrderMap) : Behind ∅ store :=
  fun orderId => Or.inl (Finmap.lookup_empty orderId)

/-- A message about an order that is not shown shows it as it is stored, if at
all. -/
theorem Behind.apply
    {shown store : OrderMap}
    (behind : Behind shown store)
    (msg : Message) :
    Behind (apply shown msg) (apply store msg) := by
  intro orderId
  rw [lookup_apply, lookup_apply]
  by_cases own : orderId = subject msg
  · rw [if_pos own, if_pos own]
    rcases behind orderId with absent | same
    · rw [absent]
      cases kind : modifier msg with
      | none => exact Or.inr (act_of_modifier_eq_none kind _ _)
      | some modify =>
          left
          rw [act_of_modifier_eq_some kind, Option.map_none]
    · rw [same]
      exact Or.inr rfl
  · rw [if_neg own, if_neg own]
    exact behind orderId

/-- A snapshot brings a display that is behind up to date. -/
theorem Behind.replay_snapshotMessages
    {shown : OrderMap}
    {server : Server}
    (behind : Behind shown server.myOrders)
    (identified : Identified server.myOrders)
    {orders : List Order}
    (snapshot : Server.IsSnapshot orders server) :
    replay Display.apply shown (snapshotMessages orders) = server.myOrders := by
  have stored : ∀ order ∈ orders, server.myOrders.lookup order.id = some order := by
    intro order member
    obtain ⟨orderId, isStored⟩ := (mem_snapshot_iff snapshot order).mp member
    rwa [identified orderId order isStored]
  apply Finmap.ext_lookup
  intro orderId
  rw [lookup_replay_snapshotMessages stored]
  by_cases copied : orderId ∈ orders.map Order.id
  · rw [if_pos copied]
  · rw [if_neg copied]
    rcases behind orderId with absent | same
    · cases isStored : server.myOrders.lookup orderId with
      | none => exact absent
      | some order =>
          have member := (mem_snapshot_iff snapshot order).mpr ⟨orderId, isStored⟩
          rw [← identified orderId order isStored] at copied
          exact absurd (List.mem_map_of_mem member) copied
    · exact same

end Display
end OrderTracking
