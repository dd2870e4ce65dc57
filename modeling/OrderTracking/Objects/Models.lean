import OrderTracking.Library.Lookup
import OrderTracking.Objects.Separate

/-!
# The server by value

What the pointers of a server point to is a server by value, as long as no stored order is
shared: an update of a stored order is then an update of this order and of nothing else.
-/

namespace OrderTracking
namespace ObjectServer

/-! ## The relation -/

/-- The pointers of the server point to what the server by value has. No stored order is
stored twice, and no message and no copy for a display shares one. -/
structure Models (server : ObjectServer) (byValue : Server) : Prop where
  separate : server.objects.Separate
  stored : ∀ orderId order, server.myOrders.lookup orderId = some order →
    order < server.objects.nextOrder
  once : ∀ orderId other order, server.myOrders.lookup orderId = some order →
    server.myOrders.lookup other = some order → orderId = other
  unshared : ∀ message, message < server.objects.messages.next → ∀ order,
    (server.objects.messages.cells message).order = some order →
      ∀ orderId, server.myOrders.lookup orderId ≠ some order
  copied : ∀ order ∈ server.copies, order < server.objects.nextOrder ∧
    ∀ orderId, server.myOrders.lookup orderId ≠ some order
  queued : ∀ client, ∀ message ∈ server.queues client,
    message < server.objects.messages.next
  announced : ∀ message ∈ server.broadcasts, message < server.objects.messages.next
  myClients : byValue.myClients = server.myClients
  myOrders : ∀ orderId, byValue.myOrders.lookup orderId =
    (server.myOrders.lookup orderId).map server.objects.order
  nextOrderId : byValue.nextOrderId = server.nextOrderId
  queues : ∀ client, byValue.queues client =
    (server.queues client).map server.objects.message
  broadcasts : byValue.broadcasts = server.broadcasts.map server.objects.message

/-- Every message there is, and every copy for a display, is still there and still the
same. -/
structure Keeps (server final : ObjectServer) : Prop where
  messages : ∀ message, message < server.objects.messages.next →
    message < final.objects.messages.next ∧
      final.objects.message message = server.objects.message message
  copies : ∀ order ∈ server.copies, order ∈ final.copies ∧
    final.objects.order order = server.objects.order order

theorem Keeps.of_objects
    {server final : ObjectServer}
    (objects : final.objects = server.objects)
    (copies : final.copies = server.copies) :
    Keeps server final where
  messages := fun _ old => ⟨objects ▸ old, by rw [objects]⟩
  copies := fun _ member => ⟨copies ▸ member, by rw [objects]⟩

theorem Keeps.refl (server : ObjectServer) : Keeps server server :=
  .of_objects rfl rfl

theorem Keeps.trans
    {server middle final : ObjectServer}
    (first : Keeps server middle)
    (second : Keeps middle final) :
    Keeps server final where
  messages := by
    intro message old
    obtain ⟨still, same⟩ := first.messages message old
    obtain ⟨last, sameLast⟩ := second.messages message still
    exact ⟨last, sameLast.trans same⟩
  copies := by
    intro order member
    obtain ⟨still, same⟩ := first.copies order member
    obtain ⟨last, sameLast⟩ := second.copies order still
    exact ⟨last, sameLast.trans same⟩

/-- The server has become one that models this server by value, and keeps what there was. -/
structure Follows (server final : ObjectServer) (byValue : Server) : Prop where
  models : Models final byValue
  keeps : Keeps server final

theorem Keeps.follows
    {server middle final : ObjectServer}
    {byValue : Server}
    (keeps : Keeps server middle)
    (follows : Follows middle final byValue) :
    Follows server final byValue :=
  ⟨follows.models, keeps.trans follows.keeps⟩

variable {server : ObjectServer} {byValue : Server}

theorem Models.follows (models : Models server byValue) : Follows server server byValue :=
  ⟨models, .refl server⟩

/-! ## New objects -/

/-- New objects change nothing. -/
theorem Models.adds
    (models : Models server byValue)
    {later : Objects}
    (adds : Objects.Adds server.objects later) :
    Follows server { server with objects := later } byValue := by
  have sameMessages : ∀ messages : List MessagePtr,
      (∀ message ∈ messages, message < server.objects.messages.next) →
        messages.map later.message = messages.map server.objects.message :=
    fun messages old => List.map_congr_left fun message member =>
      adds.message models.separate (old message member)
  have longer := adds.messages.next_le
  refine ⟨⟨adds.separate, ?_, models.once, ?_, ?_, ?_, ?_, models.myClients, ?_,
    models.nextOrderId, ?_, ?_⟩, ⟨?_, ?_⟩⟩
  · exact fun orderId order stored =>
      (models.stored orderId order stored).trans_le adds.nextOrder
  · intro message old order points orderId stored
    rcases lt_or_ge message server.objects.messages.next with earlier | new
    · change (later.messages.cells message).order = _ at points
      rw [adds.messages.cells message earlier] at points
      exact models.unshared message earlier order points orderId stored
    · exact absurd (models.stored orderId order stored)
        (not_lt.mpr (adds.new message new old order points))
  · exact fun order member => ⟨(models.copied order member).1.trans_le adds.nextOrder,
      (models.copied order member).2⟩
  · exact fun client message member => (models.queued client message member).trans_le longer
  · exact fun message member => (models.announced message member).trans_le longer
  · intro orderId
    rw [models.myOrders]
    cases stored : server.myOrders.lookup orderId with
    | none => rfl
    | some order =>
        exact congrArg some (adds.order (models.stored orderId order stored)).symm
  · intro client
    rw [models.queues]
    exact (sameMessages _ (models.queued client)).symm
  · rw [models.broadcasts]
    exact (sameMessages _ models.announced).symm
  · exact fun message old => ⟨old.trans_le longer, adds.message models.separate old⟩
  · exact fun order member => ⟨member, adds.order (models.copied order member).1⟩

/-! ## Changes -/

/-- Nothing points to this order but the thread that has made it. -/
structure Loose (order : OrderPtr) (server : ObjectServer) : Prop where
  old : order < server.objects.nextOrder
  unstored : ∀ orderId, server.myOrders.lookup orderId ≠ some order
  unshared : ∀ message, message < server.objects.messages.next →
    (server.objects.messages.cells message).order ≠ some order
  uncopied : order ∉ server.copies

theorem Models.loose
    (models : Models server byValue)
    {value : Order}
    {later : Objects}
    (creates : Objects.Creates value server.objects later) :
    Loose server.objects.nextOrder { server with objects := later } where
  old := creates.nextOrder ▸ Nat.lt_succ_self _
  unstored := fun orderId stored => absurd (models.stored orderId _ stored) (lt_irrefl _)
  unshared := by
    intro message old points
    change message < later.messages.next at old
    change (later.messages.cells message).order = _ at points
    rw [creates.messages] at old points
    exact absurd (models.separate.pointed message old _ points) (lt_irrefl _)
  uncopied := fun member => absurd (models.copied _ member).1 (lt_irrefl _)

section Changes

variable {order : OrderPtr} {change : Memory → Memory}

/-- A change of an order that no message and no copy shares. -/
theorem Models.changes
    (models : Models server byValue)
    (changes : Memory.Changes order server.objects.memory (change server.objects.memory))
    (old : order < server.objects.nextOrder)
    (unshared : ∀ message, message < server.objects.messages.next →
      (server.objects.messages.cells message).order ≠ some order)
    (uncopied : order ∉ server.copies)
    {orders : OrderMap}
    (myOrders : ∀ orderId, orders.lookup orderId =
      (server.myOrders.lookup orderId).map (change server.objects.memory).value) :
    Follows server (modifyMemory change server) { byValue with myOrders := orders } := by
  have keeps : Keeps server (modifyMemory change server) := by
    refine ⟨fun message isOld => ⟨isOld, ?_⟩, fun copy member => ⟨member, ?_⟩⟩
    · exact models.separate.message_changes changes old isOld (unshared message isOld)
    · exact models.separate.value_changes changes old (models.copied copy member).1
        (ne_of_mem_of_not_mem member uncopied)
  have sameMessages : ∀ messages : List MessagePtr,
      (∀ message ∈ messages, message < server.objects.messages.next) →
        messages.map (modifyMemory change server).objects.message =
          messages.map server.objects.message :=
    fun messages isOld => List.map_congr_left fun message member =>
      (keeps.messages message (isOld message member)).2
  refine ⟨⟨models.separate.changes changes, models.stored, models.once, models.unshared,
    models.copied, models.queued, models.announced, models.myClients, myOrders,
    models.nextOrderId, ?_, ?_⟩, keeps⟩
  · intro client
    refine (models.queues client).trans ?_
    exact (sameMessages _ (models.queued client)).symm
  · exact models.broadcasts.trans (sameMessages _ models.announced).symm

/-- A change of an order that nothing else points to. -/
theorem Models.changeLoose
    (models : Models server byValue)
    (loose : Loose order server)
    (changes : Memory.Changes order server.objects.memory (change server.objects.memory)) :
    Follows server (modifyMemory change server) byValue ∧
      Loose order (modifyMemory change server) := by
  obtain ⟨later, keeps⟩ := @Models.changes _ _ _ _ models changes loose.old loose.unshared
    loose.uncopied byValue.myOrders fun orderId => by
      rw [models.myOrders]
      cases stored : server.myOrders.lookup orderId with
      | none => rfl
      | some other =>
          refine congrArg some (models.separate.value_changes changes loose.old
            (models.stored orderId other stored) ?_).symm
          rintro rfl
          exact loose.unstored orderId stored
  exact ⟨⟨later, keeps⟩, ⟨loose.old, loose.unstored, loose.unshared, loose.uncopied⟩⟩

/-- A change of a stored order. -/
theorem Models.changeStored
    (models : Models server byValue)
    {orderId : Int32}
    (stored : server.myOrders.lookup orderId = some order)
    (changes : Memory.Changes order server.objects.memory (change server.objects.memory)) :
    Follows server (modifyMemory change server)
      (Server.setOrder orderId ((change server.objects.memory).value order) byValue) := by
  have old := models.stored orderId order stored
  refine models.changes changes old ?_ ?_ fun other => ?_
  · exact fun message isOld points => models.unshared message isOld order points orderId stored
  · exact fun member => (models.copied order member).2 orderId stored
  · by_cases own : other = orderId
    · rw [own, Finmap.lookup_insert, stored]
      rfl
    · rw [Finmap.lookup_insert_of_ne _ own, models.myOrders]
      cases otherStored : server.myOrders.lookup other with
      | none => rfl
      | some next =>
          refine congrArg some (models.separate.value_changes changes old
            (models.stored other next otherStored) ?_).symm
          rintro rfl
          exact own (models.once other orderId next otherStored stored)

end Changes

/-! ## Storing -/

/-- Storing an order that nothing else points to. -/
theorem Models.store
    (models : Models server byValue)
    {order : OrderPtr}
    (loose : Loose order server)
    (orderId : Int32) :
    Follows server { server with myOrders := server.myOrders.insert orderId order }
      (Server.setOrder orderId (server.objects.order order) byValue) := by
  refine ⟨⟨models.separate, ?_, ?_, ?_, ?_, models.queued, models.announced,
    models.myClients, ?_, models.nextOrderId, models.queues, models.broadcasts⟩,
    .of_objects rfl rfl⟩
  · intro other next isStored
    rcases lookup_insert_cases isStored with ⟨-, rfl⟩ | ⟨-, stored⟩
    · exact loose.old
    · exact models.stored other next stored
  · intro first second next isFirst isSecond
    rcases lookup_insert_cases isFirst with ⟨rfl, rfl⟩ | ⟨-, first⟩
    · rcases lookup_insert_cases isSecond with ⟨rfl, -⟩ | ⟨-, second⟩
      · rfl
      · exact absurd second (loose.unstored _)
    · rcases lookup_insert_cases isSecond with ⟨rfl, rfl⟩ | ⟨-, second⟩
      · exact absurd first (loose.unstored _)
      · exact models.once _ _ next first second
  · intro message old next points other isStored
    rcases lookup_insert_cases isStored with ⟨-, rfl⟩ | ⟨-, stored⟩
    · exact loose.unshared message old points
    · exact models.unshared message old next points other stored
  · intro copy member
    refine ⟨(models.copied copy member).1, fun other isStored => ?_⟩
    rcases lookup_insert_cases isStored with ⟨-, rfl⟩ | ⟨-, stored⟩
    · exact loose.uncopied member
    · exact (models.copied copy member).2 other stored
  · intro other
    rw [Server.setOrder_myOrders]
    by_cases own : other = orderId
    · rw [own, Finmap.lookup_insert, Finmap.lookup_insert]
      rfl
    · rw [Finmap.lookup_insert_of_ne _ own, Finmap.lookup_insert_of_ne _ own, models.myOrders]

/-- Removing an order. -/
theorem Models.erase
    (models : Models server byValue)
    (orderId : Int32) :
    Follows server { server with myOrders := server.myOrders.erase orderId }
      { byValue with myOrders := byValue.myOrders.erase orderId } := by
  refine ⟨⟨models.separate, ?_, ?_, ?_, ?_, models.queued, models.announced,
    models.myClients, ?_, models.nextOrderId, models.queues, models.broadcasts⟩,
    .of_objects rfl rfl⟩
  · exact fun other order stored =>
      models.stored other order (lookup_of_lookup_erase stored)
  · exact fun first second order isFirst isSecond => models.once first second order
      (lookup_of_lookup_erase isFirst) (lookup_of_lookup_erase isSecond)
  · exact fun message old order points other stored =>
      models.unshared message old order points other (lookup_of_lookup_erase stored)
  · exact fun copy member => ⟨(models.copied copy member).1, fun other stored =>
      (models.copied copy member).2 other (lookup_of_lookup_erase stored)⟩
  · intro other
    by_cases own : other = orderId
    · rw [own, Finmap.lookup_erase, Finmap.lookup_erase]
      rfl
    · rw [Finmap.lookup_erase_ne own, Finmap.lookup_erase_ne own, models.myOrders]

/-! ## Queues -/

/-- Another queue of one client. -/
theorem Models.setQueue
    (models : Models server byValue)
    (client : ClientPtr)
    {messages : List MessagePtr}
    (old : ∀ message ∈ messages, message < server.objects.messages.next) :
    Follows server { server with queues := Function.update server.queues client messages }
      { byValue with
        queues := Function.update byValue.queues client
          (messages.map server.objects.message) } := by
  refine ⟨⟨models.separate, models.stored, models.once, models.unshared, models.copied, ?_,
    models.announced, models.myClients, models.myOrders, models.nextOrderId, ?_,
    models.broadcasts⟩, .of_objects rfl rfl⟩
  · intro other message member
    dsimp only at member
    by_cases own : other = client
    · subst own
      rw [Function.update_self] at member
      exact old message member
    · rw [Function.update_of_ne own] at member
      exact models.queued other message member
  · intro other
    by_cases own : other = client
    · subst own
      simp
    · simp [own, models.queues]

/-! ## Broadcasting -/

theorem Models.enqueue
    (models : Models server byValue)
    {message : MessagePtr}
    (old : message < server.objects.messages.next)
    {msg : Message}
    (value : server.objects.message message = msg)
    (client : ClientPtr) :
    Follows server { server with
        queues := Function.update server.queues client (server.queues client ++ [message]) }
      (Server.enqueue client msg byValue) := by
  have appended := models.setQueue client
    (List.forall_mem_append.mpr ⟨models.queued client, List.forall_mem_singleton.mpr old⟩)
  rw [List.map_append, ← models.queues, List.map_singleton, value] at appended
  exact appended

theorem Models.enqueueCopy
    (models : Models server byValue)
    {message : MessagePtr}
    (old : message < server.objects.messages.next)
    (client : ClientPtr) :
    Follows server (ObjectServer.enqueueCopy message client server)
      (Server.enqueue client (server.objects.message message) byValue) := by
  obtain ⟨adds, isNext, count, value⟩ :=
    Objects.duplicateMessage_spec models.separate old
  obtain ⟨later, keeps⟩ := models.adds adds
  have isNew : (server.objects.duplicateMessage message).1 <
      (server.objects.duplicateMessage message).2.messages.next := by
    rw [isNext, count]
    exact Nat.lt_succ_self _
  rw [← isNext] at value
  exact keeps.follows (later.enqueue isNew value client)

/-- The loop of `broadcast`. -/
theorem Models.enqueueCopies
    (models : Models server byValue)
    {message : MessagePtr}
    (old : message < server.objects.messages.next)
    {msg : Message}
    (value : server.objects.message message = msg)
    (clients : List ClientPtr) :
    Follows server
      (clients.foldl (fun server client => ObjectServer.enqueueCopy message client server)
        server)
      (clients.foldl (fun server client => Server.enqueue client msg server) byValue) := by
  induction clients generalizing server byValue with
  | nil => exact models.follows
  | cons client clients inductionHypothesis =>
      obtain ⟨first, keeps⟩ := models.enqueueCopy old client
      obtain ⟨still, same⟩ := keeps.messages message old
      rw [value] at first
      obtain ⟨rest, keepsRest⟩ := inductionHypothesis first still (same.trans value)
      exact ⟨rest, keeps.trans keepsRest⟩

theorem foldl_enqueue
    {clients : List ClientPtr}
    (distinct : clients.Nodup)
    (msg : Message)
    (byValue : Server) :
    clients.foldl (fun server client => Server.enqueue client msg server) byValue =
      { byValue with
        queues := fun client =>
          if client ∈ clients then byValue.queues client ++ [msg]
          else byValue.queues client } := by
  induction clients generalizing byValue with
  | nil => simp
  | cons first clients inductionHypothesis =>
      obtain ⟨notIn, others⟩ := List.nodup_cons.mp distinct
      rw [List.foldl_cons, inductionHypothesis others]
      simp only [Server.enqueue, Server.mk.injEq, true_and, and_true]
      funext client
      by_cases own : client = first
      · subst own
        simp [notIn]
      · simp [own]

theorem Models.announce
    (models : Models server byValue)
    {message : MessagePtr}
    (old : message < server.objects.messages.next)
    {msg : Message}
    (value : server.objects.message message = msg) :
    Models { server with broadcasts := server.broadcasts ++ [message] }
      { byValue with broadcasts := byValue.broadcasts ++ [msg] } := by
  refine ⟨models.separate, models.stored, models.once, models.unshared, models.copied,
    models.queued, ?_, models.myClients, models.myOrders, models.nextOrderId, models.queues,
    ?_⟩
  · intro other member
    rcases List.mem_append.mp member with earlier | last
    · exact models.announced other earlier
    · exact List.mem_singleton.mp last ▸ old
  · rw [List.map_append, models.broadcasts, List.map_singleton, value]

/-- A broadcast is the broadcast of what the message says. -/
theorem Models.broadcast
    (models : Models server byValue)
    {clients : List ClientPtr}
    (lists : Lists clients byValue.myClients)
    {message : MessagePtr}
    (old : message < server.objects.messages.next)
    {msg : Message}
    (value : server.objects.message message = msg) :
    Follows server (ObjectServer.broadcast clients message server)
      (Server.broadcast msg byValue) := by
  obtain ⟨later, keeps⟩ := models.enqueueCopies old value clients
  obtain ⟨still, same⟩ := keeps.messages message old
  have isBroadcast : Server.broadcast msg byValue =
      { clients.foldl (fun server client => Server.enqueue client msg server) byValue with
        broadcasts :=
          (clients.foldl (fun server client => Server.enqueue client msg server)
            byValue).broadcasts ++ [msg] } := by
    rw [foldl_enqueue lists.1]
    simp only [Server.broadcast, Message.duplicate_eq, Server.mk.injEq, true_and, and_true]
    funext client
    simp only [lists.2]
  rw [isBroadcast]
  exact ⟨later.announce still (same.trans value), ⟨keeps.messages, keeps.copies⟩⟩

end ObjectServer
end OrderTracking
