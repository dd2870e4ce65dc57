import OrderTracking.Objects.Changes

/-!
# Objects apart

No two orders share an item, since every order was made of new items. Orders and messages
that are made later leave those there are as they were, and a new message only points to a
new order.
-/

namespace OrderTracking

/-- A message is the same with a pointer to an equal order. -/
theorem MessageObject.value_withOrder
    {object : MessageObject}
    {order : Option OrderPtr}
    {memory later : Memory}
    (same : order.map later.value = object.order.map memory.value) :
    (object.withOrder order).value later = object.value memory := by
  rw [value, value, ← same]
  rfl

namespace Objects

/-- All orders and messages there were are still there. -/
structure Grows (objects later : Objects) : Prop where
  nextOrder : objects.nextOrder ≤ later.nextOrder
  orders : ∀ order, order < objects.nextOrder →
    later.memory.orders order = objects.memory.orders order
  items : objects.memory.heap.Extends later.memory.heap
  messages : objects.messages.Extends later.messages

theorem Grows.trans
    {objects later last : Objects}
    (first : Grows objects later)
    (second : Grows later last) :
    Grows objects last where
  nextOrder := first.nextOrder.trans second.nextOrder
  orders := fun order old =>
    (second.orders order (old.trans_le first.nextOrder)).trans (first.orders order old)
  items := first.items.trans second.items
  messages := first.messages.trans second.messages

/-- Different orders have different items, and messages only point to orders that exist. -/
structure Separate (objects : Objects) : Prop where
  apart : ∀ order other, order < objects.nextOrder → other < objects.nextOrder →
    order ≠ other → ∀ item ∈ (objects.memory.orders order).items,
      item ∉ (objects.memory.orders other).items
  distinct : ∀ order, order < objects.nextOrder →
    (objects.memory.orders order).items.Nodup
  pointed : ∀ message, message < objects.messages.next → ∀ order,
    (objects.messages.cells message).order = some order → order < objects.nextOrder

theorem Grows.order
    {objects later : Objects}
    (grows : Grows objects later)
    {order : OrderPtr}
    (old : order < objects.nextOrder) :
    later.order order = objects.order order := by
  have kept := grows.items.read_eq (objects.memory.allocated order)
  rw [Objects.order, Objects.order, Memory.value, Memory.value, grows.orders order old, kept]

theorem Grows.message
    {objects later : Objects}
    (grows : Grows objects later)
    (separate : objects.Separate)
    {message : MessagePtr}
    (old : message < objects.messages.next) :
    later.message message = objects.message message := by
  have same := grows.messages.cells message old
  have order : (objects.messages.cells message).order.map later.memory.value =
      (objects.messages.cells message).order.map objects.memory.value := by
    cases points : (objects.messages.cells message).order with
    | none => rfl
    | some order =>
        exact congrArg some (grows.order (separate.pointed message old order points))
  rw [Objects.message, Objects.message, same]
  exact MessageObject.value_withOrder order

/-! ## Changes -/

theorem Separate.changes
    {objects : Objects}
    (separate : objects.Separate)
    {order : OrderPtr}
    {memory : Memory}
    (changes : Memory.Changes order objects.memory memory) :
    Separate { objects with memory := memory } where
  apart := by
    intro first second isFirst isSecond different
    rw [changes.items, changes.items]
    exact separate.apart first second isFirst isSecond different
  distinct := by
    intro other old
    rw [changes.items]
    exact separate.distinct other old
  pointed := separate.pointed

/-- A change of an order does not show in another one. -/
theorem Separate.value_changes
    {objects : Objects}
    (separate : objects.Separate)
    {order other : OrderPtr}
    {memory : Memory}
    (changes : Memory.Changes order objects.memory memory)
    (old : order < objects.nextOrder)
    (otherOld : other < objects.nextOrder)
    (different : other ≠ order) :
    memory.value other = objects.memory.value other :=
  changes.others other different
    (separate.apart order other old otherOld (Ne.symm different))

/-- A change of an order does not show in a message that does not point to it. -/
theorem Separate.message_changes
    {objects : Objects}
    (separate : objects.Separate)
    {order : OrderPtr}
    {memory : Memory}
    (changes : Memory.Changes order objects.memory memory)
    (old : order < objects.nextOrder)
    {message : MessagePtr}
    (messageOld : message < objects.messages.next)
    (unshared : (objects.messages.cells message).order ≠ some order) :
    Objects.message { objects with memory := memory } message = objects.message message := by
  have same : (objects.messages.cells message).order.map memory.value =
      (objects.messages.cells message).order.map objects.memory.value := by
    cases points : (objects.messages.cells message).order with
    | none => rfl
    | some other =>
        refine congrArg some (separate.value_changes changes old
          (separate.pointed message messageOld other points) ?_)
        rintro rfl
        exact unshared points
  exact MessageObject.value_withOrder same

/-! ## New orders -/

/-- One more order, made of new items. -/
structure Creates (order : Order) (objects later : Objects) : Prop where
  nextOrder : later.nextOrder = objects.nextOrder + 1
  messages : later.messages = objects.messages
  items : objects.memory.heap.Extends later.memory.heap
  others : ∀ other, other ≠ objects.nextOrder →
    later.memory.orders other = objects.memory.orders other
  value : later.order objects.nextOrder = order
  fresh : ∀ item ∈ (later.memory.orders objects.nextOrder).items,
    objects.memory.heap.next ≤ item
  distinct : (later.memory.orders objects.nextOrder).items.Nodup

theorem Creates.grows
    {order : Order}
    {objects later : Objects}
    (creates : Creates order objects later) :
    Grows objects later where
  nextOrder := by
    rw [creates.nextOrder]
    exact Nat.le_succ _
  orders := fun other old => creates.others other old.ne
  items := creates.items
  messages := creates.messages ▸ .refl _

theorem Creates.separate
    {order : Order}
    {objects later : Objects}
    (creates : Creates order objects later)
    (separate : objects.Separate) :
    later.Separate := by
  have apart : ∀ other, ∀ item ∈ (objects.memory.orders other).items,
      item ∉ (later.memory.orders objects.nextOrder).items := by
    intro other item member shared
    exact absurd (objects.memory.allocated other item member)
      (not_lt.mpr (creates.fresh item shared))
  constructor
  · intro first second isFirst isSecond different
    rw [creates.nextOrder, Nat.lt_succ_iff_lt_or_eq] at isFirst isSecond
    rcases isFirst with isFirst | rfl
    · rcases isSecond with isSecond | rfl
      · rw [creates.others first isFirst.ne, creates.others second isSecond.ne]
        exact separate.apart first second isFirst isSecond different
      · rw [creates.others first isFirst.ne]
        exact apart first
    · rw [creates.others second (Ne.symm different)]
      exact fun item shared member => apart second item member shared
  · intro other isOther
    rw [creates.nextOrder, Nat.lt_succ_iff_lt_or_eq] at isOther
    rcases isOther with isOther | rfl
    · rw [creates.others other isOther.ne]
      exact separate.distinct other isOther
    · exact creates.distinct
  · intro message old other points
    rw [creates.messages] at old points
    exact (separate.pointed message old other points).trans_le creates.grows.nextOrder

theorem creates_makeOrder
    (order : Order)
    (objects : Objects) :
    Creates order objects (objects.makeOrder order).2 := by
  have allocated := Memory.allocateOrder_self objects.nextOrder order.id order.status
    objects.memory
  have appended := Memory.appended_addNewItems objects.nextOrder order.items
    (objects.memory.allocateOrder objects.nextOrder order.id order.status)
  obtain ⟨fresh, items, read, new⟩ := appended.items
  rw [allocated, List.nil_append] at items
  refine ⟨rfl, rfl, appended.extended, ?_, ?_, ?_, ?_⟩
  · intro other different
    exact (appended.others other different).trans (Memory.allocateOrder_other different ..)
  · change Memory.value (List.foldl _ _ _) _ = order
    rw [Memory.value, items, appended.id, appended.status, allocated, read]
  · intro item member
    exact new item (items ▸ member)
  · apply Memory.distinct_addNewItems
    rw [allocated]
    exact List.nodup_nil

theorem creates_duplicateOrder
    {order : OrderPtr}
    {objects : Objects}
    (old : order < objects.nextOrder) :
    Creates (objects.order order) objects (objects.duplicateOrder order).2 := by
  have assigned := Memory.assigned old.ne' (objects.memory.allocateOrder objects.nextOrder
    (objects.memory.orders objects.nextOrder).id
    (objects.memory.orders objects.nextOrder).status)
  obtain ⟨fresh, items, -, new⟩ := assigned.items
  rw [Memory.allocateOrder_self, List.nil_append] at items
  refine ⟨rfl, rfl, assigned.extended, ?_, ?_, ?_, ?_⟩
  · intro other different
    exact (assigned.others other different).trans (Memory.allocateOrder_other different ..)
  · refine (Memory.value_copyConstruct old.ne' _ _ objects.memory).trans ?_
    exact Order.duplicate_eq _
  · intro item member
    exact new item (items ▸ member)
  · exact Memory.distinct_copyConstruct old.ne' _ _ objects.memory

/-! ## New messages -/

theorem grows_makeMessage
    (object : MessageObject)
    (objects : Objects) :
    Grows objects (objects.makeMessage object).2 where
  nextOrder := le_refl _
  orders := fun _ _ => rfl
  items := .refl _
  messages := Heap.extends_alloc _ _

theorem cells_makeMessage
    (object : MessageObject)
    (objects : Objects) :
    (objects.makeMessage object).2.messages.cells objects.messages.next = object :=
  Function.update_self ..

theorem message_makeMessage
    (object : MessageObject)
    (objects : Objects) :
    (objects.makeMessage object).2.message objects.messages.next =
      object.value objects.memory := by
  rw [message, cells_makeMessage]
  rfl

theorem Separate.makeMessage
    {objects : Objects}
    (separate : objects.Separate)
    {object : MessageObject}
    (pointed : ∀ order, object.order = some order → order < objects.nextOrder) :
    (objects.makeMessage object).2.Separate := by
  refine ⟨separate.apart, separate.distinct, fun message old order points => ?_⟩
  rcases Nat.lt_succ_iff_lt_or_eq.mp old with old | rfl
  · have kept := (grows_makeMessage object objects).messages.cells message old
    rw [kept] at points
    exact separate.pointed message old order points
  · rw [cells_makeMessage] at points
    exact pointed order points

/-- More orders and messages. The new messages only point to new orders. -/
structure Adds (objects later : Objects) : Prop extends Grows objects later where
  separate : later.Separate
  new : ∀ message, objects.messages.next ≤ message → message < later.messages.next →
    ∀ order, (later.messages.cells message).order = some order → objects.nextOrder ≤ order

theorem Separate.adds
    {objects : Objects}
    (separate : objects.Separate) :
    Adds objects objects where
  nextOrder := le_refl _
  orders := fun _ _ => rfl
  items := .refl _
  messages := .refl _
  separate := separate
  new := fun _ new old => absurd old (not_lt.mpr new)

theorem Adds.trans
    {objects later last : Objects}
    (first : Adds objects later)
    (second : Adds later last) :
    Adds objects last where
  toGrows := first.toGrows.trans second.toGrows
  separate := second.separate
  new := by
    intro message new old order points
    rcases lt_or_ge message later.messages.next with earlier | latest
    · rw [second.messages.cells message earlier] at points
      exact first.new message new earlier order points
    · exact first.nextOrder.trans (second.new message latest old order points)

theorem Creates.adds
    {order : Order}
    {objects later : Objects}
    (creates : Creates order objects later)
    (separate : objects.Separate) :
    Adds objects later where
  toGrows := creates.grows
  separate := creates.separate separate
  new := fun _ new old => absurd (creates.messages ▸ old) (not_lt.mpr new)

/-- A message with a new order, or with none. -/
theorem Adds.makeMessage
    {objects later : Objects}
    (adds : Adds objects later)
    {object : MessageObject}
    (pointed : ∀ order, object.order = some order →
      objects.nextOrder ≤ order ∧ order < later.nextOrder) :
    Adds objects (later.makeMessage object).2 where
  toGrows := adds.toGrows.trans (grows_makeMessage object later)
  separate := adds.separate.makeMessage fun order points => (pointed order points).2
  new := by
    intro message new old order points
    rcases Nat.lt_succ_iff_lt_or_eq.mp old with old | rfl
    · rw [(grows_makeMessage object later).messages.cells message old] at points
      exact adds.new message new old order points
    · rw [cells_makeMessage] at points
      exact (pointed order points).1

theorem duplicateMessage_cases
    (message : MessagePtr)
    (objects : Objects) :
    (objects.messages.cells message).order = none ∧
        objects.duplicateMessage message =
          objects.makeMessage (objects.messages.cells message) ∨
      ∃ order, (objects.messages.cells message).order = some order ∧
        objects.duplicateMessage message =
          (objects.duplicateOrder order).2.makeMessage
            ((objects.messages.cells message).withOrder
              (some (objects.duplicateOrder order).1)) := by
  unfold duplicateMessage
  dsimp only
  cases points : (objects.messages.cells message).order with
  | none => exact Or.inl ⟨rfl, rfl⟩
  | some order => exact Or.inr ⟨order, rfl, rfl⟩

/-- A duplicate is an equal message with an order of its own. -/
theorem duplicateMessage_spec
    {objects : Objects}
    (separate : objects.Separate)
    {message : MessagePtr}
    (old : message < objects.messages.next) :
    Adds objects (objects.duplicateMessage message).2 ∧
      (objects.duplicateMessage message).1 = objects.messages.next ∧
      (objects.duplicateMessage message).2.messages.next = objects.messages.next + 1 ∧
      (objects.duplicateMessage message).2.message objects.messages.next =
        objects.message message := by
  rcases objects.duplicateMessage_cases message with ⟨none, same⟩ | ⟨order, points, same⟩
  · rw [same]
    refine ⟨separate.adds.makeMessage ?_, rfl, rfl, message_makeMessage _ _⟩
    intro order points
    cases none.symm.trans points
  · have creates := creates_duplicateOrder (separate.pointed message old order points)
    rw [same]
    refine ⟨(creates.adds separate).makeMessage ?_, rfl, rfl, ?_⟩
    · intro copy isCopy
      cases isCopy
      exact ⟨le_refl _, creates.nextOrder ▸ Nat.lt_succ_self _⟩
    · refine (message_makeMessage _ _).trans (MessageObject.value_withOrder ?_)
      rw [points]
      exact congrArg some creates.value

/-- The message that `Wire::decode` makes says what the string says. -/
theorem decode_spec
    {objects : Objects}
    (separate : objects.Separate)
    (msg : Message) :
    Adds objects (objects.decode msg).2 ∧
      (objects.decode msg).1 < (objects.decode msg).2.messages.next ∧
      (objects.decode msg).2.message (objects.decode msg).1 = msg := by
  obtain ⟨temporary, adds, next, value, same⟩ : ∃ temporary : Objects,
      Adds objects temporary ∧ temporary.messages.next = objects.messages.next + 1 ∧
        temporary.message objects.messages.next = msg ∧
        objects.decode msg = temporary.duplicateMessage objects.messages.next := by
    unfold decode
    cases isOrder : msg.order with
    | none =>
        refine ⟨_, separate.adds.makeMessage ?_, rfl, ?_, rfl⟩
        · intro order points
          cases points
        · rw [message_makeMessage]
          exact congrArg (fun order => { msg with order := order }) isOrder.symm
    | some order =>
        have creates := creates_makeOrder order objects
        refine ⟨_, (creates.adds separate).makeMessage ?_, rfl, ?_, rfl⟩
        · intro made isMade
          cases isMade
          exact ⟨le_refl _, creates.nextOrder ▸ Nat.lt_succ_self _⟩
        · refine (message_makeMessage _ _).trans ?_
          have value : (some (objects.makeOrder order).1).map
              (objects.makeOrder order).2.memory.value = msg.order := by
            rw [isOrder]
            exact congrArg some creates.value
          exact congrArg (fun order => { msg with order := order }) value
  have old : objects.messages.next < temporary.messages.next := next ▸ Nat.lt_succ_self _
  obtain ⟨more, isNext, count, copied⟩ := duplicateMessage_spec adds.separate old
  rw [same, isNext, count]
  exact ⟨adds.trans more, Nat.lt_succ_self _, copied.trans value⟩

/-- Duplicates of several orders. -/
theorem duplicateOrders_spec
    {objects : Objects}
    (separate : objects.Separate)
    {orders : List OrderPtr}
    (old : ∀ order ∈ orders, order < objects.nextOrder) :
    Adds objects (objects.duplicateOrders orders).2 ∧
      (∀ copy ∈ (objects.duplicateOrders orders).1, objects.nextOrder ≤ copy ∧
        copy < (objects.duplicateOrders orders).2.nextOrder) ∧
      (objects.duplicateOrders orders).1.map (objects.duplicateOrders orders).2.order =
        orders.map objects.order := by
  induction orders generalizing objects with
  | nil => exact ⟨separate.adds, by simp [duplicateOrders], rfl⟩
  | cons order orders inductionHypothesis =>
      obtain ⟨first, others⟩ := List.forall_mem_cons.mp old
      have creates := creates_duplicateOrder first
      have adds := creates.adds separate
      obtain ⟨more, copies, values⟩ := inductionHypothesis adds.separate
        fun order member => (others order member).trans_le adds.nextOrder
      have isFirst : objects.nextOrder < (objects.duplicateOrder order).2.nextOrder :=
        creates.nextOrder ▸ Nat.lt_succ_self _
      refine ⟨adds.trans more, List.forall_mem_cons.mpr ⟨⟨le_refl _, ?_⟩, ?_⟩, ?_⟩
      · exact isFirst.trans_le more.nextOrder
      · exact fun copy member => ⟨adds.nextOrder.trans (copies copy member).1,
          (copies copy member).2⟩
      · refine congrArg₂ List.cons ((more.order isFirst).trans creates.value)
          (values.trans ?_)
        exact List.map_congr_left fun order member => adds.order (others order member)

end Objects
end OrderTracking
