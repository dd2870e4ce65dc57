import OrderTracking.Wire.Defs

/-!
# What the equality operators compare

`Order::operator==` compares the items an `int` counts, and `Message::operator==`
looks at the orders only when the left message has one. They are equality except
for these two omissions. The tests of the decoder judge it by `==`.
-/

namespace OrderTracking

/-! ## Orders -/

namespace Order

/-- The orders agree in everything `==` looks at, but not in their items. -/
def ConfusedWith (order rhs : Order) : Prop :=
  order.id = rhs.id ∧ order.status = rhs.status ∧
    order.getNumItems = rhs.getNumItems ∧ order.visited = rhs.visited ∧
    order.items ≠ rhs.items

/-- Orders an `int` can count the items of are not confused. -/
theorem not_confusedWith_of_length_lt
    {order rhs : Order}
    (left : order.items.length < 2 ^ 31)
    (right : rhs.items.length < 2 ^ 31) :
    ¬ order.ConfusedWith rhs := by
  rintro ⟨-, -, -, visited, different⟩
  rw [visited_of_length_lt left, visited_of_length_lt right] at visited
  exact different visited

/-- Comparing lists of one length item by item. -/
theorem all_zip_equals_iff
    {items others : List Item}
    (sameLength : items.length = others.length) :
    ((items.zip others).all fun (item, other) => item.equals other) = true ↔
      items = others := by
  induction items generalizing others with
  | nil =>
      rw [List.length_nil, eq_comm, List.length_eq_zero_iff] at sameLength
      simp [sameLength]
  | cons item items inductionHypothesis =>
      cases others with
      | nil => cases sameLength
      | cons other others =>
          rw [List.zip_cons_cons, List.all_cons, Bool.and_eq_true, Item.equals_iff,
            inductionHypothesis (Nat.succ.inj sameLength), List.cons.injEq]

/-- What `==` compares. -/
theorem equals_iff (order rhs : Order) :
    order.equals rhs = true ↔
      order.id = rhs.id ∧ order.status = rhs.status ∧
        order.getNumItems = rhs.getNumItems ∧ order.visited = rhs.visited := by
  unfold equals
  split
  next differ =>
    constructor
    · intro impossible
      cases impossible
    · rintro ⟨id, status, count, -⟩
      simp [id, status, count] at differ
  next agree =>
    simp only [ne_eq, not_or, not_not] at agree
    obtain ⟨id, status, count⟩ := agree
    have sameLength : order.visited.length = rhs.visited.length := by
      rw [length_visited, length_visited, count]
    rw [all_zip_equals_iff sameLength]
    simp [id, status, count]

/-- `==` is equality exactly on the orders it does not confuse. -/
theorem equals_iff_eq_iff (order rhs : Order) :
    (order.equals rhs = true ↔ order = rhs) ↔ ¬ order.ConfusedWith rhs := by
  rw [equals_iff]
  constructor
  · rintro trueEquality ⟨id, status, count, visited, different⟩
    have equal := trueEquality.mp ⟨id, status, count, visited⟩
    exact different (congrArg items equal)
  · intro distinguished
    constructor
    · rintro ⟨id, status, count, visited⟩
      have items : order.items = rhs.items := by
        by_contra different
        exact distinguished ⟨id, status, count, visited, different⟩
      cases order
      cases rhs
      simp_all
    · rintro rfl
      exact ⟨rfl, rfl, rfl, rfl⟩

end Order

/-! ## Messages -/

namespace Message

/-- Every field but the order is the same. -/
def SameOutsideOrder (message rhs : Message) : Prop :=
  message.type = rhs.type ∧ message.clientMode = rhs.clientMode ∧
    message.str = rhs.str ∧ message.orderId = rhs.orderId ∧
    message.orderStatus = rhs.orderStatus ∧ message.itemId = rhs.itemId ∧
    message.itemStatus = rhs.itemStatus

/-- The messages agree outside their orders, and either only the right one has an
order or their orders are confused. -/
def ConfusedWith (message rhs : Message) : Prop :=
  SameOutsideOrder message rhs ∧
    (message.order = none ∧ rhs.order ≠ none ∨
      ∃ order other, message.order = some order ∧ rhs.order = some other ∧
        order.ConfusedWith other)

/-- On these two messages `==` says whether all fields are equal. -/
def TrueEquality (message rhs : Message) : Prop :=
  message.equals rhs = true ↔ message = rhs

theorem eq_iff_sameOutsideOrder (message rhs : Message) :
    message = rhs ↔ SameOutsideOrder message rhs ∧ message.order = rhs.order := by
  cases message
  cases rhs
  simp only [mk.injEq, SameOutsideOrder]
  constructor
  · rintro ⟨type, clientMode, str, order, orderId, orderStatus, itemId, itemStatus⟩
    exact ⟨⟨type, clientMode, str, orderId, orderStatus, itemId, itemStatus⟩, order⟩
  · rintro ⟨⟨type, clientMode, str, orderId, orderStatus, itemId, itemStatus⟩, order⟩
    exact ⟨type, clientMode, str, order, orderId, orderStatus, itemId, itemStatus⟩

/-- What `==` compares. -/
theorem equals_iff (message rhs : Message) :
    message.equals rhs = true ↔
      SameOutsideOrder message rhs ∧
        ordersDiffer message.order rhs.order = false := by
  unfold equals
  split
  next differ =>
    constructor
    · intro impossible
      cases impossible
    · rintro ⟨⟨type, clientMode, str, orderId, orderStatus, itemId, itemStatus⟩, order⟩
      simp [type, clientMode, str, order, orderId, orderStatus, itemId,
        itemStatus] at differ
  next agree =>
    simp only [ne_eq, not_or, not_not, Bool.not_eq_true] at agree
    obtain ⟨type, clientMode, str, order, orderId, orderStatus, itemId, itemStatus⟩ :=
      agree
    simp only [true_iff]
    exact ⟨⟨type, clientMode, str, orderId, orderStatus, itemId, itemStatus⟩, order⟩

/-- `==` is equality on exactly the pairs it does not confuse. -/
theorem trueEquality_iff (message rhs : Message) :
    TrueEquality message rhs ↔ ¬ message.ConfusedWith rhs := by
  rw [TrueEquality, equals_iff, eq_iff_sameOutsideOrder, and_congr_right_iff,
    ConfusedWith, not_and]
  apply imp_congr_right
  intro sameOutside
  cases left : message.order with
  | none =>
      cases right : rhs.order with
      | none => simp [ordersDiffer]
      | some other => simp [ordersDiffer]
  | some order =>
      cases right : rhs.order with
      | none => simp [ordersDiffer]
      | some other =>
          simp only [ordersDiffer, Bool.not_eq_false', Option.some.injEq,
            Order.equals_iff_eq_iff]
          simp

theorem equals_refl (message : Message) : message.equals message = true := by
  have notConfused : ¬ message.ConfusedWith message := by
    rintro ⟨-, ⟨absent, present⟩ | ⟨order, other, left, right, confused⟩⟩
    · exact present absent
    · rw [left] at right
      cases right
      obtain ⟨-, -, -, -, different⟩ := confused
      exact different rfl
  exact ((trueEquality_iff message message).mpr notConfused).mpr rfl

theorem ordersDiffer_trans
    {order rhs third : Option Order}
    (same : ordersDiffer order rhs = false)
    (sameThird : ordersDiffer rhs third = false) :
    ordersDiffer order third = false := by
  cases order with
  | none => rfl
  | some first =>
      cases rhs with
      | none => cases same
      | some second =>
          cases third with
          | none => cases sameThird
          | some last =>
              simp only [ordersDiffer, Bool.not_eq_false', Order.equals_iff] at same sameThird ⊢
              obtain ⟨id, status, count, visited⟩ := same
              rwa [id, status, count, visited]

/-- `==` is transitive, also where it confuses. -/
theorem equals_trans
    {message rhs third : Message}
    (equal : message.equals rhs = true)
    (equalThird : rhs.equals third = true) :
    message.equals third = true := by
  rw [equals_iff] at equal equalThird ⊢
  obtain ⟨⟨type, clientMode, str, orderId, orderStatus, itemId, itemStatus⟩, order⟩ := equal
  refine ⟨?_, ordersDiffer_trans order equalThird.2⟩
  rw [SameOutsideOrder, type, clientMode, str, orderId, orderStatus, itemId, itemStatus]
  exact equalThird.1

/-- Only the direction in which `==` can err matters. -/
theorem equal_of_equals_iff (message rhs : Message) :
    (message.equals rhs = true → message = rhs) ↔ ¬ message.ConfusedWith rhs := by
  rw [← trueEquality_iff]
  constructor
  · intro equal
    refine ⟨equal, ?_⟩
    rintro rfl
    exact equals_refl message
  · intro trueEquality
    exact trueEquality.mp

/-- `TEST_DECODE`: decode the string and compare the result with the message. -/
def testDecode (expected : Message) (encoded : Bytes) : Bool :=
  match (Wire.decode encoded).run .empty with
  | .ok _ msg => msg.equals expected
  | .error _ _ => false

/-- `==` is equality on exactly the pairs it does not confuse. It is reflexive and
transitive, it is symmetric where it does not confuse, and a passed test of the
decoder means that it produced the expected message unless it confuses the two. -/
theorem equals_is_equality
    (message rhs third expected : Message)
    (encoded : Bytes) :
    (TrueEquality message rhs ↔ ¬ ConfusedWith message rhs) ∧
    equals message message = true ∧
    (¬ ConfusedWith message rhs → equals message rhs = true →
      equals rhs message = true) ∧
    (equals message rhs = true → equals rhs third = true →
      equals message third = true) ∧
    ((testDecode expected encoded = true →
        (Wire.decode encoded).run .empty = .ok () expected) ↔
      ¬ ∃ msg, (Wire.decode encoded).run .empty = .ok () msg ∧
        msg.ConfusedWith expected) := by
  refine ⟨trueEquality_iff message rhs, equals_refl message, ?_, equals_trans, ?_⟩
  · intro distinguished equal
    have same := ((trueEquality_iff message rhs).mpr distinguished).mp equal
    rw [same]
    exact equals_refl rhs
  · rw [testDecode]
    cases (Wire.decode encoded).run .empty with
    | error exception msg => simp
    | ok value msg =>
        have judged := equal_of_equals_iff msg expected
        simpa using judged

/-- An order message without its order. -/
def orderless : Message := .ofType .orderNew

/-- An order message with its order. -/
def teaOrdered : Message :=
  .ofOrder .orderNew (some ⟨1, .new, [⟨1, 1, .new, ascii "tea", 1⟩]⟩)

/-- From the left a missing order equals every order, from the right none. -/
theorem orderless_equals_teaOrdered :
    ¬ TrueEquality orderless teaOrdered ∧ orderless.equals teaOrdered = true ∧
      teaOrdered.equals orderless = false := by
  refine ⟨?_, by decide, by decide⟩
  intro trueEquality
  have equal : orderless = teaOrdered := trueEquality.mp (by decide)
  exact absurd equal (by decide)

end Message
end OrderTracking
