import Mathlib.Data.Set.List
import OrderTracking.Wire.Encode

/-!
# Messages that survive the wire

A message is well formed when its fields satisfy what the decoder checks. Every
well-formed message is the meaning of a sentence, so encoding and decoding give
it back, as long as an `int` can count the items of its order. No other message
comes back.
-/

namespace OrderTracking
namespace Wire

/-- What the decoder checks of an item. -/
structure WellFormedItem (item : Item) : Prop where
  orderId : 1 ≤ item.orderId
  id : 1 ≤ item.id
  status : item.status ≠ .invalid
  desc : Lacks [pipe, semicolon, colon] item.desc
  qty : 1 ≤ item.qty

/-- What the decoder checks of an order. -/
structure WellFormedOrder (order : Order) : Prop where
  nonempty : order.items ≠ []
  id : 1 ≤ order.id
  status : order.status ≠ .invalid
  items : ∀ item ∈ order.items, WellFormedItem item

/-- What the decoder checks of a message. -/
def WellFormed (message : Message) : Prop :=
  match message.type with
  | .invalid => False
  | .dispHeartbeat => True
  | .login => message.clientMode ≠ .invalid ∧ Lacks [pipe] message.str
  | .quit | .ok | .error => Lacks [pipe] message.str
  | .orderNew | .dispOrder =>
      ∃ order, message.order = some order ∧ WellFormedOrder order
  | .itemUpdate | .dispItemUpdate =>
      1 ≤ message.orderId ∧ 1 ≤ message.itemId ∧ message.itemStatus ≠ .invalid
  | .orderUpdate | .dispOrderUpdate =>
      1 ≤ message.orderId ∧ message.orderStatus ≠ .invalid

/-- Encoding the message into `out` and decoding the result into `msg` gives the
message back. -/
def RoundTrips (out : Bytes) (msg message : Message) : Prop :=
  ∃ s, (encode message).run out = .ok () s ∧ (decode s).run msg = .ok () message

/-! ## Well-formed messages are the meanings of sentences -/

theorem wellFormedItem_meaning
    (tree : ItemSyntax) :
    WellFormedItem tree.meaning where
  orderId := tree.orderId.one_le_value
  id := tree.id.one_le_value
  status := tree.valid
  desc := tree.plain
  qty := tree.qty.one_le_value

theorem wellFormedOrder_meaning
    (tree : OrderSyntax) :
    WellFormedOrder tree.meaning where
  nonempty := by simpa [OrderSyntax.meaning] using tree.nonempty
  id := tree.id.one_le_value
  status := tree.valid
  items := by
    intro item member
    obtain ⟨itemTree, -, rfl⟩ := List.mem_map.mp member
    exact wellFormedItem_meaning itemTree

theorem wellFormed_meaning
    (sentence : Sentence) :
    WellFormed sentence.meaning := by
  cases sentence with
  | heartbeat => trivial
  | login clientMode valid str plain => exact ⟨valid, plain⟩
  | text type kind str plain => rcases kind with rfl | rfl | rfl <;> exact plain
  | itemUpdate type kind orderId itemId status valid =>
      have checked := And.intro orderId.one_le_value
        (And.intro itemId.one_le_value valid)
      rcases kind with rfl | rfl <;> exact checked
  | orderUpdate type kind orderId status valid =>
      have checked := And.intro orderId.one_le_value valid
      rcases kind with rfl | rfl <;> exact checked
  | order type kind tree =>
      have checked := wellFormedOrder_meaning tree
      rcases kind with rfl | rfl <;> exact ⟨_, rfl, checked⟩

theorem exists_itemSyntax
    {item : Item}
    (wellFormed : WellFormedItem item) :
    ∃ tree : ItemSyntax, tree.meaning = item := by
  refine ⟨⟨.ofPositive item.orderId wellFormed.orderId,
    .ofPositive item.id wellFormed.id, item.status, wellFormed.status, item.desc,
    wellFormed.desc, .ofPositive item.qty wellFormed.qty⟩, ?_⟩
  simp [ItemSyntax.meaning]

theorem exists_orderSyntax
    {order : Order}
    (wellFormed : WellFormedOrder order) :
    ∃ tree : OrderSyntax, tree.meaning = order := by
  have inRange : order.items ∈ Set.range (List.map ItemSyntax.meaning) := by
    rw [Set.range_list_map]
    exact fun item member => exists_itemSyntax (wellFormed.items item member)
  obtain ⟨trees, meanings⟩ := inRange
  have nonempty : trees ≠ [] := by
    rintro rfl
    exact wellFormed.nonempty meanings.symm
  refine ⟨⟨.ofPositive order.id wellFormed.id, order.status, wellFormed.status,
    trees, nonempty⟩, ?_⟩
  simp [OrderSyntax.meaning, meanings]

/-- Every well-formed message is the meaning of a sentence. -/
theorem exists_sentence
    {message : Message}
    (built : Message.Built message)
    (wellFormed : WellFormed message) :
    ∃ sentence : Sentence, sentence.meaning = message := by
  cases built with
  | invalid => exact wellFormed.elim
  | heartbeat => exact ⟨.heartbeat, rfl⟩
  | login clientMode str =>
      exact ⟨.login clientMode wellFormed.1 str wellFormed.2, rfl⟩
  | text type kind str =>
      have plain : Lacks [pipe] str := by
        rcases kind with rfl | rfl | rfl <;> exact wellFormed
      exact ⟨.text type kind str plain, rfl⟩
  | order type kind order =>
      have checked : ∃ present, order = some present ∧ WellFormedOrder present := by
        rcases kind with rfl | rfl <;> exact wellFormed
      obtain ⟨present, rfl, checked⟩ := checked
      obtain ⟨tree, rfl⟩ := exists_orderSyntax checked
      exact ⟨.order type kind tree, rfl⟩
  | itemUpdate type kind orderId itemId status =>
      have checked : 1 ≤ orderId ∧ 1 ≤ itemId ∧ status ≠ .invalid := by
        rcases kind with rfl | rfl <;> exact wellFormed
      refine ⟨.itemUpdate type kind (.ofPositive orderId checked.1)
        (.ofPositive itemId checked.2.1) status checked.2.2, ?_⟩
      simp [Sentence.meaning]
  | orderUpdate type kind orderId status =>
      have checked : 1 ≤ orderId ∧ status ≠ .invalid := by
        rcases kind with rfl | rfl <;> exact wellFormed
      refine ⟨.orderUpdate type kind (.ofPositive orderId checked.1) status
        checked.2, ?_⟩
      simp [Sentence.meaning]

/-! ## Orders an `int` cannot count -/

/-- The decoder reads the text of a well-formed order as the order. -/
theorem decodeOrder_orderText
    {order : Order}
    (wellFormed : WellFormedOrder order) :
    decodeOrder (orderText order.id order.status order.items) = .ok order := by
  obtain ⟨tree, rfl⟩ := exists_orderSyntax wellFormed
  rw [orderText_meaning, decodeOrder_print, OrderSyntax.meaning_canonical]

theorem comma_not_mem_toString
    {number : Int32}
    (positive : 1 ≤ number) : comma ∉ Cxx.toString number :=
  (Numeral.ofPositive number positive).lacks.not_mem

theorem decodeOrder_orderText_nil
    {id : Int32}
    (positive : 1 ≤ id)
    {status : OrderStatus}
    (valid : status ≠ .invalid) :
    decodeOrder (orderText id status []) =
      .error (.invalidMessage "Cannot submit an empty order") := by
  have read := validateIdMessage_digits (.ofPositive id positive)
  rw [Numeral.ofPositive_digits, Numeral.value_ofPositive] at read
  rw [orderText, decodeOrder_fields (comma_not_mem_toString positive)
    (lacks_orderStatusToStr status).not_mem, decodeOrderFields, read, ok_bind]
  simp [valid]

/-- What follows the type of a message is split on its own. -/
theorem splitOn_pipe
    (type : MessageType)
    (text : Bytes) :
    ([pipe].intercalate [messageTypeToStr type, text]).splitOn pipe =
      messageTypeToStr type :: text.splitOn pipe := by
  rw [List.intercalate_cons_cons, List.intercalate_singleton,
    splitOn_append_separator (lacks_messageTypeToStr type).not_mem]

/-- The decoder reads an order message's text with the order decoder. -/
theorem decode_order_text
    {type : MessageType}
    (kind : Message.IsOrder type)
    {text : Bytes}
    {msg decoded : Message}
    (accepted : (decode ([pipe].intercalate [messageTypeToStr type, text])).run msg =
      .ok () decoded) :
    Lacks [pipe] text ∧
      ∃ order, decodeOrder text = .ok order ∧ decoded = .ofOrder type (some order) := by
  rw [decode_run (splitOn_pipe type text), strToMessageType_messageTypeToStr]
    at accepted
  have branch : (decodeOrderMessage type (text.splitOn pipe)).run msg =
      .ok () decoded := by
    rcases kind with rfl | rfl <;> exact accepted
  rcases pieces : text.splitOn pipe with _ | ⟨piece, _ | ⟨next, others⟩⟩
  · exact absurd pieces (List.splitOn_ne_nil pipe text)
  · obtain ⟨-, lacking, joined⟩ := splitOn_eq_iff.mp pieces
    rw [List.intercalate_singleton] at joined
    subst joined
    rw [pieces] at branch
    refine ⟨by simpa [Lacks] using lacking, ?_⟩
    cases result : decodeOrder piece with
    | error exception => simp [decodeOrderMessage, result] at branch
    | ok order =>
        simp only [decodeOrderMessage, EStateM.run_bind, result, Code.run_lift_ok,
          EStateM.run_set, Message.duplicate_eq] at branch
        cases branch
        exact ⟨order, rfl, rfl⟩
  · rw [pieces] at branch
    cases branch

/-- Whatever the decoder makes of a well-formed order's encoding holds only the
items the encoder visited. -/
theorem decode_encodeOrder_items
    {type : MessageType}
    (kind : Message.IsOrder type)
    {order decoded : Order}
    (wellFormed : WellFormedOrder order)
    {out s : Bytes}
    {msg : Message}
    (encoded : (encode (.ofOrder type (some order))).run out = .ok () s)
    (accepted : (decode s).run msg = .ok () (.ofOrder type (some decoded))) :
    decoded.items = order.visited := by
  by_cases zero : order.getNumItems = 0
  · have rejected : encodeOrder (some order) =
        .error (.invalidMessage "Order cannot be empty") := by
      rw [encodeOrder_some, if_pos zero]
    rw [encode_order_of_error kind rejected] at encoded
    cases encoded
  · have text : encodeOrder (some order) =
        .ok (orderText order.id order.status order.visited) := by
      rw [encodeOrder_some, if_neg zero]
    rw [encode_order_of_ok kind text] at encoded
    cases encoded
    by_cases empty : order.visited = []
    · rw [empty] at accepted
      obtain ⟨-, _, read, -⟩ := decode_order_text kind accepted
      rw [decodeOrder_orderText_nil wellFormed.id wellFormed.status] at read
      cases read
    · have sent : WellFormedOrder ⟨order.id, order.status, order.visited⟩ := by
        refine ⟨empty, wellFormed.id, wellFormed.status, ?_⟩
        exact fun item member => wellFormed.items item (Order.mem_of_mem_visited member)
      obtain ⟨-, _, read, same⟩ := decode_order_text kind accepted
      rw [decodeOrder_orderText sent] at read
      cases read
      simp only [Message.ofOrder, Message.mk.injEq, Option.some.injEq] at same
      rw [same.2.2.2.1]

/-! ## The round trip -/

/-- A sentence's meaning that an `int` can count comes back. -/
theorem roundTrips_meaning
    (sentence : Sentence)
    (countable : Countable sentence.meaning)
    (out : Bytes)
    (msg : Message) :
    RoundTrips out msg sentence.meaning := by
  refine ⟨sentence.canonical.print, encode_meaning sentence countable out, ?_⟩
  rw [decode_print, Sentence.meaning_canonical]

theorem wellFormed_of_roundTrips
    {out : Bytes}
    {msg message : Message}
    (returned : RoundTrips out msg message) :
    WellFormed message := by
  obtain ⟨s, -, decoded⟩ := returned
  obtain ⟨sentence, -, rfl⟩ := decode_eq_ok decoded
  exact wellFormed_meaning sentence

theorem countable_of_roundTrips
    {out : Bytes}
    {msg message : Message}
    (returned : RoundTrips out msg message) :
    Countable message := by
  obtain ⟨s, encoded, decoded⟩ := returned
  obtain ⟨sentence, -, rfl⟩ := decode_eq_ok decoded
  intro order isOrder
  cases sentence with
  | order type kind tree =>
      cases isOrder
      have items := decode_encodeOrder_items kind (wellFormedOrder_meaning tree)
        encoded decoded
      exact (Order.visited_eq_items_iff _).mp items.symm
  | heartbeat => cases isOrder
  | login clientMode valid str plain => cases isOrder
  | text type kind str plain => cases isOrder
  | itemUpdate type kind orderId itemId status valid => cases isOrder
  | orderUpdate type kind orderId status valid => cases isOrder

/-- A message comes back from the wire exactly when it is well formed and an
`int` can count the items of its order. -/
theorem roundTrips_iff
    {message : Message}
    (built : Message.Built message)
    (out : Bytes)
    (msg : Message) :
    RoundTrips out msg message ↔ WellFormed message ∧ Countable message := by
  constructor
  · intro returned
    exact ⟨wellFormed_of_roundTrips returned, countable_of_roundTrips returned⟩
  · rintro ⟨wellFormed, countable⟩
    obtain ⟨sentence, rfl⟩ := exists_sentence built wellFormed
    exact roundTrips_meaning sentence countable out msg

/-- An order of so many teas. -/
def teas (count : Nat) : Order where
  id := 1
  status := .new
  items := List.replicate count ⟨1, 1, .new, ascii "tea", 1⟩

theorem length_teas (count : Nat) : (teas count).items.length = count :=
  List.length_replicate

theorem wellFormedOrder_teas
    {count : Nat}
    (positive : 0 < count) :
    WellFormedOrder (teas count) where
  nonempty := by
    rw [← List.length_pos_iff, length_teas]
    exact positive
  id := Int32.le_refl 1
  status := by simp [teas]
  items := by
    intro item member
    obtain rfl := List.eq_of_mem_replicate member
    exact ⟨by decide, by decide, by decide, by decide, by decide⟩

theorem teas_roundTrips :
    RoundTrips [] .empty (.ofOrder .orderNew (some (teas 2))) := by
  rw [roundTrips_iff (.order .orderNew (by decide) _)]
  refine ⟨⟨_, rfl, wellFormedOrder_teas (by decide)⟩, ?_⟩
  intro order isOrder
  cases isOrder
  rw [length_teas]
  omega

/-- An order of `2 ^ 31` teas is well formed but does not come back. -/
theorem teas_lost :
    Message.Built (.ofOrder .orderNew (some (teas (2 ^ 31)))) ∧
      WellFormed (.ofOrder .orderNew (some (teas (2 ^ 31)))) ∧
      ∀ out msg, ¬ RoundTrips out msg (.ofOrder .orderNew (some (teas (2 ^ 31)))) := by
  refine ⟨.order .orderNew (by decide) _,
    ⟨_, rfl, wellFormedOrder_teas (Nat.two_pow_pos 31)⟩, ?_⟩
  intro out msg returned
  have small := countable_of_roundTrips returned _ rfl
  rw [length_teas] at small
  exact Nat.lt_irrefl _ small

end Wire
end OrderTracking
