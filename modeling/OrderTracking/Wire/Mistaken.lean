import OrderTracking.Wire.Splice

/-!
# Messages mistaken for others

The decoder may read the encoding of a message as a different message. This
happens to order messages only, and for two reasons: a description that is a
splice adds items, and from `2 ^ 31` items on the encoder leaves items out.
-/

namespace OrderTracking
namespace Wire

/-- Whenever the message is encoded and the result decoded, the same message
comes out. -/
def NeverMistaken (message : Message) : Prop :=
  ∀ out msg s decoded, (encode message).run out = .ok () s →
    (decode s).run msg = .ok () decoded → decoded = message

/-- An order whose encoding the decoder accepts as a different order. -/
structure MistakableOrder (order : Order) : Prop where
  id : 1 ≤ order.id
  status : order.status ≠ .invalid
  nonempty : order.visited ≠ []
  readable : ∀ item ∈ order.visited, Readable item
  changed : 2 ^ 31 ≤ order.items.length ∨ ∃ item ∈ order.visited, Spliced item.desc

/-- An order message with such an order. -/
def Mistakable (message : Message) : Prop :=
  ∃ type order, Message.IsOrder type ∧ message = .ofOrder type (some order) ∧
    MistakableOrder order

/-! ## Messages without an order -/

/-- No number is read as a different one. -/
theorem validateIdMessage_toString
    {number read : Int32}
    (accepted : validateIdMessage (Cxx.toString number) 1 = .ok read) :
    read = number := by
  obtain ⟨numeral, digits, rfl⟩ := validateIdMessage_eq_ok_iff.mp accepted
  exact (toString_eq_digits digits.symm).2

theorem neverMistaken_login
    (clientMode : ClientMode)
    (str : Bytes) :
    NeverMistaken (.ofMode .login clientMode str) := by
  intro out msg s decoded encoded accepted
  rw [encode_login] at encoded
  cases encoded
  have modeLacks : pipe ∉ clientModeToStr clientMode :=
    (lacks_clientModeToStr _).not_mem
  have pieces : ([pipe].intercalate [messageTypeToStr .login,
      clientModeToStr clientMode, str]).splitOn pipe =
      messageTypeToStr .login :: clientModeToStr clientMode :: str.splitOn pipe := by
    rw [List.intercalate_cons_cons, List.intercalate_cons_cons,
      List.intercalate_singleton,
      splitOn_append_separator (lacks_messageTypeToStr _).not_mem,
      splitOn_append_separator modeLacks]
  rw [decode_run pieces, strToMessageType_messageTypeToStr] at accepted
  rcases strPieces : str.splitOn pipe with _ | ⟨piece, _ | ⟨next, others⟩⟩
  · exact absurd strPieces (List.splitOn_ne_nil pipe str)
  · rw [strPieces] at accepted
    have same := eq_intercalate strPieces
    rw [List.intercalate_singleton] at same
    simp only [decodeFields, decodeLogin, strToClientMode_clientModeToStr]
      at accepted
    split at accepted
    · cases accepted
    · cases accepted
      rw [same]
  · rw [strPieces] at accepted
    cases accepted

theorem neverMistaken_text
    {type : MessageType}
    (kind : Message.IsText type)
    (str : Bytes) :
    NeverMistaken (.ofStr type str) := by
  intro out msg s decoded encoded accepted
  rw [encode_text kind] at encoded
  cases encoded
  rw [decode_run (splitOn_pipe type str), strToMessageType_messageTypeToStr]
    at accepted
  have branch : (decodeText type (str.splitOn pipe)).run msg = .ok () decoded := by
    rcases kind with rfl | rfl | rfl <;> exact accepted
  rcases strPieces : str.splitOn pipe with _ | ⟨piece, _ | ⟨next, others⟩⟩
  · exact absurd strPieces (List.splitOn_ne_nil pipe str)
  · rw [strPieces] at branch
    have same := eq_intercalate strPieces
    rw [List.intercalate_singleton] at same
    cases branch
    rw [same]
  · rw [strPieces] at branch
    cases branch

theorem neverMistaken_itemUpdate
    {type : MessageType}
    (kind : Message.IsItemUpdate type)
    (orderId itemId : Int32)
    (status : ItemStatus) :
    NeverMistaken (.ofItemStatus type orderId itemId status) := by
  intro out msg s decoded encoded accepted
  rw [encode_itemUpdate kind] at encoded
  cases encoded
  have typeLacks : pipe ∉ messageTypeToStr type := (lacks_messageTypeToStr _).not_mem
  have orderIdLacks : pipe ∉ Cxx.toString orderId := (lacks_toString _).not_mem
  have itemIdLacks : pipe ∉ Cxx.toString itemId := (lacks_toString _).not_mem
  have statusLacks : pipe ∉ itemStatusToStr status := (lacks_itemStatusToStr _).not_mem
  have pieces : ([pipe].intercalate [messageTypeToStr type, Cxx.toString orderId,
      Cxx.toString itemId, itemStatusToStr status]).splitOn pipe =
      [messageTypeToStr type, Cxx.toString orderId, Cxx.toString itemId,
        itemStatusToStr status] := by
    apply List.splitOn_intercalate
    · simpa using ⟨typeLacks, orderIdLacks, itemIdLacks, statusLacks⟩
    · simp
  rw [decode_run pieces, strToMessageType_messageTypeToStr] at accepted
  have branch : (decodeItemUpdate type [Cxx.toString orderId, Cxx.toString itemId,
      itemStatusToStr status]).run msg = .ok () decoded := by
    rcases kind with rfl | rfl <;> exact accepted
  cases orderIdRead : validateIdMessage (Cxx.toString orderId) 1 with
  | error exception => simp [decodeItemUpdate, orderIdRead] at branch
  | ok readOrderId =>
      cases itemIdRead : validateIdMessage (Cxx.toString itemId) 1 with
      | error exception => simp [decodeItemUpdate, orderIdRead, itemIdRead] at branch
      | ok readItemId =>
          by_cases invalid : status = .invalid
          · simp [decodeItemUpdate, orderIdRead, itemIdRead, invalid] at branch
          · simp only [decodeItemUpdate, EStateM.run_bind, orderIdRead, itemIdRead,
              Code.run_lift_ok, strToItemStatus_itemStatusToStr, invalid, if_false,
              EStateM.run_set] at branch
            cases branch
            rw [validateIdMessage_toString orderIdRead,
              validateIdMessage_toString itemIdRead]

theorem neverMistaken_orderUpdate
    {type : MessageType}
    (kind : Message.IsOrderUpdate type)
    (orderId : Int32)
    (status : OrderStatus) :
    NeverMistaken (.ofOrderStatus type orderId status) := by
  intro out msg s decoded encoded accepted
  rw [encode_orderUpdate kind] at encoded
  cases encoded
  have typeLacks : pipe ∉ messageTypeToStr type := (lacks_messageTypeToStr _).not_mem
  have orderIdLacks : pipe ∉ Cxx.toString orderId := (lacks_toString _).not_mem
  have statusLacks : pipe ∉ orderStatusToStr status :=
    (lacks_orderStatusToStr _).not_mem
  have pieces : ([pipe].intercalate [messageTypeToStr type, Cxx.toString orderId,
      orderStatusToStr status]).splitOn pipe =
      [messageTypeToStr type, Cxx.toString orderId, orderStatusToStr status] := by
    apply List.splitOn_intercalate
    · simpa using ⟨typeLacks, orderIdLacks, statusLacks⟩
    · simp
  rw [decode_run pieces, strToMessageType_messageTypeToStr] at accepted
  have branch : (decodeOrderUpdate type [Cxx.toString orderId,
      orderStatusToStr status]).run msg = .ok () decoded := by
    rcases kind with rfl | rfl <;> exact accepted
  cases orderIdRead : validateIdMessage (Cxx.toString orderId) 1 with
  | error exception => simp [decodeOrderUpdate, orderIdRead] at branch
  | ok readOrderId =>
      by_cases invalid : status = .invalid
      · simp [decodeOrderUpdate, orderIdRead, invalid] at branch
      · simp only [decodeOrderUpdate, EStateM.run_bind, orderIdRead,
          Code.run_lift_ok, strToOrderStatus_orderStatusToStr, invalid, if_false,
          EStateM.run_set] at branch
        cases branch
        rw [validateIdMessage_toString orderIdRead]

/-! ## Order messages -/

/-- Cutting both at the commas shows what a sentence that reads as the text of
an order is made of. -/
theorem orderSyntax_of_orderText
    {tree : OrderSyntax}
    {id : Int32}
    {status : OrderStatus}
    {items : List Item}
    (printed : tree.print = orderText id status items) :
    1 ≤ id ∧ tree.id.value = id ∧ tree.status = status ∧
      tree.printItems = [semicolon].intercalate (items.map encodeItem) := by
  have idLacks : comma ∉ Cxx.toString id := (lacks_toString _).not_mem
  have treeIdLacks : comma ∉ tree.id.digits := tree.id.lacks.not_mem
  have statusLacks (any : OrderStatus) : comma ∉ orderStatusToStr any :=
    (lacks_orderStatusToStr _).not_mem
  have pieces := congrArg (List.splitOn comma) printed
  simp only [OrderSyntax.print, orderText, List.append_assoc, List.cons_append,
    List.nil_append] at pieces
  rw [List.splitOn_append_cons_self_of_not_mem treeIdLacks,
    List.splitOn_append_cons_self_of_not_mem (statusLacks _),
    List.splitOn_append_cons_self_of_not_mem idLacks,
    List.splitOn_append_cons_self_of_not_mem (statusLacks _)] at pieces
  simp only [List.cons.injEq] at pieces
  obtain ⟨digits, names, rest⟩ := pieces
  obtain ⟨positive, value⟩ := toString_eq_digits digits.symm
  have sameStatus : tree.status = status := by
    rw [← strToOrderStatus_orderStatusToStr tree.status, names,
      strToOrderStatus_orderStatusToStr]
  refine ⟨positive, value, sameStatus, ?_⟩
  rw [eq_intercalate rest, List.intercalate_splitOn]

/-- The syntax tree the decoder finds in the encoding of an order message. -/
theorem orderSyntax_of_accepted
    {type : MessageType}
    (kind : Message.IsOrder type)
    {order : Option Order}
    {out s : Bytes}
    {msg decoded : Message}
    (encoded : (encode (.ofOrder type order)).run out = .ok () s)
    (accepted : (decode s).run msg = .ok () decoded) :
    ∃ (present : Order) (tree : OrderSyntax), order = some present ∧
      tree.print = orderText present.id present.status present.visited ∧
      decoded = .ofOrder type (some tree.meaning) := by
  cases text : encodeOrder order with
  | error exception =>
      rw [encode_order_of_error kind text] at encoded
      cases encoded
  | ok orderStr =>
      rw [encode_order_of_ok kind text] at encoded
      cases encoded
      obtain ⟨plain, read, decodedOrder, rfl⟩ := decode_order_text kind accepted
      obtain ⟨tree, printed, rfl⟩ := decodeOrder_eq_ok plain decodedOrder
      cases order with
      | none => cases text
      | some present =>
          rw [encodeOrder_some] at text
          split at text
          · cases text
          · rw [← Except.ok.inj text] at printed
            exact ⟨present, tree, rfl, printed, rfl⟩

/-- The items an order text is written from are not none, and each is readable. -/
theorem readable_of_orderText
    {tree : OrderSyntax}
    {id : Int32}
    {status : OrderStatus}
    {items : List Item}
    (printed : tree.print = orderText id status items) :
    items ≠ [] ∧ ∀ item ∈ items, Readable item := by
  obtain ⟨-, -, -, printedItems⟩ := orderSyntax_of_orderText printed
  have nonempty : items ≠ [] := by
    rintro rfl
    exact tree.printItems_ne_nil printedItems
  refine ⟨nonempty, fun item member => ?_⟩
  have pieces := tree.splitOn_printItems
  rw [printedItems, splitOn_intercalate_flatMap semicolon _ (by simpa using nonempty)]
    at pieces
  have inRange : (encodeItem item).splitOn semicolon ∈
      Set.range (List.map ItemSyntax.print) := by
    rw [Set.range_list_map]
    intro piece isPiece
    have isPrinted : piece ∈ tree.items.map ItemSyntax.print := by
      rw [← pieces, List.mem_flatMap]
      exact ⟨_, List.mem_map_of_mem member, isPiece⟩
    obtain ⟨itemTree, -, same⟩ := List.mem_map.mp isPrinted
    exact ⟨itemTree, same⟩
  obtain ⟨trees, same⟩ := inRange
  exact readable_of_splitOn same.symm

/-- An order that is not mistakable is read back unchanged or rejected. -/
theorem neverMistaken_order
    {type : MessageType}
    (kind : Message.IsOrder type)
    {order : Option Order}
    (sound : ¬ Mistakable (.ofOrder type order)) :
    NeverMistaken (.ofOrder type order) := by
  intro out msg s decoded encoded accepted
  obtain ⟨present, tree, rfl, printed, rfl⟩ :=
    orderSyntax_of_accepted kind encoded accepted
  obtain ⟨positive, -, sameStatus, -⟩ := orderSyntax_of_orderText printed
  obtain ⟨nonempty, readable⟩ := readable_of_orderText printed
  have valid : present.status ≠ .invalid := sameStatus ▸ tree.valid
  have unchanged : ¬ (2 ^ 31 ≤ present.items.length ∨
      ∃ item ∈ present.visited, Spliced item.desc) := by
    intro changed
    exact sound ⟨type, present, kind, rfl,
      ⟨positive, valid, nonempty, readable, changed⟩⟩
  rw [not_or, not_le] at unchanged
  obtain ⟨countable, plain⟩ := unchanged
  rw [Order.visited_of_length_lt countable] at printed nonempty readable plain
  have wellFormed : WellFormedOrder present := by
    refine ⟨nonempty, positive, valid, fun item member => ?_⟩
    obtain ⟨orderId, id, status, desc, qty⟩ := readable item member
    have notSpliced : ¬ Spliced item.desc := fun spliced =>
      plain ⟨item, member, spliced⟩
    exact ⟨orderId, id, status, desc.resolve_right notSpliced, qty⟩
  have read := decodeOrder_orderText wellFormed
  rw [← printed, decodeOrder_print] at read
  cases read
  rfl

/-- The item strings in the encodings of readable items are items, the same ones
if no description is a splice. -/
theorem exists_items_of_forall_readable
    {items : List Item}
    (readable : ∀ item ∈ items, Readable item) :
    ∃ trees : List ItemSyntax,
      (items.map encodeItem).flatMap (·.splitOn semicolon) =
        trees.map ItemSyntax.print ∧
      ((∀ item ∈ items, ¬ Spliced item.desc) →
        trees.map ItemSyntax.meaning = items) := by
  induction items with
  | nil => exact ⟨[], rfl, fun _ => rfl⟩
  | cons item items inductionHypothesis =>
      obtain ⟨others, otherPieces, otherMeanings⟩ :=
        inductionHypothesis fun other member =>
          readable other (List.mem_cons_of_mem _ member)
      have itemReadable := readable item List.mem_cons_self
      obtain ⟨trees, pieces, meanings⟩ := exists_items_of_readable itemReadable
      refine ⟨trees ++ others, ?_, ?_⟩
      · rw [List.map_cons, List.flatMap_cons, pieces, otherPieces, List.map_append]
      · intro plain
        have own := meanings
          (itemReadable.desc.resolve_right (plain item List.mem_cons_self))
        rw [List.map_append, own, otherMeanings fun other member =>
          plain other (List.mem_cons_of_mem _ member)]
        rfl

/-- The decoder accepts a mistakable order as a different one. -/
theorem not_neverMistaken_of_mistakable
    {message : Message}
    (mistakable : Mistakable message) :
    ¬ NeverMistaken message := by
  obtain ⟨type, order, kind, rfl, mistakable⟩ := mistakable
  obtain ⟨positive, valid, nonempty, readable, changed⟩ := mistakable
  obtain ⟨trees, pieces, meanings⟩ := exists_items_of_forall_readable readable
  rw [← splitOn_intercalate_flatMap semicolon _ (by simpa using nonempty)] at pieces
  have treesNonempty : trees ≠ [] := by
    rintro rfl
    exact List.splitOn_ne_nil _ _ pieces
  have printed : (OrderSyntax.mk (.ofPositive order.id positive) order.status valid
      trees treesNonempty).print = orderText order.id order.status order.visited := by
    rw [OrderSyntax.print, OrderSyntax.printItems, ← eq_intercalate pieces]
    rfl
  generalize shape : OrderSyntax.mk (.ofPositive order.id positive) order.status
    valid trees treesNonempty = tree at printed
  have items : tree.meaning.items = trees.map ItemSyntax.meaning := by
    rw [← shape]
    rfl
  have notZero : order.getNumItems ≠ 0 := by
    intro zero
    apply nonempty
    rw [Order.visited_eq_nil_iff, (Order.getNumItems_eq_zero_iff order).mp zero]
  have encoded : encodeOrder (some order) = .ok tree.print := by
    rw [encodeOrder_some, if_neg notZero, printed]
  intro never
  have same := never [] .empty _ _ (encode_order_of_ok kind encoded [])
    (decode_print (.order type kind tree) .empty)
  simp only [Sentence.meaning, Message.ofOrder, Message.mk.injEq,
    Option.some.injEq] at same
  rw [same.2.2.2.1] at items
  by_cases plain : ∀ item ∈ order.visited, ¬ Spliced item.desc
  · rw [meanings plain] at items
    have countable := (Order.visited_eq_items_iff order).mp items.symm
    rcases changed with crowded | ⟨item, member, spliced⟩
    · exact absurd countable (by omega)
    · exact plain item member spliced
  · simp only [not_forall, not_not] at plain
    obtain ⟨item, member, spliced⟩ := plain
    have isItem := Order.mem_of_mem_visited member
    rw [items] at isItem
    obtain ⟨itemTree, -, rfl⟩ := List.mem_map.mp isItem
    exact itemTree.plain semicolon (by decide) spliced.semicolon_mem

/-- Encoding and decoding never turn a message into a different one, except for
the mistakable order messages, where they do. -/
theorem neverMistaken_iff
    {message : Message}
    (built : Message.Built message) :
    NeverMistaken message ↔ ¬ Mistakable message := by
  constructor
  · intro never mistakable
    exact not_neverMistaken_of_mistakable mistakable never
  · intro sound
    cases built with
    | invalid =>
        intro out msg s decoded encoded
        rw [encode_invalid] at encoded
        cases encoded
    | heartbeat =>
        intro out msg s decoded encoded accepted
        rw [encode_heartbeat] at encoded
        cases encoded
        have read := decode_print .heartbeat msg
        rw [Sentence.print, Sentence.fields, accepted] at read
        cases read
        rfl
    | login clientMode str => exact neverMistaken_login clientMode str
    | text type kind str => exact neverMistaken_text kind str
    | order type kind order => exact neverMistaken_order kind sound
    | itemUpdate type kind orderId itemId status =>
        exact neverMistaken_itemUpdate kind orderId itemId status
    | orderUpdate type kind orderId status =>
        exact neverMistaken_orderUpdate kind orderId status

theorem neverMistaken_teas :
    NeverMistaken (.ofOrder .orderNew (some (teas 2))) := by
  rw [neverMistaken_iff (.order .orderNew (by decide) _)]
  rintro ⟨type, order, -, same, mistakable⟩
  obtain rfl : teas 2 = order := by
    simpa [Message.ofOrder] using congrArg Message.order same
  rcases mistakable.changed with crowded | ⟨item, member, spliced⟩
  · rw [length_teas] at crowded
    omega
  · obtain rfl := List.eq_of_mem_replicate (Order.mem_of_mem_visited member)
    exact absurd spliced.semicolon_mem (by decide)

/-- A single tea, with a description that asks for a cake as well. -/
def teaAndCake : Order where
  id := 1
  status := .new
  items := [⟨1, 1, .new, ascii "tea:1;1:2:NEW:cake", 1⟩]

/-- The sentence the encoding of the tea is. -/
def teaAndCakeSentence : Sentence :=
  let one := Numeral.ofPositive 1 one_valid
  let two := Numeral.ofPositive 2 (by decide)
  .order .orderNew isOrder_orderNew
    { id := one
      status := .new
      valid := orderNew_valid
      items :=
        [{ orderId := one, id := one, status := .new, valid := itemNew_valid,
           desc := ascii "tea", plain := lacks_tea, qty := one },
         { orderId := one, id := two, status := .new, valid := itemNew_valid,
           desc := ascii "cake", plain := by decide, qty := one }]
      nonempty := by simp }

/-- The order of the tea is accepted as the order of a tea and a cake. -/
theorem teaAndCake_mistaken :
    Message.Built (.ofOrder .orderNew (some teaAndCake)) ∧
      (encode (.ofOrder .orderNew (some teaAndCake))).run [] =
        .ok () (ascii "ORDER_NEW|1,NEW,1:1:NEW:tea:1;1:2:NEW:cake:1") ∧
      (decode (ascii "ORDER_NEW|1,NEW,1:1:NEW:tea:1;1:2:NEW:cake:1")).run .empty =
        .ok () (.ofOrder .orderNew (some ⟨1, .new,
          [⟨1, 1, .new, ascii "tea", 1⟩, ⟨1, 2, .new, ascii "cake", 1⟩]⟩)) ∧
      ¬ NeverMistaken (.ofOrder .orderNew (some teaAndCake)) := by
  have encoded : (encode (.ofOrder .orderNew (some teaAndCake))).run [] =
      .ok () (ascii "ORDER_NEW|1,NEW,1:1:NEW:tea:1;1:2:NEW:cake:1") := rfl
  have decoded : (decode (ascii "ORDER_NEW|1,NEW,1:1:NEW:tea:1;1:2:NEW:cake:1")).run
      .empty = .ok () (.ofOrder .orderNew (some ⟨1, .new,
        [⟨1, 1, .new, ascii "tea", 1⟩, ⟨1, 2, .new, ascii "cake", 1⟩]⟩)) :=
    decode_print teaAndCakeSentence .empty
  refine ⟨.order .orderNew (by decide) _, encoded, decoded, ?_⟩
  intro never
  exact absurd (never _ _ _ _ encoded decoded) (by decide)

end Wire
end OrderTracking
