import OrderTracking.Wire.Decode

/-!
# What the encoder writes

The encoder joins the fields of a message. For an order it writes the items its
loop visits; these are all items as long as an `int` can count them. On the
meaning of a sentence it writes the canonical form of the sentence.
-/

namespace OrderTracking
namespace Wire

/-- The order text for a list of items. -/
def orderText (id : Int32) (status : OrderStatus) (items : List Item) : Bytes :=
  Cxx.toString id ++ [comma] ++ orderStatusToStr status ++ [comma] ++
    [semicolon].intercalate (items.map encodeItem)

/-- The loop of `encode_order` after its first turn. -/
theorem foldl_encodeItem_of_pos
    (items : List Item)
    (start : Nat)
    (positive : 0 < start)
    (s : Bytes) :
    (items.zipIdx start).foldl
        (fun s (item, i) =>
          (if i > 0 then s ++ [semicolon] else s) ++ encodeItem item) s =
      s ++ items.flatMap fun item => [semicolon] ++ encodeItem item := by
  induction items generalizing start s with
  | nil => simp
  | cons item items inductionHypothesis =>
      rw [List.zipIdx_cons, List.foldl_cons,
        inductionHypothesis (start + 1) (by omega)]
      simp [positive]

/-- The loop of `encode_order` joins the items with semicolons. -/
theorem foldl_encodeItem
    (items : List Item)
    (s : Bytes) :
    items.zipIdx.foldl
        (fun s (item, i) =>
          (if i > 0 then s ++ [semicolon] else s) ++ encodeItem item) s =
      s ++ [semicolon].intercalate (items.map encodeItem) := by
  cases items with
  | nil => simp
  | cons first items =>
      rw [List.zipIdx_cons, List.foldl_cons,
        foldl_encodeItem_of_pos items 1 (by omega)]
      induction items generalizing first with
      | nil => simp
      | cons second items inductionHypothesis =>
          have rest := inductionHypothesis second
          simp only [Nat.lt_irrefl, if_false, List.append_assoc,
            List.append_cancel_left_eq, gt_iff_lt] at rest ⊢
          rw [List.flatMap_cons, List.map_cons, List.map_cons,
            List.intercalate_cons_cons, ← List.map_cons, ← rest]
          simp only [List.append_assoc]

/-- `encode_order` throws on an order whose item count is zero and else writes
the visited items. -/
theorem encodeOrder_some
    (order : Order) :
    encodeOrder (some order) =
      if order.getNumItems = 0 then
        .error (.invalidMessage "Order cannot be empty")
      else .ok (orderText order.id order.status order.visited) := by
  simp only [encodeOrder, foldl_encodeItem]
  rfl

theorem encode_heartbeat
    (s : Bytes) :
    (encode (Message.ofType .dispHeartbeat)).run s =
      .ok () ([pipe].intercalate [messageTypeToStr .dispHeartbeat]) := rfl

theorem encode_login
    (clientMode : ClientMode)
    (str s : Bytes) :
    (encode (Message.ofMode .login clientMode str)).run s =
      .ok () ([pipe].intercalate
        [messageTypeToStr .login, clientModeToStr clientMode, str]) := by
  simp [encode, Message.ofMode]

theorem encode_text
    {type : MessageType}
    (kind : Message.IsText type)
    (str s : Bytes) :
    (encode (Message.ofStr type str)).run s =
      .ok () ([pipe].intercalate [messageTypeToStr type, str]) := by
  rcases kind with rfl | rfl | rfl <;> simp [encode, Message.ofStr]

theorem encode_itemUpdate
    {type : MessageType}
    (kind : Message.IsItemUpdate type)
    (orderId itemId : Int32)
    (status : ItemStatus)
    (s : Bytes) :
    (encode (Message.ofItemStatus type orderId itemId status)).run s =
      .ok () ([pipe].intercalate [messageTypeToStr type, Cxx.toString orderId,
        Cxx.toString itemId, itemStatusToStr status]) := by
  rcases kind with rfl | rfl <;> simp [encode, Message.ofItemStatus]

theorem encode_orderUpdate
    {type : MessageType}
    (kind : Message.IsOrderUpdate type)
    (orderId : Int32)
    (status : OrderStatus)
    (s : Bytes) :
    (encode (Message.ofOrderStatus type orderId status)).run s =
      .ok () ([pipe].intercalate [messageTypeToStr type, Cxx.toString orderId,
        orderStatusToStr status]) := by
  rcases kind with rfl | rfl <;> simp [encode, Message.ofOrderStatus]

theorem encode_order_of_ok
    {type : MessageType}
    (kind : Message.IsOrder type)
    {order : Option Order}
    {text : Bytes}
    (encoded : encodeOrder order = .ok text)
    (s : Bytes) :
    (encode (Message.ofOrder type order)).run s =
      .ok () ([pipe].intercalate [messageTypeToStr type, text]) := by
  rcases kind with rfl | rfl <;> simp [encode, Message.ofOrder, encoded]

theorem encode_order_of_error
    {type : MessageType}
    (kind : Message.IsOrder type)
    {order : Option Order}
    {exception : Exception}
    (rejected : encodeOrder order = .error exception)
    (s : Bytes) :
    (encode (Message.ofOrder type order)).run s =
      .error exception (messageTypeToStr type) := by
  rcases kind with rfl | rfl <;> simp [encode, Message.ofOrder, rejected]

theorem encode_invalid
    (s : Bytes) :
    (encode Message.empty).run s =
      .error (.invalidMessage "Message type was not recognized")
        (messageTypeToStr .invalid) := rfl

/-! ## Sentences -/

theorem orderText_meaning
    (tree : OrderSyntax) :
    orderText tree.meaning.id tree.meaning.status tree.meaning.items =
      tree.canonical.print := by
  simp only [orderText, OrderSyntax.meaning, OrderSyntax.print,
    OrderSyntax.printItems, OrderSyntax.canonical, List.map_map,
    Numeral.toString_value]
  congr 3
  funext item
  exact item.encodeItem_meaning

/-- An order with between one and `2 ^ 31 - 1` items is written in full. -/
theorem encodeOrder_of_countable
    {order : Order}
    (nonempty : order.items ≠ [])
    (countable : order.items.length < 2 ^ 31) :
    encodeOrder (some order) = .ok (orderText order.id order.status order.items) := by
  have visited := Order.visited_of_length_lt countable
  have notZero : order.getNumItems ≠ 0 := by
    intro zero
    rw [Order.getNumItems_eq_zero_iff] at zero
    apply nonempty
    rw [← visited, Order.visited_eq_nil_iff, zero]
  rw [encodeOrder_some, if_neg notZero, visited]

/-- An `int` can count the items of the message's order, if it has one. -/
def Countable (message : Message) : Prop :=
  ∀ order, message.order = some order → order.items.length < 2 ^ 31

/-- The encoder writes the meaning of a sentence in canonical form. -/
theorem encode_meaning
    (sentence : Sentence)
    (countable : Countable sentence.meaning)
    (s : Bytes) :
    (encode sentence.meaning).run s = .ok () sentence.canonical.print := by
  cases sentence with
  | heartbeat => exact encode_heartbeat s
  | login clientMode valid str plain => exact encode_login clientMode str s
  | text type kind str plain => exact encode_text kind str s
  | itemUpdate type kind orderId itemId status valid =>
      rw [Sentence.meaning, encode_itemUpdate kind, Numeral.toString_value,
        Numeral.toString_value]
      rfl
  | orderUpdate type kind orderId status valid =>
      rw [Sentence.meaning, encode_orderUpdate kind, Numeral.toString_value]
      rfl
  | order type kind tree =>
      have nonempty : tree.meaning.items ≠ [] := by
        simpa [OrderSyntax.meaning] using tree.nonempty
      have encoded := encodeOrder_of_countable nonempty (countable _ rfl)
      rw [orderText_meaning] at encoded
      exact encode_order_of_ok kind encoded s

end Wire
end OrderTracking
