import OrderTracking.Library.Separated
import OrderTracking.Wire.Defs

/-!
# The message grammar

The syntax of the strings that are messages, as trees that cannot be ill formed:
a numeral carries the proof that it is a digit string in the range of positive
`int` values, a text the proof that it lacks the separators around it. A tree is
printed as a string, means a message, and has a canonical form without leading
zeros.
-/

namespace OrderTracking
namespace Wire

/-- The text contains none of the bytes. -/
def Lacks (separators : List UInt8) (text : Bytes) : Prop :=
  ∀ separator ∈ separators, separator ∉ text

instance (separators : List UInt8) (text : Bytes) :
    Decidable (Lacks separators text) :=
  List.decidableBAll (fun separator => separator ∉ text) separators

theorem Lacks.append
    {separators : List UInt8}
    {left right : Bytes}
    (leftLacks : Lacks separators left)
    (rightLacks : Lacks separators right) :
    Lacks separators (left ++ right) := by
  intro separator member
  rw [List.mem_append, not_or]
  exact ⟨leftLacks separator member, rightLacks separator member⟩

/-- All separators of the wire format. -/
def separators : List UInt8 := [pipe, comma, semicolon, colon]

theorem lacks_of_isDigit
    {text : Bytes}
    (digits : ∀ byte ∈ text, Decimal.IsDigit byte) :
    Lacks separators text := by
  intro separator member inText
  have isDigit := digits separator inText
  revert separator
  simp only [separators, List.mem_cons, List.not_mem_nil, or_false]
  rintro separator (rfl | rfl | rfl | rfl) - isDigit <;> revert isDigit <;> decide

theorem lacks_of_isNameByte
    {text : Bytes}
    (names : ∀ byte ∈ text, IsNameByte byte) :
    Lacks separators text := by
  intro separator member inText
  have isName := names separator inText
  revert separator
  simp only [separators, List.mem_cons, List.not_mem_nil, or_false]
  rintro separator (rfl | rfl | rfl | rfl) - isName <;> revert isName <;> decide

theorem lacks_itemStatusToStr (status : ItemStatus) :
    Lacks separators (itemStatusToStr status) :=
  lacks_of_isNameByte (isNameByte_of_mem_itemStatusToStr status)

theorem lacks_orderStatusToStr (status : OrderStatus) :
    Lacks separators (orderStatusToStr status) :=
  lacks_of_isNameByte (isNameByte_of_mem_orderStatusToStr status)

theorem lacks_clientModeToStr (clientMode : ClientMode) :
    Lacks separators (clientModeToStr clientMode) :=
  lacks_of_isNameByte (isNameByte_of_mem_clientModeToStr clientMode)

theorem lacks_messageTypeToStr (messageType : MessageType) :
    Lacks separators (messageTypeToStr messageType) :=
  lacks_of_isNameByte (isNameByte_of_mem_messageTypeToStr messageType)

/-! ## Numerals -/

/-- A digit string whose value is a positive `int`. -/
structure Numeral where
  digits : Bytes
  isDigit : ∀ byte ∈ digits, Decimal.IsDigit byte
  positive : 1 ≤ Decimal.value digits
  bounded : Decimal.value digits < 2 ^ 31

namespace Numeral

@[ext] theorem ext
    {left right : Numeral}
    (digits : left.digits = right.digits) : left = right := by
  cases left
  cases right
  cases digits
  rfl

/-- The number a numeral denotes. -/
def value (numeral : Numeral) : Int32 :=
  Int32.ofInt (Decimal.value numeral.digits)

theorem toInt_value (numeral : Numeral) :
    numeral.value.toInt = Decimal.value numeral.digits := by
  have bounded := numeral.bounded
  exact Int32.toInt_ofInt_of_le (by omega) (by omega)

theorem one_le_value (numeral : Numeral) : 1 ≤ numeral.value := by
  rw [Int32.le_iff_toInt_le, toInt_value, Int32.toInt_one]
  exact_mod_cast numeral.positive

theorem digits_ne_nil (numeral : Numeral) : numeral.digits ≠ [] := by
  intro empty
  have positive := numeral.positive
  rw [empty] at positive
  simp at positive

theorem lacks (numeral : Numeral) : Lacks separators numeral.digits :=
  lacks_of_isDigit numeral.isDigit

/-- The numeral without its leading zeros. -/
def canonical (numeral : Numeral) : Numeral where
  digits := numeral.digits.dropWhile (· == 48)
  isDigit := fun byte member =>
    numeral.isDigit byte ((List.dropWhile_suffix _).subset member)
  positive := by
    rw [Decimal.value_dropWhile_zero]
    exact numeral.positive
  bounded := by
    rw [Decimal.value_dropWhile_zero]
    exact numeral.bounded

@[simp] theorem value_canonical (numeral : Numeral) :
    numeral.canonical.value = numeral.value := by
  simp only [value, canonical, Decimal.value_dropWhile_zero]

/-- The canonical numeral is what `std::to_string` prints. -/
theorem toString_value (numeral : Numeral) :
    Cxx.toString numeral.value = numeral.canonical.digits := by
  rw [Cxx.toString_of_pos numeral.one_le_value, toInt_value, Int.toNat_natCast,
    Decimal.numeral_value numeral.isDigit numeral.positive]
  rfl

/-- The numeral `std::to_string` prints for a positive number. -/
def ofPositive (number : Int32) (positive : 1 ≤ number) : Numeral where
  digits := Cxx.toString number
  isDigit := by
    rw [Cxx.toString_of_pos positive]
    exact fun byte => Decimal.isDigit_of_mem_numeral
  positive := by
    rw [Cxx.toString_of_pos positive, Decimal.value_numeral]
    rw [Int32.le_iff_toInt_le, Int32.toInt_one] at positive
    omega
  bounded := by
    rw [Cxx.toString_of_pos positive, Decimal.value_numeral]
    have below := number.toInt_lt
    omega

@[simp] theorem ofPositive_digits
    (number : Int32)
    (positive : 1 ≤ number) :
    (ofPositive number positive).digits = Cxx.toString number := rfl

@[simp] theorem value_ofPositive
    (number : Int32)
    (positive : 1 ≤ number) :
    (ofPositive number positive).value = number := by
  rw [← Int32.toInt_inj, toInt_value, ofPositive_digits,
    Cxx.toString_of_pos positive, Decimal.value_numeral]
  rw [Int32.le_iff_toInt_le, Int32.toInt_one] at positive
  omega

@[simp] theorem canonical_ofPositive
    (number : Int32)
    (positive : 1 ≤ number) :
    (ofPositive number positive).canonical = ofPositive number positive := by
  apply Numeral.ext
  rw [← toString_value, value_ofPositive, ofPositive_digits]

end Numeral

/-! ## The words of a request for tea -/

theorem one_valid : (1 : Int32) ≤ 1 := by decide

theorem itemNew_valid : ItemStatus.new ≠ .invalid := by decide

theorem orderNew_valid : OrderStatus.new ≠ .invalid := by decide

theorem isOrder_orderNew : Message.IsOrder .orderNew := by decide

theorem lacks_tea : Lacks [pipe, semicolon, colon] (ascii "tea") := by decide

/-! ## Syntax trees -/

/-- `num:num:itemstatus:desc:num`. -/
structure ItemSyntax where
  orderId : Numeral
  id : Numeral
  status : ItemStatus
  valid : status ≠ .invalid
  desc : Bytes
  plain : Lacks [pipe, semicolon, colon] desc
  qty : Numeral

namespace ItemSyntax

/-- The fields of the item, in order. -/
def fields (item : ItemSyntax) : List Bytes :=
  [item.orderId.digits, item.id.digits, itemStatusToStr item.status, item.desc,
    item.qty.digits]

/-- The string an item is written as. -/
def print (item : ItemSyntax) : Bytes :=
  [colon].intercalate item.fields

/-- The item a string of this form stands for. -/
def meaning (item : ItemSyntax) : Item where
  orderId := item.orderId.value
  id := item.id.value
  status := item.status
  desc := item.desc
  qty := item.qty.value

/-- The item with canonical numerals. -/
def canonical (item : ItemSyntax) : ItemSyntax :=
  { item with
    orderId := item.orderId.canonical
    id := item.id.canonical
    qty := item.qty.canonical }

@[simp] theorem meaning_canonical (item : ItemSyntax) :
    item.canonical.meaning = item.meaning := by
  simp [meaning, canonical]

/-- The encoder writes an item in canonical form. -/
theorem encodeItem_meaning (item : ItemSyntax) :
    encodeItem item.meaning = item.canonical.print := by
  simp [encodeItem, print, fields, meaning, canonical, Numeral.toString_value]

end ItemSyntax

/-- `num,orderstatus,item(;item)*`. -/
structure OrderSyntax where
  id : Numeral
  status : OrderStatus
  valid : status ≠ .invalid
  items : List ItemSyntax
  nonempty : items ≠ []

namespace OrderSyntax

/-- The string the items are written as. -/
def printItems (order : OrderSyntax) : Bytes :=
  [semicolon].intercalate (order.items.map ItemSyntax.print)

/-- The string an order is written as. -/
def print (order : OrderSyntax) : Bytes :=
  order.id.digits ++ [comma] ++ orderStatusToStr order.status ++ [comma] ++
    order.printItems

/-- The order a string of this form stands for. -/
def meaning (order : OrderSyntax) : Order where
  id := order.id.value
  status := order.status
  items := order.items.map ItemSyntax.meaning

/-- The order with canonical numerals. -/
def canonical (order : OrderSyntax) : OrderSyntax where
  id := order.id.canonical
  status := order.status
  valid := order.valid
  items := order.items.map ItemSyntax.canonical
  nonempty := by simpa using order.nonempty

@[simp] theorem meaning_canonical (order : OrderSyntax) :
    order.canonical.meaning = order.meaning := by
  simp [meaning, canonical]

end OrderSyntax

/-- A string that is a message. -/
inductive Sentence
  | heartbeat
  | login (clientMode : ClientMode) (valid : clientMode ≠ .invalid)
      (str : Bytes) (plain : Lacks [pipe] str)
  | text (type : MessageType) (kind : Message.IsText type)
      (str : Bytes) (plain : Lacks [pipe] str)
  | itemUpdate (type : MessageType) (kind : Message.IsItemUpdate type)
      (orderId itemId : Numeral) (status : ItemStatus)
      (valid : status ≠ .invalid)
  | orderUpdate (type : MessageType) (kind : Message.IsOrderUpdate type)
      (orderId : Numeral) (status : OrderStatus) (valid : status ≠ .invalid)
  | order (type : MessageType) (kind : Message.IsOrder type)
      (tree : OrderSyntax)

namespace Sentence

/-- The fields of the message, in order. -/
def fields : Sentence → List Bytes
  | .heartbeat => [messageTypeToStr .dispHeartbeat]
  | .login clientMode _ str _ =>
      [messageTypeToStr .login, clientModeToStr clientMode, str]
  | .text type _ str _ => [messageTypeToStr type, str]
  | .itemUpdate type _ orderId itemId status _ =>
      [messageTypeToStr type, orderId.digits, itemId.digits,
        itemStatusToStr status]
  | .orderUpdate type _ orderId status _ =>
      [messageTypeToStr type, orderId.digits, orderStatusToStr status]
  | .order type _ tree => [messageTypeToStr type, tree.print]

/-- The string the message is written as. -/
def print (sentence : Sentence) : Bytes :=
  [pipe].intercalate sentence.fields

/-- The message a string of this form stands for. -/
def meaning : Sentence → Message
  | .heartbeat => Message.ofType .dispHeartbeat
  | .login clientMode _ str _ => Message.ofMode .login clientMode str
  | .text type _ str _ => Message.ofStr type str
  | .itemUpdate type _ orderId itemId status _ =>
      Message.ofItemStatus type orderId.value itemId.value status
  | .orderUpdate type _ orderId status _ =>
      Message.ofOrderStatus type orderId.value status
  | .order type _ tree => Message.ofOrder type tree.meaning

/-- The message with the leading zeros of every numeral removed. -/
def canonical : Sentence → Sentence
  | .heartbeat => .heartbeat
  | .login clientMode valid str plain => .login clientMode valid str plain
  | .text type kind str plain => .text type kind str plain
  | .itemUpdate type kind orderId itemId status valid =>
      .itemUpdate type kind orderId.canonical itemId.canonical status valid
  | .orderUpdate type kind orderId status valid =>
      .orderUpdate type kind orderId.canonical status valid
  | .order type kind tree => .order type kind tree.canonical

@[simp] theorem meaning_canonical (sentence : Sentence) :
    sentence.canonical.meaning = sentence.meaning := by
  cases sentence <;> simp [canonical, meaning]

end Sentence

end Wire
end OrderTracking
