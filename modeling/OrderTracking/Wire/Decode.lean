import OrderTracking.Wire.Grammar

/-!
# The decoder accepts the message grammar

Each function of the decoder returns a value exactly on the strings of its
syntax, the value is the meaning of the syntax tree, and every exception it lets
out is an `InvalidMessage`.
-/

namespace OrderTracking
namespace Wire

/-! ## Numbers -/

theorem digitTest_eq_false_iff
    {s : Bytes} :
    (s.any fun c => c < '0'.toUInt8 || c > '9'.toUInt8) = false ↔
      ∀ byte ∈ s, Decimal.IsDigit byte := by
  rw [List.any_eq_false]
  apply forall₂_congr
  intro byte _
  simp only [Bool.or_eq_true, decide_eq_true_eq, not_or, UInt8.not_lt]
  rfl

/-- `validate_id_message` accepts numerals and returns their value. -/
theorem validateIdMessage_eq_ok_iff
    {s : Bytes}
    {number : Int32} :
    validateIdMessage s 1 = .ok number ↔
      ∃ numeral : Numeral, numeral.digits = s ∧ numeral.value = number := by
  constructor
  · intro accepted
    unfold validateIdMessage at accepted
    split at accepted
    · cases accepted
    · next nonempty =>
      split at accepted
      · cases accepted
      · next allowed =>
        rw [Bool.not_eq_true, digitTest_eq_false_iff] at allowed
        rw [List.isEmpty_iff] at nonempty
        rw [Cxx.stoi_of_digits nonempty allowed, Cxx.intOfValue] at accepted
        by_cases fits : -2 ^ 31 ≤ (Decimal.value s : Int) ∧
            (Decimal.value s : Int) < 2 ^ 31
        · rw [if_pos fits] at accepted
          by_cases small : Int32.ofInt (Decimal.value s) < 1
          · simp [small] at accepted
          · simp only [small, if_false, Except.ok.injEq] at accepted
            rw [Int32.lt_iff_toInt_lt, Int32.toInt_ofInt_of_le fits.1 fits.2,
              Int32.toInt_one] at small
            exact ⟨⟨s, allowed, by omega, by omega⟩, rfl, accepted⟩
        · rw [if_neg fits] at accepted
          cases accepted
  · rintro ⟨numeral, rfl, rfl⟩
    have bounded := numeral.bounded
    have fits : -2 ^ 31 ≤ (Decimal.value numeral.digits : Int) ∧
        (Decimal.value numeral.digits : Int) < 2 ^ 31 := by
      omega
    have notSmall : ¬ Int32.ofInt (Decimal.value numeral.digits) < 1 := by
      rw [Int32.not_lt]
      exact numeral.one_le_value
    rw [validateIdMessage, if_neg (by simpa using numeral.digits_ne_nil),
      digitTest_eq_false_iff.mpr numeral.isDigit,
      Cxx.stoi_of_digits numeral.digits_ne_nil numeral.isDigit,
      Cxx.intOfValue, if_pos fits]
    simp only [Bool.false_eq_true, if_false, notSmall]
    rfl

theorem onlyInvalidMessage_validateIdMessage
    (s : Bytes)
    (min : Int32) :
    OnlyInvalidMessage (validateIdMessage s min) := by
  unfold validateIdMessage
  split
  · exact onlyInvalidMessage_invalidMessage _
  · next nonempty =>
    split
    · exact onlyInvalidMessage_invalidMessage _
    · next allowed =>
      rw [Bool.not_eq_true, digitTest_eq_false_iff] at allowed
      rw [Cxx.stoi_of_digits (by simpa using nonempty) allowed, Cxx.intOfValue]
      split
      · next equal =>
        split
        · exact onlyInvalidMessage_invalidMessage _
        · exact onlyInvalidMessage_ok _
      · exact onlyInvalidMessage_invalidMessage _
      · next exception notRange equal =>
        split at equal
        · cases equal
        · cases equal
          exact absurd rfl notRange


@[simp] theorem validateIdMessage_digits (numeral : Numeral) :
    validateIdMessage numeral.digits 1 = .ok numeral.value :=
  validateIdMessage_eq_ok_iff.mpr ⟨numeral, rfl, rfl⟩

/-! ## Items -/

theorem Lacks.not_mem
    {separators : List UInt8}
    {text : Bytes}
    (lacks : Lacks separators text)
    {separator : UInt8}
    (member : separator ∈ separators := by decide) : separator ∉ text :=
  lacks separator member

theorem ItemSyntax.colon_not_mem_fields
    (item : ItemSyntax) :
    ∀ field ∈ item.fields, colon ∉ field := by
  simp only [ItemSyntax.fields, List.mem_cons, List.not_mem_nil, or_false]
  rintro field (rfl | rfl | rfl | rfl | rfl)
  · exact item.orderId.lacks.not_mem
  · exact item.id.lacks.not_mem
  · exact (lacks_itemStatusToStr item.status).not_mem
  · exact item.plain.not_mem
  · exact item.qty.lacks.not_mem

theorem ItemSyntax.splitOn_print
    (item : ItemSyntax) :
    item.print.splitOn colon = item.fields :=
  List.splitOn_intercalate colon item.colon_not_mem_fields (by simp [fields])

theorem decodeItem_print
    (item : ItemSyntax) :
    decodeItem item.print = .ok item.meaning := by
  rw [decodeItem, Util.split_eq_ok, ok_bind, item.splitOn_print]
  simp only [ItemSyntax.fields, validateIdMessage_digits, ok_bind,
    strToItemStatus_itemStatusToStr, item.valid, if_false]
  rfl

theorem decodeItem_eq_ok
    {s : Bytes}
    (plain : Lacks [pipe, semicolon] s)
    {item : Item}
    (accepted : decodeItem s = .ok item) :
    ∃ tree : ItemSyntax, tree.print = s ∧ tree.meaning = item := by
  rw [decodeItem, Util.split_eq_ok, ok_bind] at accepted
  split at accepted
  · next orderIdStr idStr statusStr desc qtyStr pieces =>
    rw [splitOn_eq_iff] at pieces
    obtain ⟨-, lacking, joined⟩ := pieces
    obtain ⟨orderId, orderIdValid, accepted⟩ := bind_eq_ok.mp accepted
    obtain ⟨id, idValid, accepted⟩ := bind_eq_ok.mp accepted
    by_cases invalid : strToItemStatus statusStr = .invalid
    · simp [invalid] at accepted
    · simp only [invalid, if_false] at accepted
      obtain ⟨qty, qtyValid, accepted⟩ := bind_eq_ok.mp accepted
      cases accepted
      obtain ⟨orderIdNum, rfl, rfl⟩ := validateIdMessage_eq_ok_iff.mp orderIdValid
      obtain ⟨idNum, rfl, rfl⟩ := validateIdMessage_eq_ok_iff.mp idValid
      obtain ⟨qtyNum, rfl, rfl⟩ := validateIdMessage_eq_ok_iff.mp qtyValid
      have descIn : ∀ byte ∈ desc, byte ∈ s := by
        intro byte member
        rw [← joined]
        simp [member]
      have descPlain : Lacks [pipe, semicolon, colon] desc := by
        intro separator member inDesc
        simp only [List.mem_cons, List.not_mem_nil, or_false] at member
        rcases member with rfl | rfl | rfl
        · exact plain pipe (by simp) (descIn _ inDesc)
        · exact plain semicolon (by simp) (descIn _ inDesc)
        · exact lacking desc (by simp) inDesc
      refine ⟨⟨orderIdNum, idNum, strToItemStatus statusStr, invalid, desc,
        descPlain, qtyNum⟩, ?_, rfl⟩
      simp only [ItemSyntax.print, ItemSyntax.fields]
      rw [itemStatusToStr_strToItemStatus invalid, joined]
  · cases accepted

theorem onlyInvalidMessage_decodeItem
    (s : Bytes) :
    OnlyInvalidMessage (decodeItem s) := by
  rw [decodeItem, Util.split_eq_ok, ok_bind]
  split
  · refine (onlyInvalidMessage_validateIdMessage _ _).bind fun orderId _ => ?_
    refine (onlyInvalidMessage_validateIdMessage _ _).bind fun id _ => ?_
    dsimp only
    split
    · exact onlyInvalidMessage_invalidMessage _
    · refine (onlyInvalidMessage_validateIdMessage _ _).bind fun qty _ => ?_
      exact onlyInvalidMessage_ok _
  · exact onlyInvalidMessage_invalidMessage _

/-! ## Orders -/

/-- The loop of `decode_order` appends one decoded item for each string. -/
theorem foldlM_addItem_eq_ok_iff
    {itemStrs : List Bytes}
    {start final : Order} :
    itemStrs.foldlM
        (fun order itemStr => do
          let item ← decodeItem itemStr
          return order.addItem item) start = .ok final ↔
      ∃ items, List.Forall₂ (fun itemStr item => decodeItem itemStr = .ok item)
          itemStrs items ∧
        final = { start with items := start.items ++ items } := by
  induction itemStrs generalizing start with
  | nil =>
      rw [List.foldlM_nil]
      constructor
      · intro equal
        cases equal
        exact ⟨[], .nil, by simp⟩
      · rintro ⟨items, all, rfl⟩
        cases all
        simp [pure, Except.pure]
  | cons itemStr itemStrs inductionHypothesis =>
      rw [List.foldlM_cons, bind_eq_ok]
      constructor
      · rintro ⟨next, head, tail⟩
        obtain ⟨item, decoded, added⟩ := bind_eq_ok.mp head
        cases added
        obtain ⟨items, all, rfl⟩ := inductionHypothesis.mp tail
        exact ⟨item :: items, .cons decoded all, by simp [Order.addItem]⟩
      · rintro ⟨items, all, rfl⟩
        cases all with
        | @cons _ item _ items decoded all =>
            refine ⟨start.addItem item, by rw [decoded]; rfl, ?_⟩
            exact inductionHypothesis.mpr ⟨items, all, by simp [Order.addItem]⟩

theorem onlyInvalidMessage_foldlM_addItem
    (itemStrs : List Bytes)
    (start : Order) :
    OnlyInvalidMessage (itemStrs.foldlM
      (fun order itemStr => do
        let item ← decodeItem itemStr
        return order.addItem item) start) := by
  induction itemStrs generalizing start with
  | nil => exact onlyInvalidMessage_ok start
  | cons itemStr itemStrs inductionHypothesis =>
      rw [List.foldlM_cons]
      refine OnlyInvalidMessage.bind ?_ fun next _ => inductionHypothesis next
      exact (onlyInvalidMessage_decodeItem itemStr).bind fun item _ =>
        onlyInvalidMessage_ok _

/-- Cutting an order string at its first two commas. -/
theorem decodeOrder_fields
    {idStr statusStr : Bytes}
    (idLacks : comma ∉ idStr)
    (statusLacks : comma ∉ statusStr)
    (itemsStr : Bytes) :
    decodeOrder (idStr ++ [comma] ++ statusStr ++ [comma] ++ itemsStr) =
      decodeOrderFields idStr statusStr itemsStr := by
  have first : Cxx.find (idStr ++ [comma] ++ statusStr ++ [comma] ++ itemsStr)
      comma 0 = some idStr.length := by
    have found := Cxx.find_append idLacks [] (statusStr ++ [comma] ++ itemsStr)
    simpa only [List.nil_append, List.length_nil, Nat.zero_add,
      List.append_assoc] using found
  have second : Cxx.find (idStr ++ [comma] ++ statusStr ++ [comma] ++ itemsStr)
      comma (idStr.length + 1) = some (idStr.length + 1 + statusStr.length) := by
    have found := Cxx.find_append statusLacks (idStr ++ [comma]) itemsStr
    simpa only [List.length_append, List.length_singleton] using found
  have statusWidth : idStr.length + 1 + statusStr.length - idStr.length - 1 =
      statusStr.length := by
    omega
  rw [decodeOrder, first]
  simp only [second]
  rw [Cxx.substr_eq_ok (by simp), Cxx.substr_eq_ok (by simp),
    Cxx.substrFrom_eq_ok (by simp; omega)]
  simp only [ok_bind]
  congr 1
  · simp
  · rw [statusWidth]
    simp
  · have width : (idStr ++ [comma] ++ statusStr ++ [comma]).length =
        idStr.length + 1 + statusStr.length + 1 := by
      simp only [List.length_append, List.length_singleton]
    rw [← width, List.drop_left]

/-- An order string has two commas to be cut at, or the decoder rejects it. -/
theorem decodeOrder_cases
    (s : Bytes) :
    (∃ idStr statusStr itemsStr, comma ∉ idStr ∧ comma ∉ statusStr ∧
        s = idStr ++ [comma] ++ statusStr ++ [comma] ++ itemsStr) ∨
      ∃ what, decodeOrder s = .error (.invalidMessage what) := by
  cases first : Cxx.find s comma 0 with
  | none => exact Or.inr ⟨_, by rw [decodeOrder, first]⟩
  | some idDelim =>
      cases second : Cxx.find s comma (idDelim + 1) with
      | none =>
          right
          refine ⟨"Missing comma separating order status from order items", ?_⟩
          rw [decodeOrder, first]
          simp only [second]
      | some statusDelim =>
          left
          obtain ⟨-, -, idLacks, idShape⟩ := Cxx.find_eq_some first
          obtain ⟨-, -, statusLacks, statusShape⟩ := Cxx.find_eq_some second
          generalize (s.drop 0).take (idDelim - 0) = idStr at idLacks idShape
          generalize (s.drop (idDelim + 1)).take (statusDelim - (idDelim + 1)) =
            statusStr at statusLacks statusShape
          refine ⟨idStr, statusStr, s.drop (statusDelim + 1), idLacks,
            statusLacks, ?_⟩
          rw [List.drop_zero, statusShape] at idShape
          simpa using idShape

theorem lacks_intercalate
    {separators : List UInt8}
    {separator : UInt8}
    (other : separator ∉ separators)
    {pieces : List Bytes}
    (lacking : ∀ piece ∈ pieces, Lacks separators piece) :
    Lacks separators ([separator].intercalate pieces) := by
  intro byte member inJoin
  rcases mem_intercalate_singleton inJoin with rfl | ⟨piece, isPiece, inPiece⟩
  · exact other member
  · exact lacking piece isPiece byte member inPiece

theorem Lacks.mono
    {smaller larger : List UInt8}
    {text : Bytes}
    (lacks : Lacks larger text)
    (subset : smaller ⊆ larger) : Lacks smaller text :=
  fun separator member => lacks separator (subset member)

theorem ItemSyntax.lacks_print
    (item : ItemSyntax) :
    Lacks [pipe, semicolon] item.print := by
  apply lacks_intercalate (by decide)
  simp only [ItemSyntax.fields, List.mem_cons, List.not_mem_nil, or_false]
  rintro field (rfl | rfl | rfl | rfl | rfl)
  · exact item.orderId.lacks.mono (by decide)
  · exact item.id.lacks.mono (by decide)
  · exact (lacks_itemStatusToStr item.status).mono (by decide)
  · exact item.plain.mono (by decide)
  · exact item.qty.lacks.mono (by decide)

theorem ItemSyntax.print_ne_nil
    (item : ItemSyntax) : item.print ≠ [] := by
  simp [print, fields]

theorem OrderSyntax.splitOn_printItems
    (order : OrderSyntax) :
    order.printItems.splitOn semicolon = order.items.map ItemSyntax.print := by
  apply List.splitOn_intercalate
  · intro piece member
    obtain ⟨item, -, rfl⟩ := List.mem_map.mp member
    exact item.lacks_print.not_mem
  · simpa using order.nonempty

theorem OrderSyntax.printItems_ne_nil
    (order : OrderSyntax) : order.printItems ≠ [] := by
  intro empty
  have pieces := order.splitOn_printItems
  rw [empty, List.splitOn_nil] at pieces
  obtain ⟨item, items, shape⟩ := List.exists_cons_of_ne_nil order.nonempty
  rw [shape, List.map_cons] at pieces
  exact item.print_ne_nil (List.cons.inj pieces).1.symm

theorem OrderSyntax.lacks_print
    (order : OrderSyntax) : Lacks [pipe] order.print := by
  have items : Lacks [pipe] order.printItems := by
    apply lacks_intercalate (by decide)
    intro piece member
    obtain ⟨item, -, rfl⟩ := List.mem_map.mp member
    exact item.lacks_print.mono (by decide)
  have id : Lacks [pipe] order.id.digits := order.id.lacks.mono (by decide)
  have status : Lacks [pipe] (orderStatusToStr order.status) :=
    (lacks_orderStatusToStr order.status).mono (by decide)
  exact (((id.append (by decide)).append status).append (by decide)).append items

theorem decodeOrder_print
    (order : OrderSyntax) :
    decodeOrder order.print = .ok order.meaning := by
  have decoded : List.Forall₂ (fun itemStr item => decodeItem itemStr = .ok item)
      (order.items.map ItemSyntax.print) (order.items.map ItemSyntax.meaning) := by
    rw [List.forall₂_map_left_iff, List.forall₂_map_right_iff, List.forall₂_same]
    exact fun item _ => decodeItem_print item
  rw [OrderSyntax.print, decodeOrder_fields order.id.lacks.not_mem
    (lacks_orderStatusToStr order.status).not_mem, decodeOrderFields,
    validateIdMessage_digits, ok_bind]
  simp only [strToOrderStatus_orderStatusToStr, order.valid, if_false,
    Util.split_eq_ok, ok_bind, order.splitOn_printItems]
  rw [if_neg (by simpa using order.printItems_ne_nil),
    if_neg (by simpa using order.nonempty)]
  exact foldlM_addItem_eq_ok_iff.mpr ⟨_, decoded, rfl⟩

/-- The item strings the loop of `decode_order` accepts are item syntax. -/
theorem exists_items_of_forall₂
    {itemStrs : List Bytes}
    {items : List Item}
    (plain : ∀ itemStr ∈ itemStrs, Lacks [pipe, semicolon] itemStr)
    (decoded : List.Forall₂ (fun itemStr item => decodeItem itemStr = .ok item)
      itemStrs items) :
    ∃ trees : List ItemSyntax, trees.map ItemSyntax.print = itemStrs ∧
      trees.map ItemSyntax.meaning = items := by
  induction decoded with
  | nil => exact ⟨[], rfl, rfl⟩
  | @cons itemStr item itemStrs items head _ inductionHypothesis =>
      obtain ⟨tree, rfl, rfl⟩ :=
        decodeItem_eq_ok (plain itemStr List.mem_cons_self) head
      obtain ⟨trees, rfl, rfl⟩ := inductionHypothesis fun other member =>
        plain other (List.mem_cons_of_mem _ member)
      exact ⟨tree :: trees, rfl, rfl⟩

theorem decodeOrder_eq_ok
    {s : Bytes}
    (plain : Lacks [pipe] s)
    {order : Order}
    (accepted : decodeOrder s = .ok order) :
    ∃ tree : OrderSyntax, tree.print = s ∧ tree.meaning = order := by
  rcases decodeOrder_cases s with
    ⟨idStr, statusStr, itemsStr, idLacks, statusLacks, rfl⟩ | ⟨what, rejected⟩
  · rw [decodeOrder_fields idLacks statusLacks, decodeOrderFields] at accepted
    obtain ⟨id, idValid, accepted⟩ := bind_eq_ok.mp accepted
    obtain ⟨idNum, rfl, rfl⟩ := validateIdMessage_eq_ok_iff.mp idValid
    by_cases invalid : strToOrderStatus statusStr = .invalid
    · simp [invalid] at accepted
    · simp only [invalid, if_false, Util.split_eq_ok, ok_bind] at accepted
      split at accepted
      · cases accepted
      · split at accepted
        · cases accepted
        · obtain ⟨items, decoded, rfl⟩ := foldlM_addItem_eq_ok_iff.mp accepted
          have piecesPlain : ∀ itemStr ∈ itemsStr.splitOn semicolon,
              Lacks [pipe, semicolon] itemStr := by
            intro itemStr member separator isSeparator inItem
            simp only [List.mem_cons, List.not_mem_nil, or_false] at isSeparator
            rcases isSeparator with rfl | rfl
            · apply plain pipe (by simp)
              have inItems : pipe ∈ itemsStr := by
                have inJoin : pipe ∈
                    [semicolon].intercalate (itemsStr.splitOn semicolon) :=
                  mem_intercalate_of_mem member inItem
                rwa [List.intercalate_splitOn] at inJoin
              simp [inItems]
            · exact not_mem_of_mem_splitOn member inItem
          obtain ⟨trees, printed, rfl⟩ :=
            exists_items_of_forall₂ piecesPlain decoded
          have nonempty : trees ≠ [] := by
            rintro rfl
            exact List.splitOn_ne_nil semicolon itemsStr printed.symm
          refine ⟨⟨idNum, strToOrderStatus statusStr, invalid, trees, nonempty⟩,
            ?_, rfl⟩
          simp only [OrderSyntax.print, OrderSyntax.printItems]
          rw [orderStatusToStr_strToOrderStatus invalid, printed,
            List.intercalate_splitOn]
  · rw [rejected] at accepted
    cases accepted

theorem onlyInvalidMessage_decodeOrder
    (s : Bytes) :
    OnlyInvalidMessage (decodeOrder s) := by
  rcases decodeOrder_cases s with
    ⟨idStr, statusStr, itemsStr, idLacks, statusLacks, rfl⟩ | ⟨what, rejected⟩
  · rw [decodeOrder_fields idLacks statusLacks, decodeOrderFields]
    refine (onlyInvalidMessage_validateIdMessage _ _).bind fun id _ => ?_
    dsimp only
    split
    · exact onlyInvalidMessage_invalidMessage _
    · split
      · exact onlyInvalidMessage_invalidMessage _
      · rw [Util.split_eq_ok, ok_bind]
        split
        · exact onlyInvalidMessage_invalidMessage _
        · exact onlyInvalidMessage_foldlM_addItem _ _
  · rw [rejected]
    exact onlyInvalidMessage_invalidMessage what

/-! ## Messages -/

theorem Sentence.pipe_not_mem_fields
    (sentence : Sentence) :
    ∀ field ∈ sentence.fields, pipe ∉ field := by
  have typeLacks (type : MessageType) : pipe ∉ messageTypeToStr type :=
    (lacks_messageTypeToStr type).not_mem
  cases sentence with
  | heartbeat => simpa [fields] using typeLacks _
  | login clientMode valid str plain =>
      have modeLacks : pipe ∉ clientModeToStr clientMode :=
        (lacks_clientModeToStr clientMode).not_mem
      simpa [fields] using ⟨typeLacks _, modeLacks, plain.not_mem⟩
  | text type kind str plain =>
      simpa [fields] using ⟨typeLacks _, plain.not_mem⟩
  | itemUpdate type kind orderId itemId status valid =>
      simpa [fields] using ⟨typeLacks _, orderId.lacks.not_mem,
        itemId.lacks.not_mem, (lacks_itemStatusToStr status).not_mem⟩
  | orderUpdate type kind orderId status valid =>
      simpa [fields] using ⟨typeLacks _, orderId.lacks.not_mem,
        (lacks_orderStatusToStr status).not_mem⟩
  | order type kind tree =>
      simpa [fields] using ⟨typeLacks _, tree.lacks_print.not_mem⟩

theorem Sentence.splitOn_print
    (sentence : Sentence) :
    sentence.print.splitOn pipe = sentence.fields := by
  apply List.splitOn_intercalate pipe sentence.pipe_not_mem_fields
  cases sentence <;> simp [fields]

theorem decode_run
    {s typeStr : Bytes}
    {fields : List Bytes}
    (pieces : s.splitOn pipe = typeStr :: fields)
    (msg : Message) :
    (decode s).run msg =
      (decodeFields (strToMessageType typeStr) fields).run msg := by
  rw [decode, EStateM.run_bind, Util.split_eq_ok, Code.run_lift_ok, pieces]

/-- The decoder reads a sentence as its meaning. -/
theorem decode_print
    (sentence : Sentence)
    (msg : Message) :
    (decode sentence.print).run msg = .ok () sentence.meaning := by
  have pieces := sentence.splitOn_print
  cases sentence with
  | heartbeat =>
      rw [decode_run pieces, strToMessageType_messageTypeToStr]
      rfl
  | login clientMode valid str plain =>
      rw [decode_run pieces, strToMessageType_messageTypeToStr]
      simp only [decodeFields, decodeLogin, strToClientMode_clientModeToStr,
        valid, if_false, EStateM.run_set]
      rfl
  | text type kind str plain =>
      rw [decode_run pieces, strToMessageType_messageTypeToStr]
      rcases kind with rfl | rfl | rfl <;> rfl
  | itemUpdate type kind orderId itemId status valid =>
      rw [decode_run pieces, strToMessageType_messageTypeToStr]
      have branch : (decodeItemUpdate type [orderId.digits, itemId.digits,
          itemStatusToStr status]).run msg =
          .ok () (Message.ofItemStatus type orderId.value itemId.value status) := by
        simp only [decodeItemUpdate, EStateM.run_bind, validateIdMessage_digits,
          Code.run_lift_ok, strToItemStatus_itemStatusToStr, valid, if_false,
          EStateM.run_set]
      rcases kind with rfl | rfl <;> exact branch
  | orderUpdate type kind orderId status valid =>
      rw [decode_run pieces, strToMessageType_messageTypeToStr]
      have branch : (decodeOrderUpdate type [orderId.digits,
          orderStatusToStr status]).run msg =
          .ok () (Message.ofOrderStatus type orderId.value status) := by
        simp only [decodeOrderUpdate, EStateM.run_bind, validateIdMessage_digits,
          Code.run_lift_ok, strToOrderStatus_orderStatusToStr, valid, if_false,
          EStateM.run_set]
      rcases kind with rfl | rfl <;> exact branch
  | order type kind tree =>
      rw [decode_run pieces, strToMessageType_messageTypeToStr]
      have branch : (decodeOrderMessage type [tree.print]).run msg =
          .ok () (Message.ofOrder type tree.meaning) := by
        simp only [decodeOrderMessage, EStateM.run_bind, decodeOrder_print,
          Code.run_lift_ok, EStateM.run_set, Message.duplicate_eq]
      rcases kind with rfl | rfl <;> exact branch

/-- A branch of the decoder either reads the fields of a sentence of its type or
throws `InvalidMessage` and leaves the output parameter alone. -/
def ReadsOrRejects (code : Code Message Unit) (type : MessageType)
    (fields : List Bytes) : Prop :=
  ∀ msg,
    (∃ sentence : Sentence, sentence.fields = messageTypeToStr type :: fields ∧
      code.run msg = .ok () sentence.meaning) ∨
    ∃ what, code.run msg = .error (.invalidMessage what) msg

theorem readsOrRejects_throw
    (what : String)
    (type : MessageType)
    (fields : List Bytes) :
    ReadsOrRejects (throw (.invalidMessage what)) type fields :=
  fun _ => Or.inr ⟨what, rfl⟩

theorem readsOrRejects_set
    {message : Message}
    {type : MessageType}
    {fields : List Bytes}
    (sentence : Sentence)
    (sameFields : sentence.fields = messageTypeToStr type :: fields)
    (sameMeaning : sentence.meaning = message) :
    ReadsOrRejects (set message) type fields :=
  fun _ => Or.inl ⟨sentence, sameFields, by rw [sameMeaning]; rfl⟩

/-- A check that lets only `InvalidMessage` out may come before the rest. -/
theorem readsOrRejects_lift
    {result : Except Exception α}
    {next : α → Code Message Unit}
    {type : MessageType}
    {fields : List Bytes}
    (only : OnlyInvalidMessage result)
    (rest : ∀ value, result = .ok value → ReadsOrRejects (next value) type fields) :
    ReadsOrRejects (liftM result >>= next) type fields := by
  intro msg
  cases result with
  | error exception =>
      obtain ⟨what, rfl⟩ := only exception rfl
      exact Or.inr ⟨what, rfl⟩
  | ok value => exact rest value rfl msg

theorem readsOrRejects_decodeLogin
    {fields : List Bytes}
    (lacking : ∀ field ∈ fields, Lacks [pipe] field) :
    ReadsOrRejects (decodeLogin .login fields) .login fields := by
  rcases fields with _ | ⟨modeStr, _ | ⟨str, _ | ⟨extra, more⟩⟩⟩
  · exact readsOrRejects_throw _ _ _
  · exact readsOrRejects_throw _ _ _
  · by_cases invalid : strToClientMode modeStr = .invalid
    · simp only [decodeLogin, invalid, if_true]
      exact readsOrRejects_throw _ _ _
    · simp only [decodeLogin, invalid, if_false]
      refine readsOrRejects_set
        (.login _ invalid str (lacking str (by simp))) ?_ rfl
      simp [Sentence.fields, clientModeToStr_strToClientMode invalid]
  · exact readsOrRejects_throw _ _ _

theorem readsOrRejects_decodeText
    {type : MessageType}
    (kind : Message.IsText type)
    {fields : List Bytes}
    (lacking : ∀ field ∈ fields, Lacks [pipe] field) :
    ReadsOrRejects (decodeText type fields) type fields := by
  rcases fields with _ | ⟨str, _ | ⟨extra, more⟩⟩
  · exact readsOrRejects_throw _ _ _
  · exact readsOrRejects_set (.text type kind str (lacking str (by simp))) rfl rfl
  · exact readsOrRejects_throw _ _ _

theorem readsOrRejects_decodeItemUpdate
    {type : MessageType}
    (kind : Message.IsItemUpdate type)
    (fields : List Bytes) :
    ReadsOrRejects (decodeItemUpdate type fields) type fields := by
  rcases fields with
    _ | ⟨orderIdStr, _ | ⟨itemIdStr, _ | ⟨statusStr, _ | ⟨extra, more⟩⟩⟩⟩
  · exact readsOrRejects_throw _ _ _
  · exact readsOrRejects_throw _ _ _
  · exact readsOrRejects_throw _ _ _
  · apply readsOrRejects_lift (onlyInvalidMessage_validateIdMessage _ _)
    intro orderId orderIdValid
    apply readsOrRejects_lift (onlyInvalidMessage_validateIdMessage _ _)
    intro itemId itemIdValid
    obtain ⟨orderNum, rfl, rfl⟩ := validateIdMessage_eq_ok_iff.mp orderIdValid
    obtain ⟨itemNum, rfl, rfl⟩ := validateIdMessage_eq_ok_iff.mp itemIdValid
    by_cases invalid : strToItemStatus statusStr = .invalid
    · simp only [invalid, if_true]
      exact readsOrRejects_throw _ _ _
    · simp only [invalid, if_false]
      refine readsOrRejects_set
        (.itemUpdate type kind orderNum itemNum _ invalid) ?_ rfl
      simp [Sentence.fields, itemStatusToStr_strToItemStatus invalid]
  · exact readsOrRejects_throw _ _ _

theorem readsOrRejects_decodeOrderUpdate
    {type : MessageType}
    (kind : Message.IsOrderUpdate type)
    (fields : List Bytes) :
    ReadsOrRejects (decodeOrderUpdate type fields) type fields := by
  rcases fields with _ | ⟨orderIdStr, _ | ⟨statusStr, _ | ⟨extra, more⟩⟩⟩
  · exact readsOrRejects_throw _ _ _
  · exact readsOrRejects_throw _ _ _
  · apply readsOrRejects_lift (onlyInvalidMessage_validateIdMessage _ _)
    intro orderId orderIdValid
    obtain ⟨orderNum, rfl, rfl⟩ := validateIdMessage_eq_ok_iff.mp orderIdValid
    by_cases invalid : strToOrderStatus statusStr = .invalid
    · simp only [invalid, if_true]
      exact readsOrRejects_throw _ _ _
    · simp only [invalid, if_false]
      refine readsOrRejects_set (.orderUpdate type kind orderNum _ invalid) ?_ rfl
      simp [Sentence.fields, orderStatusToStr_strToOrderStatus invalid]
  · exact readsOrRejects_throw _ _ _

theorem readsOrRejects_decodeOrderMessage
    {type : MessageType}
    (kind : Message.IsOrder type)
    {fields : List Bytes}
    (lacking : ∀ field ∈ fields, Lacks [pipe] field) :
    ReadsOrRejects (decodeOrderMessage type fields) type fields := by
  rcases fields with _ | ⟨orderStr, _ | ⟨extra, more⟩⟩
  · exact readsOrRejects_throw _ _ _
  · apply readsOrRejects_lift (onlyInvalidMessage_decodeOrder _)
    intro order decoded
    obtain ⟨tree, rfl, rfl⟩ := decodeOrder_eq_ok (lacking orderStr (by simp)) decoded
    exact readsOrRejects_set (.order type kind tree) rfl (by simp [Sentence.meaning])
  · exact readsOrRejects_throw _ _ _

theorem readsOrRejects_decodeFields
    (type : MessageType)
    {fields : List Bytes}
    (lacking : ∀ field ∈ fields, Lacks [pipe] field) :
    ReadsOrRejects (decodeFields type fields) type fields := by
  cases type with
  | invalid => exact readsOrRejects_throw _ _ _
  | login => exact readsOrRejects_decodeLogin lacking
  | quit => exact readsOrRejects_decodeText (by decide) lacking
  | ok => exact readsOrRejects_decodeText (by decide) lacking
  | error => exact readsOrRejects_decodeText (by decide) lacking
  | orderNew => exact readsOrRejects_decodeOrderMessage (by decide) lacking
  | dispOrder => exact readsOrRejects_decodeOrderMessage (by decide) lacking
  | itemUpdate => exact readsOrRejects_decodeItemUpdate (by decide) fields
  | dispItemUpdate => exact readsOrRejects_decodeItemUpdate (by decide) fields
  | orderUpdate => exact readsOrRejects_decodeOrderUpdate (by decide) fields
  | dispOrderUpdate => exact readsOrRejects_decodeOrderUpdate (by decide) fields
  | dispHeartbeat =>
      cases fields with
      | nil => exact readsOrRejects_set .heartbeat rfl rfl
      | cons extra more => exact readsOrRejects_throw _ _ _

/-- Every run of the decoder reads a sentence, or throws `InvalidMessage` with
the output parameter unchanged. -/
theorem decode_reads_or_rejects
    (s : Bytes)
    (msg : Message) :
    (∃ sentence : Sentence, sentence.print = s ∧
      (decode s).run msg = .ok () sentence.meaning) ∨
    ∃ what, (decode s).run msg = .error (.invalidMessage what) msg := by
  obtain ⟨typeStr, fields, pieces⟩ :=
    List.exists_cons_of_ne_nil (List.splitOn_ne_nil pipe s)
  obtain ⟨-, lacking, joined⟩ := splitOn_eq_iff.mp pieces
  rw [decode_run pieces]
  by_cases invalid : strToMessageType typeStr = .invalid
  · rw [invalid]
    exact Or.inr ⟨_, rfl⟩
  · have fieldsLack : ∀ field ∈ fields, Lacks [pipe] field := by
      intro field member
      simpa [Lacks] using lacking field (List.mem_cons_of_mem _ member)
    rcases readsOrRejects_decodeFields (strToMessageType typeStr) fieldsLack msg
      with ⟨sentence, sameFields, read⟩ | rejected
    · left
      refine ⟨sentence, ?_, read⟩
      rw [Sentence.print, sameFields, messageTypeToStr_strToMessageType invalid,
        joined]
    · exact Or.inr rejected

/-- What the decoder returns is the meaning of the string's sentence. -/
theorem decode_eq_ok
    {s : Bytes}
    {msg decoded : Message}
    (accepted : (decode s).run msg = .ok () decoded) :
    ∃ sentence : Sentence, sentence.print = s ∧ sentence.meaning = decoded := by
  rcases decode_reads_or_rejects s msg with
    ⟨sentence, printed, read⟩ | ⟨what, rejected⟩
  · rw [accepted] at read
    cases read
    exact ⟨sentence, printed, rfl⟩
  · rw [accepted] at rejected
    cases rejected

end Wire
end OrderTracking
