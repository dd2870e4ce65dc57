import OrderTracking.Framing.Exact
import OrderTracking.Programs.Defs
import OrderTracking.Wire.Splice

/-!
# Lines on the wire

What a program reads from its terminal are lines, and what is encoded from lines is a
line. A line that is too long for a frame is never received, whatever comes after it:
the newline that `IO::receive` expects is not where a shorter length puts it.
-/

namespace OrderTracking
namespace Programs

/-- The byte that ends a line. -/
abbrev newline : UInt8 := 10

/-- The text contains no newline. -/
abbrev IsLine (text : Bytes) : Prop :=
  Wire.Lacks [newline] text

theorem isLine_of_not_mem
    {text : Bytes}
    (absent : newline ∉ text) : IsLine text := by
  intro byte member
  rwa [List.mem_singleton.mp member]

theorem isLine_of_nextLine
    {cin line rest : Bytes}
    (next : nextLine cin = (some line, rest)) :
    IsLine line := by
  unfold nextLine at next
  split at next
  · cases next
  · cases next
    apply isLine_of_not_mem
    intro member
    exact absurd (List.mem_takeWhile_imp member) (by decide)

/-- Reading a line shortens the standard input. -/
theorem length_rest_lt
    {cin line rest : Bytes}
    (next : nextLine cin = (some line, rest)) :
    rest.length < cin.length := by
  unfold nextLine at next
  split at next
  · cases next
  next nonempty =>
    cases next
    have shorter := (cin.dropWhile_sublist (· ≠ '\n'.toUInt8)).length_le
    have positive := List.length_pos_iff.mpr nonempty
    rw [List.length_drop]
    omega

theorem length_rest_le
    {cin rest : Bytes}
    {line : Option Bytes}
    (next : nextLine cin = (line, rest)) :
    rest.length ≤ cin.length := by
  cases line with
  | some line => exact (length_rest_lt next).le
  | none =>
      unfold nextLine at next
      split at next
      · cases next
        exact Nat.zero_le _
      · cases next

/-- The line that is read is the first one. -/
theorem nextLine_append
    {line : Bytes}
    (isLine : IsLine line)
    (rest : Bytes) :
    nextLine (line ++ newline :: rest) = (some line, rest) := by
  have isNewline : '\n'.toUInt8 = newline := by decide
  have before : ∀ byte ∈ line, (decide (byte ≠ newline)) = true := by
    intro byte member
    rw [decide_eq_true_eq]
    rintro rfl
    exact isLine newline (List.mem_singleton_self _) member
  rw [nextLine, if_neg (by simp), isNewline, List.takeWhile_append_of_pos before,
    List.dropWhile_append_of_pos before]
  simp

/-- What is typed when these are the lines. -/
def typing (lines : List Bytes) : Bytes :=
  lines.flatMap fun line => line ++ [newline]

theorem nextLine_typing
    {line : Bytes}
    (isLine : IsLine line)
    (lines : List Bytes) :
    nextLine (typing (line :: lines)) = (some line, typing lines) := by
  have whole : typing (line :: lines) = line ++ newline :: typing lines := by
    simp [typing]
  rw [whole, nextLine_append isLine]

/-- Only at its end is there no line in the standard input. -/
theorem nextLine_eq_none
    {cin rest : Bytes}
    (next : nextLine cin = (none, rest)) :
    rest = [] := by
  unfold nextLine at next
  split at next
  · cases next
    rfl
  · cases next

theorem isLine_of_isDigit
    {text : Bytes}
    (digits : ∀ byte ∈ text, Decimal.IsDigit byte) :
    IsLine text :=
  isLine_of_not_mem fun member => absurd (digits _ member) (by decide)

theorem isLine_of_isNameByte
    {text : Bytes}
    (names : ∀ byte ∈ text, Wire.IsNameByte byte) :
    IsLine text :=
  isLine_of_not_mem fun member => absurd (names _ member) (by decide)

theorem isLine_toString (number : Int32) : IsLine (Cxx.toString number) := by
  have digits : IsLine (Decimal.numeral number.toInt.natAbs) :=
    isLine_of_isDigit fun byte => Decimal.isDigit_of_mem_numeral
  rw [Cxx.toString]
  split
  · have minus : IsLine [45] := by decide
    exact minus.append digits
  · exact digits

/-- A separator joins lines to a line. -/
theorem isLine_intercalate
    {separator : UInt8}
    (other : newline ≠ separator)
    {texts : List Bytes}
    (lines : ∀ text ∈ texts, IsLine text) :
    IsLine ([separator].intercalate texts) := by
  apply isLine_of_not_mem
  intro member
  rcases mem_intercalate_singleton member with same | ⟨text, isText, inText⟩
  · exact other same
  · exact lines text isText newline (List.mem_singleton_self _) inText

/-! ## What is encoded from lines -/

theorem isLine_encodeItem
    {item : Item}
    (line : IsLine item.desc) :
    IsLine (Wire.encodeItem item) := by
  have colon : IsLine [Wire.colon] := by decide
  have orderId := (isLine_toString item.orderId).append colon
  have id := (orderId.append (isLine_toString item.id)).append colon
  have status := isLine_of_isNameByte (Wire.isNameByte_of_mem_itemStatusToStr item.status)
  have desc := (colon.append line).append colon
  exact (id.append status).append (desc.append (isLine_toString item.qty))

theorem isLine_orderText
    (id : Int32)
    (status : OrderStatus)
    {items : List Item}
    (lines : ∀ item ∈ items, IsLine item.desc) :
    IsLine (Wire.orderText id status items) := by
  have comma : IsLine [Wire.comma] := by decide
  have name := isLine_of_isNameByte (Wire.isNameByte_of_mem_orderStatusToStr status)
  refine ((((isLine_toString id).append comma).append name).append comma).append ?_
  apply isLine_intercalate (by decide)
  intro text member
  obtain ⟨item, isItem, rfl⟩ := List.mem_map.mp member
  exact isLine_encodeItem (lines item isItem)

/-- The fields of a message join to a line if they are lines. -/
theorem isLine_fields
    (type : MessageType)
    {fields : List Bytes}
    (lines : ∀ field ∈ fields, IsLine field) :
    IsLine ([Wire.pipe].intercalate (Wire.messageTypeToStr type :: fields)) := by
  apply isLine_intercalate (by decide)
  intro field member
  rcases List.mem_cons.mp member with rfl | member
  · exact isLine_of_isNameByte (Wire.isNameByte_of_mem_messageTypeToStr type)
  · exact lines field member

/-- A request of a program, none of whose texts contains a newline. -/
inductive OfLines : Message → Prop
  | login (clientMode : ClientMode) (str : Bytes)
      (line : IsLine str) :
      OfLines (.ofMode .login clientMode str)
  | quit : OfLines (.ofStr .quit (ascii "quit"))
  | orderNew (order : Order)
      (lines : ∀ item ∈ order.items, IsLine item.desc) :
      OfLines (.ofOrder .orderNew (some order))
  | itemUpdate (orderId itemId : Int32) (itemStatus : ItemStatus) :
      OfLines (.ofItemStatus .itemUpdate orderId itemId itemStatus)
  | orderUpdate (orderId : Int32) (orderStatus : OrderStatus) :
      OfLines (.ofOrderStatus .orderUpdate orderId orderStatus)

/-- A request is encoded as a line, unless it is for an order without items. -/
theorem OfLines.encode
    {msg : Message}
    (ofLines : OfLines msg) :
    (∃ out, (Wire.encode msg).run [] = .ok () out ∧ IsLine out) ∨
      ∃ out, (Wire.encode msg).run [] =
        .error (.invalidMessage "Order cannot be empty") out := by
  cases ofLines with
  | login clientMode str line =>
      refine Or.inl ⟨_, Wire.encode_login clientMode str [], isLine_fields _ ?_⟩
      have mode := isLine_of_isNameByte (Wire.isNameByte_of_mem_clientModeToStr clientMode)
      simpa using ⟨mode, line⟩
  | quit =>
      refine Or.inl ⟨_, Wire.encode_text (Or.inl rfl) _ [], isLine_fields _ ?_⟩
      decide
  | orderNew order lines =>
      have encoded := Wire.encodeOrder_some order
      by_cases empty : order.getNumItems = 0
      · rw [if_pos empty] at encoded
        exact Or.inr ⟨_, Wire.encode_order_of_error (Or.inl rfl) encoded []⟩
      · rw [if_neg empty] at encoded
        refine Or.inl ⟨_, Wire.encode_order_of_ok (Or.inl rfl) encoded [], isLine_fields _ ?_⟩
        intro field member
        rw [List.mem_singleton.mp member]
        exact isLine_orderText _ _ fun item visited =>
          lines item (List.mem_of_mem_take visited)
  | itemUpdate orderId itemId itemStatus =>
      refine Or.inl ⟨_, Wire.encode_itemUpdate (Or.inl rfl) .., isLine_fields _ ?_⟩
      have status := isLine_of_isNameByte (Wire.isNameByte_of_mem_itemStatusToStr itemStatus)
      simpa using ⟨isLine_toString orderId, isLine_toString itemId, status⟩
  | orderUpdate orderId orderStatus =>
      refine Or.inl ⟨_, Wire.encode_orderUpdate (Or.inl rfl) .., isLine_fields _ ?_⟩
      have status :=
        isLine_of_isNameByte (Wire.isNameByte_of_mem_orderStatusToStr orderStatus)
      simpa using ⟨isLine_toString orderId, status⟩

end Programs

/-! ## Overlong lines -/

namespace Framing

/-- However much of the frame of an overlong line has been delivered, and whatever
follows it, nothing is received. -/
theorem receive_overlong
    {line tail : Bytes}
    (isLine : Programs.IsLine line)
    (long : 9998 < line.length)
    {infd rest : Input}
    (delivered : available infd <+: frame line ++ tail)
    {s : Bytes} :
    receive.run ⟨infd, []⟩ ≠ .ok () ⟨rest, s⟩ := by
  intro returned
  obtain ⟨short, framed⟩ := framed_of_receive returned
  have start : frame s <+: header (line.length + 1) ++ line ++ ([10] ++ tail) := by
    have first := (List.prefix_append (frame s) (available rest)).trans (framed ▸ delivered)
    rw [frame_eq line] at first
    simpa only [List.append_assoc] using first
  -- the frame of `s` would end within the line, where there is no newline
  have within : frame s <+: header (line.length + 1) ++ line := by
    apply List.prefix_of_prefix_length_le start (List.prefix_append _ _)
    rw [frame_eq, List.length_append, List.length_append, List.length_append,
      length_header (by omega), header, List.length_leftpad, List.length_singleton]
    omega
  have ends : (10 : UInt8) ∈ frame s := by
    rw [frame_eq]
    simp
  have digits : Programs.IsLine (header (line.length + 1)) :=
    Programs.isLine_of_isDigit fun byte => isDigit_of_mem_header
  exact (digits.append isLine) 10 (List.mem_singleton_self _) (within.subset ends)

end Framing
end OrderTracking
