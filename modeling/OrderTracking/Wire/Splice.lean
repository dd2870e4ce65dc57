import OrderTracking.Wire.RoundTrip

/-!
# Descriptions that close their item

The encoder writes descriptions as they are. A description can therefore end its
item, spell further items and open a last one that the rest of the encoding
completes. The item strings that the decoder cuts from the encoding of one item
are all items exactly when the item's other fields are valid and its description
is plain text or such a splice.
-/

namespace OrderTracking
namespace Wire

/-- `text:num;(item;)*num:num:itemstatus:text`. -/
structure Splice where
  head : Bytes
  headPlain : Lacks [pipe, semicolon, colon] head
  qty : Numeral
  middle : List ItemSyntax
  orderId : Numeral
  id : Numeral
  status : ItemStatus
  valid : status ≠ .invalid
  tail : Bytes
  tailPlain : Lacks [pipe, semicolon, colon] tail

namespace Splice

/-- What ends the item the description stands in. -/
def closing (splice : Splice) : Bytes :=
  splice.head ++ [colon] ++ splice.qty.digits

/-- What begins the last item. -/
def opening (splice : Splice) : Bytes :=
  splice.orderId.digits ++ [colon] ++ splice.id.digits ++ [colon] ++
    itemStatusToStr splice.status ++ [colon] ++ splice.tail

/-- The string a splice is written as. -/
def print (splice : Splice) : Bytes :=
  [semicolon].intercalate
    (splice.closing :: (splice.middle.map ItemSyntax.print ++ [splice.opening]))

/-- The items the decoder finds where one item with this description was
written. -/
def items (splice : Splice) (host : ItemSyntax) : List ItemSyntax :=
  { host with desc := splice.head, plain := splice.headPlain, qty := splice.qty } ::
    (splice.middle ++
      [{ orderId := splice.orderId, id := splice.id, status := splice.status,
         valid := splice.valid, desc := splice.tail, plain := splice.tailPlain,
         qty := host.qty }])

end Splice

/-- A description of the form of a splice. -/
def Spliced (desc : Bytes) : Prop :=
  ∃ splice : Splice, splice.print = desc

/-- An item whose encoding the decoder reads as one or more items. -/
structure Readable (item : Item) : Prop where
  orderId : 1 ≤ item.orderId
  id : 1 ≤ item.id
  status : item.status ≠ .invalid
  desc : Lacks [pipe, semicolon, colon] item.desc ∨ Spliced item.desc
  qty : 1 ≤ item.qty

/-! ## Printed numbers -/

theorem lacks_toString (number : Int32) :
    Lacks separators (Cxx.toString number) := by
  have numeral : Lacks separators (Decimal.numeral number.toInt.natAbs) :=
    lacks_of_isDigit fun byte => Decimal.isDigit_of_mem_numeral
  rw [Cxx.toString]
  split
  · have minus : Lacks separators [45] := by decide
    exact minus.append numeral
  · exact numeral

/-- Only positive numbers print as numerals. -/
theorem toString_eq_digits
    {number : Int32}
    {numeral : Numeral}
    (printed : Cxx.toString number = numeral.digits) :
    1 ≤ number ∧ numeral.value = number := by
  have positive : 1 ≤ number := by
    by_contra small
    rcases Cxx.toString_of_not_pos small with zero | ⟨rest, negative⟩
    · have value := numeral.positive
      rw [← printed, zero] at value
      exact absurd value (by decide)
    · have digit := numeral.isDigit 45 (by rw [← printed, negative]; simp)
      exact absurd digit (by decide)
  refine ⟨positive, ?_⟩
  have same : numeral = .ofPositive number positive := Numeral.ext printed.symm
  rw [same, Numeral.value_ofPositive]

/-! ## Cutting the encoding of an item -/

/-- The encoding of an item up to its description. -/
def itemFront (item : Item) : Bytes :=
  Cxx.toString item.orderId ++ [colon] ++ Cxx.toString item.id ++ [colon] ++
    itemStatusToStr item.status ++ [colon]

/-- The encoding of an item after its description. -/
def itemBack (item : Item) : Bytes :=
  [colon] ++ Cxx.toString item.qty

theorem encodeItem_eq (item : Item) :
    encodeItem item = itemFront item ++ (item.desc ++ itemBack item) := by
  simp only [encodeItem, itemFront, itemBack, List.append_assoc]

theorem semicolon_not_mem_itemFront (item : Item) :
    semicolon ∉ itemFront item := by
  have orderId : semicolon ∉ Cxx.toString item.orderId := (lacks_toString _).not_mem
  have id : semicolon ∉ Cxx.toString item.id := (lacks_toString _).not_mem
  have status : semicolon ∉ itemStatusToStr item.status :=
    (lacks_itemStatusToStr _).not_mem
  have other : semicolon ≠ colon := by decide
  simp [itemFront, orderId, id, status, other]

theorem semicolon_not_mem_itemBack (item : Item) :
    semicolon ∉ itemBack item := by
  have qty : semicolon ∉ Cxx.toString item.qty := (lacks_toString _).not_mem
  have other : semicolon ≠ colon := by decide
  simp [itemBack, qty, other]

/-- The fields of text that continues the front of an item. -/
theorem splitOn_itemFront
    (item : Item)
    (text : Bytes) :
    (itemFront item ++ text).splitOn colon =
      Cxx.toString item.orderId :: Cxx.toString item.id ::
        itemStatusToStr item.status :: text.splitOn colon := by
  have orderId : colon ∉ Cxx.toString item.orderId := (lacks_toString _).not_mem
  have id : colon ∉ Cxx.toString item.id := (lacks_toString _).not_mem
  have status : colon ∉ itemStatusToStr item.status :=
    (lacks_itemStatusToStr _).not_mem
  simp only [itemFront, List.append_assoc, List.cons_append, List.nil_append]
  rw [List.splitOn_append_cons_self_of_not_mem orderId,
    List.splitOn_append_cons_self_of_not_mem id,
    List.splitOn_append_cons_self_of_not_mem status]

/-- The fields of text that the back of an item ends. -/
theorem splitOn_itemBack
    (item : Item)
    (text : Bytes) :
    (text ++ itemBack item).splitOn colon =
      text.splitOn colon ++ [Cxx.toString item.qty] := by
  have qty : (Cxx.toString item.qty).splitOn colon = [Cxx.toString item.qty] := by
    rw [splitOn_eq_iff]
    refine ⟨by simp, ?_, by simp⟩
    simpa using (lacks_toString item.qty).not_mem
  rw [itemBack, List.singleton_append, List.splitOn_append_cons_self, qty]

/-- The item strings in the encoding of an item are those of its description,
the first with the item's front and the last with its back. -/
theorem splitOn_encodeItem
    {item : Item}
    {first last : Bytes}
    {middle : List Bytes}
    (pieces : item.desc.splitOn semicolon = first :: (middle ++ [last])) :
    (encodeItem item).splitOn semicolon =
      (itemFront item ++ first) :: (middle ++ [last ++ itemBack item]) := by
  rw [← List.cons_append] at pieces
  have back := splitOn_append_of_not_mem (semicolon_not_mem_itemBack item) _ _ pieces
  rw [encodeItem_eq]
  exact splitOn_append_left_of_not_mem (semicolon_not_mem_itemFront item) _ _ back

/-! ## From item strings to the form of the description -/

theorem itemStatus_of_itemStatusToStr
    {left right : ItemStatus}
    (same : itemStatusToStr left = itemStatusToStr right) : left = right := by
  rw [← strToItemStatus_itemStatusToStr left, same, strToItemStatus_itemStatusToStr]

/-- The front of an item and the item string it begins. -/
theorem item_of_itemFront
    {item : Item}
    {text : Bytes}
    {tree : ItemSyntax}
    (printed : tree.print = itemFront item ++ text) :
    1 ≤ item.orderId ∧ 1 ≤ item.id ∧ item.status ≠ .invalid ∧
      text.splitOn colon = [tree.desc, tree.qty.digits] := by
  have fields := tree.splitOn_print
  rw [printed, splitOn_itemFront] at fields
  simp only [ItemSyntax.fields, List.cons.injEq] at fields
  obtain ⟨orderId, id, status, rest⟩ := fields
  refine ⟨(toString_eq_digits orderId).1, (toString_eq_digits id).1, ?_, rest⟩
  rw [itemStatus_of_itemStatusToStr status]
  exact tree.valid

/-- The back of an item and the item string it ends. -/
theorem item_of_itemBack
    {item : Item}
    {text : Bytes}
    {tree : ItemSyntax}
    (printed : tree.print = text ++ itemBack item) :
    1 ≤ item.qty ∧
      text.splitOn colon = [tree.orderId.digits, tree.id.digits,
        itemStatusToStr tree.status, tree.desc] := by
  have fields := tree.splitOn_print
  rw [printed, splitOn_itemBack] at fields
  have cut : tree.fields = [tree.orderId.digits, tree.id.digits,
      itemStatusToStr tree.status, tree.desc] ++ [tree.qty.digits] := rfl
  rw [cut] at fields
  obtain ⟨front, back⟩ := List.append_inj' fields rfl
  rw [List.singleton_inj] at back
  exact ⟨(toString_eq_digits back).1, front⟩

theorem eq_intercalate
    {separator : UInt8}
    {text : Bytes}
    {pieces : List Bytes}
    (split : text.splitOn separator = pieces) :
    text = [separator].intercalate pieces :=
  (splitOn_eq_iff.mp split).2.2.symm

/-- If the item strings cut from the encoding of an item are all items, then the
item is readable. -/
theorem readable_of_splitOn
    {item : Item}
    {trees : List ItemSyntax}
    (pieces : (encodeItem item).splitOn semicolon = trees.map ItemSyntax.print) :
    Readable item := by
  obtain ⟨first, others, descPieces⟩ :=
    List.exists_cons_of_ne_nil (List.splitOn_ne_nil semicolon item.desc)
  rcases List.eq_nil_or_concat others with rfl | ⟨middle, last, rfl⟩
  · have lacks : semicolon ∉ encodeItem item := by
      have desc : semicolon ∉ item.desc := by
        rw [eq_intercalate descPieces, List.intercalate_singleton]
        exact not_mem_of_mem_splitOn (descPieces ▸ List.mem_singleton_self first)
      simp [encodeItem_eq, semicolon_not_mem_itemFront, desc,
        semicolon_not_mem_itemBack]
    have whole : (encodeItem item).splitOn semicolon = [encodeItem item] := by
      rw [splitOn_eq_iff]
      exact ⟨by simp, by simpa using lacks, by simp⟩
    rw [whole] at pieces
    obtain ⟨tree, -, printed⟩ := List.exists_of_mem_map
      (pieces ▸ List.mem_singleton_self (encodeItem item))
    rw [encodeItem_eq] at printed
    obtain ⟨orderId, id, status, fields⟩ := item_of_itemFront printed
    rw [splitOn_itemBack] at fields
    have cut : item.desc.splitOn colon ++ [Cxx.toString item.qty] =
        [tree.desc] ++ [tree.qty.digits] := fields
    obtain ⟨desc, qty⟩ := List.append_inj' cut rfl
    rw [List.singleton_inj] at qty
    have same : item.desc = tree.desc := by
      rw [eq_intercalate desc, List.intercalate_singleton]
    refine ⟨orderId, id, status, Or.inl ?_, (toString_eq_digits qty).1⟩
    rw [same]
    exact tree.plain
  · rw [List.concat_eq_append] at descPieces
    rw [splitOn_encodeItem descPieces] at pieces
    obtain ⟨firstTree, others, rfl, firstPrinted, otherPieces⟩ :=
      List.map_eq_cons_iff.mp pieces.symm
    obtain ⟨middleTrees, lasts, rfl, rfl, lastPieces⟩ :=
      List.map_eq_append_iff.mp otherPieces
    obtain ⟨lastTree, rfl, lastPrinted⟩ :=
      List.map_eq_singleton_iff.mp lastPieces
    obtain ⟨orderId, id, status, closing⟩ := item_of_itemFront firstPrinted
    obtain ⟨qty, opening⟩ := item_of_itemBack lastPrinted
    refine ⟨orderId, id, status, Or.inr ?_, qty⟩
    refine ⟨⟨firstTree.desc, firstTree.plain, firstTree.qty, middleTrees,
      lastTree.orderId, lastTree.id, lastTree.status, lastTree.valid,
      lastTree.desc, lastTree.plain⟩, ?_⟩
    rw [eq_intercalate descPieces, eq_intercalate closing, eq_intercalate opening]
    simp [Splice.print, Splice.closing, Splice.opening]

/-! ## From the form of the description to item strings -/

theorem Splice.splitOn_print (splice : Splice) :
    splice.print.splitOn semicolon =
      splice.closing :: (splice.middle.map ItemSyntax.print ++ [splice.opening]) := by
  apply List.splitOn_intercalate
  · have other : semicolon ≠ colon := by decide
    have head : semicolon ∉ splice.head := splice.headPlain.not_mem
    have qty : semicolon ∉ splice.qty.digits := splice.qty.lacks.not_mem
    have orderId : semicolon ∉ splice.orderId.digits := splice.orderId.lacks.not_mem
    have id : semicolon ∉ splice.id.digits := splice.id.lacks.not_mem
    have status : semicolon ∉ itemStatusToStr splice.status :=
      (lacks_itemStatusToStr _).not_mem
    have tail : semicolon ∉ splice.tail := splice.tailPlain.not_mem
    simp only [List.mem_cons, List.mem_append, List.mem_map, List.not_mem_nil,
      or_false]
    rintro piece (rfl | ⟨tree, -, rfl⟩ | rfl)
    · simp [closing, head, qty, other]
    · exact tree.lacks_print.not_mem
    · simp [opening, orderId, id, status, tail, other]
  · simp

theorem Spliced.semicolon_mem
    {desc : Bytes}
    (spliced : Spliced desc) : semicolon ∈ desc := by
  obtain ⟨splice, rfl⟩ := spliced
  by_contra lacks
  have whole : splice.print.splitOn semicolon = [splice.print] := by
    rw [splitOn_eq_iff]
    exact ⟨by simp, by simpa using lacks, by simp⟩
  rw [splice.splitOn_print] at whole
  simp at whole

/-- The item strings cut from the encoding of a readable item are items, and a
single one that means the item if its description is plain. -/
theorem exists_items_of_readable
    {item : Item}
    (readable : Readable item) :
    ∃ trees : List ItemSyntax,
      (encodeItem item).splitOn semicolon = trees.map ItemSyntax.print ∧
        (Lacks [pipe, semicolon, colon] item.desc →
          trees.map ItemSyntax.meaning = [item]) := by
  obtain ⟨orderId, id, status, plain | spliced, qty⟩ := readable
  · obtain ⟨tree, rfl⟩ := exists_itemSyntax ⟨orderId, id, status, plain, qty⟩
    refine ⟨[tree.canonical], ?_, fun _ => by simp⟩
    rw [tree.encodeItem_meaning, List.map_singleton, splitOn_eq_iff]
    exact ⟨by simp, by simpa using tree.canonical.lacks_print.not_mem, by simp⟩
  · have notPlain : ¬ Lacks [pipe, semicolon, colon] item.desc :=
      fun plain => plain semicolon (by decide) spliced.semicolon_mem
    obtain ⟨splice, printed⟩ := spliced
    let host : ItemSyntax :=
      ⟨.ofPositive item.orderId orderId, .ofPositive item.id id, item.status,
        status, [], by decide, .ofPositive item.qty qty⟩
    refine ⟨splice.items host, ?_, fun plain => absurd plain notPlain⟩
    rw [splitOn_encodeItem (printed ▸ splice.splitOn_print)]
    simp [Splice.items, host, ItemSyntax.print, ItemSyntax.fields, itemFront,
      itemBack, Splice.closing, Splice.opening]

end Wire
end OrderTracking
