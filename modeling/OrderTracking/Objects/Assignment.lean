import OrderTracking.Equality
import OrderTracking.Objects.Defs

/-!
# What an assignment copies

An assignment sets the id and the status and appends duplicates of the items: it
never clears the items of the target. So it copies the value of the other order
exactly when the target has no items before, as in the copy constructor. What it
appends is shared with no order.
-/

namespace OrderTracking
namespace Memory

/-! ## The loop -/

/-- An order has got pointers to copies of these items, which did not exist before,
and no other order has changed. -/
structure Grows (order : OrderPtr) (copies : List Item) (memory later : Memory) :
    Prop where
  extended : memory.heap.Extends later.heap
  items : ∃ fresh, (later.orders order).items = (memory.orders order).items ++ fresh ∧
    later.heap.read fresh = copies ∧ ∀ pointer ∈ fresh, memory.heap.next ≤ pointer
  others : ∀ other, other ≠ order → later.orders other = memory.orders other

/-- The loop has done nothing but append copies of these items. -/
structure Appended (order : OrderPtr) (copies : List Item) (memory later : Memory) :
    Prop extends Grows order copies memory later where
  id : (later.orders order).id = (memory.orders order).id
  status : (later.orders order).status = (memory.orders order).status

theorem Appended.nothing
    (order : OrderPtr)
    (memory : Memory) :
    Appended order [] memory memory where
  extended := .refl _
  id := rfl
  status := rfl
  items := ⟨[], by simp⟩
  others := fun _ _ => rfl

theorem Appended.trans
    {order : OrderPtr}
    {front back : List Item}
    {memory later last : Memory}
    (first : Appended order front memory later)
    (second : Appended order back later last) :
    Appended order (front ++ back) memory last where
  extended := first.extended.trans second.extended
  id := second.id.trans first.id
  status := second.status.trans first.status
  items := by
    obtain ⟨fresh, items, copies, new⟩ := first.items
    obtain ⟨fresher, moreItems, moreCopies, newer⟩ := second.items
    refine ⟨fresh ++ fresher, ?_, ?_, ?_⟩
    · rw [moreItems, items, List.append_assoc]
    · have allocated : later.heap.Allocated fresh := by
        intro pointer member
        apply later.allocated order
        rw [items]
        exact List.mem_append_right _ member
      rw [Heap.read_append, second.extended.read_eq allocated, copies, moreCopies]
    · intro pointer member
      rcases List.mem_append.mp member with old | young
      · exact new pointer old
      · exact first.extended.next_le.trans (newer pointer young)
  others := fun other different =>
    (second.others other different).trans (first.others other different)

theorem appended_copyItem
    (order : OrderPtr)
    (item : ItemPtr)
    (memory : Memory) :
    Appended order [memory.heap.cells item] memory (memory.copyItem order item) where
  extended := Heap.extends_alloc _ _
  id := by simp [copyItem, addItem, setOrder, makeShared]
  status := by simp [copyItem, addItem, setOrder, makeShared]
  items := by
    refine ⟨[memory.heap.next], ?_, ?_, ?_⟩
    · simp [copyItem, addItem, setOrder, makeShared]
    · exact Heap.read_alloc _ _
    · simp
  others := fun other different => Function.update_of_ne different _ _

/-- The loop over items that exist. -/
theorem appended_copyItems
    (order : OrderPtr)
    (items : List ItemPtr)
    (memory : Memory)
    (allocated : memory.heap.Allocated items) :
    Appended order (memory.heap.read items) memory
      (items.foldl (fun memory item => memory.copyItem order item) memory) := by
  induction items generalizing memory with
  | nil => exact .nothing order memory
  | cons item items inductionHypothesis =>
      have first := appended_copyItem order item memory
      have others : memory.heap.Allocated items :=
        fun pointer member => allocated pointer (List.mem_cons_of_mem item member)
      have rest := inductionHypothesis (memory.copyItem order item)
        (others.later first.extended)
      rw [first.extended.read_eq others] at rest
      exact first.trans rest

/-! ## Assignment -/

/-- What an assignment from another object does. -/
structure Assigned (order rhs : OrderPtr) (memory later : Memory) :
    Prop extends Grows order (memory.value rhs).items memory later where
  id : (later.orders order).id = (memory.orders rhs).id
  status : (later.orders order).status = (memory.orders rhs).status

theorem assigned
    {order rhs : OrderPtr}
    (different : order ≠ rhs)
    (memory : Memory) :
    Assigned order rhs memory (memory.assign order rhs) := by
  have source : (memory.setId order (memory.orders rhs).id).orders rhs =
      memory.orders rhs :=
    Function.update_of_ne different.symm _ _
  have loop := appended_copyItems order (memory.orders rhs).items
    (memory.setId order (memory.orders rhs).id) (memory.allocated rhs)
  have sourceKept := (loop.others rhs different.symm).trans source
  rw [assign, if_pos different]
  dsimp only
  rw [source, sourceKept]
  refine ⟨⟨loop.extended, ?_, ?_⟩, ?_, ?_⟩
  · obtain ⟨fresh, items, copies, new⟩ := loop.items
    rw [setId, setOrder_self] at items
    rw [setStatus, setOrder_self]
    exact ⟨fresh, items, copies, new⟩
  · intro other otherwise
    rw [setStatus, setOrder_other otherwise, loop.others other otherwise, setId,
      setOrder_other otherwise]
  · rw [setStatus, setOrder_self, loop.id, setId, setOrder_self]
  · rw [setStatus, setOrder_self]

@[simp] theorem assign_self
    (order : OrderPtr)
    (memory : Memory) :
    memory.assign order order = memory :=
  if_neg (not_not.mpr rfl)

/-- By value an assignment is what `Order.assign` says. -/
theorem value_assign
    {order rhs : OrderPtr}
    (different : order ≠ rhs)
    (memory : Memory) :
    (memory.assign order rhs).value order =
      (memory.value order).assign (memory.value rhs) := by
  have assigned := assigned different memory
  obtain ⟨fresh, items, copies, -⟩ := assigned.items
  have kept := assigned.extended.read_eq (memory.allocated order)
  rw [value, assigned.id, assigned.status, items, Heap.read_append, kept, copies,
    Order.assign_eq]
  rfl

/-- An assignment leaves every other order as it was. -/
theorem value_assign_other
    {order other : OrderPtr}
    (otherwise : other ≠ order)
    (rhs : OrderPtr)
    (memory : Memory) :
    (memory.assign order rhs).value other = memory.value other := by
  by_cases different : order ≠ rhs
  · have assigned := assigned different memory
    have kept := assigned.extended.read_eq (memory.allocated other)
    rw [value, assigned.others other otherwise, kept]
    rfl
  · rw [assign, if_neg different]

theorem items_assign
    {order rhs : OrderPtr}
    (different : order ≠ rhs)
    (memory : Memory) :
    ((memory.assign order rhs).value order).items =
      (memory.value order).items ++ (memory.value rhs).items := by
  rw [value_assign different, Order.assign_eq]

/-! ## Series of assignments -/

theorem assignAll_concat
    (order : OrderPtr)
    (front : List OrderPtr)
    (last : OrderPtr)
    (memory : Memory) :
    memory.assignAll order (front ++ [last]) =
      (memory.assignAll order front).assign order last :=
  List.foldl_concat _ _ _ _

theorem value_assignAll_other
    {order other : OrderPtr}
    (otherwise : other ≠ order)
    (sources : List OrderPtr)
    (memory : Memory) :
    (memory.assignAll order sources).value other = memory.value other := by
  induction sources generalizing memory with
  | nil => rfl
  | cons rhs sources inductionHypothesis =>
      have first := value_assign_other otherwise rhs memory
      exact (inductionHypothesis (memory.assign order rhs)).trans first

/-- An order that a series of assignments leaves without items had none, and was
assigned none. -/
theorem items_assignAll_eq_nil_iff
    (order : OrderPtr)
    (sources : List OrderPtr)
    (memory : Memory) :
    ((memory.assignAll order sources).value order).items = [] ↔
      (memory.value order).items = [] ∧
        ∀ rhs ∈ sources, rhs ≠ order → (memory.value rhs).items = [] := by
  induction sources using List.reverseRecOn with
  | nil => simp [assignAll]
  | append_singleton front last inductionHypothesis =>
      rw [assignAll_concat]
      by_cases same : order = last
      · subst same
        rw [assign_self, inductionHypothesis]
        simp [or_imp, forall_and]
      · rw [items_assign same, List.append_eq_nil_iff, inductionHypothesis,
          value_assignAll_other (Ne.symm same)]
        simp [or_imp, forall_and, Ne.symm same, and_assoc]

/-! ## Copies -/

theorem allocateOrder_self
    (new : OrderPtr)
    (id : Int32)
    (status : OrderStatus)
    (memory : Memory) :
    (memory.allocateOrder new id status).orders new = ⟨id, status, []⟩ :=
  setOrder_self ..

theorem allocateOrder_other
    {new order : OrderPtr}
    (otherwise : order ≠ new)
    (id : Int32)
    (status : OrderStatus)
    (memory : Memory) :
    (memory.allocateOrder new id status).orders order = memory.orders order :=
  setOrder_other otherwise

theorem value_allocateOrder
    (new : OrderPtr)
    (id : Int32)
    (status : OrderStatus)
    (memory : Memory) :
    (memory.allocateOrder new id status).value new = ⟨id, status, []⟩ := by
  rw [value, allocateOrder_self]
  rfl

theorem value_allocateOrder_other
    {new order : OrderPtr}
    (otherwise : order ≠ new)
    (id : Int32)
    (status : OrderStatus)
    (memory : Memory) :
    (memory.allocateOrder new id status).value order = memory.value order := by
  rw [value, allocateOrder_other otherwise]
  rfl

/-- By value a copy is what `Order.duplicate` says. -/
theorem value_copyConstruct
    {new other : OrderPtr}
    (different : new ≠ other)
    (id : Int32)
    (status : OrderStatus)
    (memory : Memory) :
    (memory.copyConstruct new other id status).value new =
      (memory.value other).duplicate := by
  rw [copyConstruct, value_assign different, value_allocateOrder,
    value_allocateOrder_other different.symm]
  rfl

/-- The copy constructor leaves every other order as it was. -/
theorem value_copyConstruct_other
    {new order : OrderPtr}
    (otherwise : order ≠ new)
    (other : OrderPtr)
    (id : Int32)
    (status : OrderStatus)
    (memory : Memory) :
    (memory.copyConstruct new other id status).value order = memory.value order := by
  rw [copyConstruct, value_assign_other otherwise, value_allocateOrder_other otherwise]

theorem value_changeItem_of_not_mem
    {memory : Memory}
    {order : OrderPtr}
    {item : ItemPtr}
    (absent : item ∉ (memory.orders order).items)
    (change : Item → Item) :
    (memory.changeItem item change).value order = memory.value order := by
  have kept := Heap.read_modify_of_not_mem absent change memory.heap
  rw [value, changeItem, kept]
  rfl

/-- A copy is made of new items, so a change of an item through one of two orders
does not show in the other if one of them is a copy. -/
theorem duplicate_shares_nothing
    {order new : OrderPtr}
    (different : new ≠ order)
    (id : Int32)
    (status : OrderStatus)
    (memory : Memory)
    (change : Item → Item)
    {later : Memory}
    (copied : memory.duplicate order new id status = (new, later))
    {other : OrderPtr}
    (otherwise : other ≠ new) :
    (∀ item ∈ (later.orders new).items,
      (later.changeItem item change).value other = later.value other) ∧
    ∀ item ∈ (later.orders other).items,
      (later.changeItem item change).value new = later.value new := by
  rw [duplicate, Prod.mk.injEq] at copied
  obtain ⟨-, rfl⟩ := copied
  have assigned := assigned different (memory.allocateOrder new id status)
  obtain ⟨fresh, items, -, isNew⟩ := assigned.items
  rw [allocateOrder_self, List.nil_append] at items
  have old := assigned.others other otherwise
  rw [allocateOrder_other otherwise] at old
  -- the pointers of the copy are past those of every order there was
  have apart : ∀ item ∈ fresh, item ∉ (memory.orders other).items := by
    intro item member shared
    exact absurd (memory.allocated other item shared) (not_lt.mpr (isNew item member))
  constructor
  · intro item member
    apply value_changeItem_of_not_mem
    rw [copyConstruct, old]
    rw [copyConstruct, items] at member
    exact apart item member
  · intro item member
    apply value_changeItem_of_not_mem
    rw [copyConstruct, items]
    rw [copyConstruct, old] at member
    exact fun shared => apart item shared member

/-! ## Value semantics -/

/-- The orders are equal, by `==` and in every field. -/
def Agree (memory : Memory) (order rhs : OrderPtr) : Prop :=
  memory.equals order rhs = true ∧ memory.value order = memory.value rhs

theorem agree_iff
    {memory : Memory}
    {order rhs : OrderPtr} :
    memory.Agree order rhs ↔ memory.value order = memory.value rhs := by
  refine ⟨And.right, fun same => ⟨?_, same⟩⟩
  rw [equals, same, Order.equals_iff]
  exact ⟨rfl, rfl, rfl, rfl⟩

/-- After the assignment the orders are equal, and the other order is as before. -/
def AssignsValue (memory : Memory) (order rhs : OrderPtr) : Prop :=
  (memory.assign order rhs).Agree order rhs ∧
    (memory.assign order rhs).value rhs = memory.value rhs

/-- Assigning a second time does not change the order again. -/
def AssignsOnce (memory : Memory) (order rhs : OrderPtr) : Prop :=
  ((memory.assign order rhs).assign order rhs).value order =
    (memory.assign order rhs).value order

/-- After a series of assignments the order is equal to the one assigned last. -/
def LastWins (memory : Memory) (order : OrderPtr) (front : List OrderPtr)
    (last : OrderPtr) : Prop :=
  (memory.assignAll order (front ++ [last])).Agree order last

/-- The copy constructor and `duplicate` make an equal order, and leave the other
order as before. -/
def CopiesValue (memory : Memory) (new other : OrderPtr) (id : Int32)
    (status : OrderStatus) : Prop :=
  let constructed := memory.copyConstruct new other id status
  let (copy, duplicated) := memory.duplicate other new id status
  (constructed.Agree new other ∧ constructed.value other = memory.value other) ∧
    duplicated.Agree copy other ∧ duplicated.value other = memory.value other

theorem agree_assign_iff
    (memory : Memory)
    (order rhs : OrderPtr) :
    (memory.assign order rhs).Agree order rhs ↔
      order = rhs ∨ (memory.value order).items = [] := by
  by_cases same : order = rhs
  · subst same
    simp [agree_iff]
  · rw [agree_iff, value_assign_other (Ne.symm same), or_iff_right same]
    constructor
    · intro equal
      have items := items_assign same memory
      rw [equal] at items
      exact List.self_eq_append_left.mp items
    · intro empty
      rw [value_assign same, Order.assign_eq, empty, List.nil_append]

theorem assignsValue_iff
    (memory : Memory)
    (order rhs : OrderPtr) :
    memory.AssignsValue order rhs ↔ order = rhs ∨ (memory.value order).items = [] := by
  rw [AssignsValue, agree_assign_iff, and_iff_left_iff_imp]
  intro _
  by_cases same : order = rhs
  · rw [same, assign_self]
  · exact value_assign_other (Ne.symm same) rhs memory

theorem assignsOnce_iff
    (memory : Memory)
    (order rhs : OrderPtr) :
    memory.AssignsOnce order rhs ↔ order = rhs ∨ (memory.value rhs).items = [] := by
  rw [AssignsOnce]
  by_cases same : order = rhs
  · subst same
    simp
  · have source := value_assign_other (Ne.symm same) rhs memory
    rw [or_iff_right same, value_assign same, source, value_assign same]
    simp [Order.assign_eq]

theorem lastWins_iff
    (memory : Memory)
    (order : OrderPtr)
    (front : List OrderPtr)
    (last : OrderPtr) :
    memory.LastWins order front last ↔
      order = last ∨ (memory.value order).items = [] ∧
        ∀ rhs ∈ front, rhs ≠ order → (memory.value rhs).items = [] := by
  rw [LastWins, assignAll_concat, agree_assign_iff, items_assignAll_eq_nil_iff]

theorem copiesValue
    {new other : OrderPtr}
    (different : new ≠ other)
    (id : Int32)
    (status : OrderStatus)
    (memory : Memory) :
    memory.CopiesValue new other id status := by
  have kept := value_copyConstruct_other different.symm other id status memory
  have agree : (memory.copyConstruct new other id status).Agree new other := by
    rw [agree_iff, value_copyConstruct different, kept, Order.duplicate_eq]
  exact ⟨⟨agree, kept⟩, agree, kept⟩

/-- An assignment copies the value of the other order exactly when it is of an order
to itself or the target has no items, and repeating it changes nothing exactly when
the other order has none. The last of a series wins exactly when nothing before it
left an item. Copies are always equal to what they copy. -/
theorem valueSemantics_iff
    (memory : Memory)
    (order rhs last : OrderPtr)
    (front : List OrderPtr) :
    (memory.AssignsValue order rhs ↔
      order = rhs ∨ (memory.value order).items = []) ∧
    (memory.AssignsOnce order rhs ↔
      order = rhs ∨ (memory.value rhs).items = []) ∧
    (memory.LastWins order front last ↔
      order = last ∨ (memory.value order).items = [] ∧
        ∀ earlier ∈ front, earlier ≠ order → (memory.value earlier).items = []) ∧
    ∀ new id status, new ≠ rhs → memory.CopiesValue new rhs id status :=
  ⟨assignsValue_iff memory order rhs, assignsOnce_iff memory order rhs,
    lastWins_iff memory order front last,
    fun _ id status different => copiesValue different id status memory⟩

/-- The order 0 is of a tea, and every other order of a soup. -/
def teaAndSoup : Memory where
  orders := fun order => if order = 0 then ⟨1, .new, [0]⟩ else ⟨2, .done, [1]⟩
  heap :=
    { cells := fun item =>
        if item = 0 then ⟨1, 1, .new, ascii "tea", 1⟩ else ⟨2, 1, .done, ascii "soup", 2⟩
      next := 2 }
  allocated := by
    intro order
    split <;> simp [Heap.Allocated]

/-- The tea stays on the order that the other one is assigned to, and a second
assignment adds a second soup. -/
theorem tea_stays :
    ¬ teaAndSoup.AssignsValue 0 1 ∧ (teaAndSoup.assign 0 1).equals 0 1 = false ∧
      (teaAndSoup.assign 0 1).value 0 =
        ⟨2, .done, [⟨1, 1, .new, ascii "tea", 1⟩, ⟨2, 1, .done, ascii "soup", 2⟩]⟩ ∧
      ¬ teaAndSoup.AssignsOnce 0 1 := by
  refine ⟨?_, by decide, by decide, ?_⟩
  · rintro ⟨⟨equal, -⟩, -⟩
    exact absurd equal (by decide)
  · unfold AssignsOnce
    decide

end Memory
end OrderTracking
