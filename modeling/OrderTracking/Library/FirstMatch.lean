import Mathlib.Algebra.GroupWithZero.Nat
import Mathlib.Data.List.Basic

/-!
# Updating the first match in a list

`updateFirst` changes the first element that satisfies a test, the way a loop
that searches a sequence and mutates the element it stops at does. The lemmas
describe an update that keeps the test's outcome, such as an update of a field
that the test does not read.
-/

namespace OrderTracking

universe u v

variable {α : Type u} {β : Type v}

/-- Change the first element that satisfies the test. -/
def updateFirst (test : α → Bool) (change : α → α) : List α → List α
  | [] => []
  | head :: tail =>
      if test head then change head :: tail
      else head :: updateFirst test change tail

@[simp] theorem length_updateFirst
    (test : α → Bool)
    (change : α → α)
    (list : List α) :
    (updateFirst test change list).length = list.length := by
  induction list with
  | nil => rfl
  | cons head tail inductionHypothesis =>
      by_cases found : test head <;>
        simp [updateFirst, found, inductionHypothesis]

/-- The first match of a list is in its front if that has a match. -/
theorem updateFirst_append
    (test : α → Bool)
    (change : α → α)
    (front back : List α) :
    updateFirst test change (front ++ back) =
      if front.any test then updateFirst test change front ++ back
      else front ++ updateFirst test change back := by
  induction front with
  | nil => rfl
  | cons head front inductionHypothesis =>
      by_cases found : test head
      · simp [updateFirst, found]
      · simp only [List.cons_append, updateFirst, found, List.any_cons,
          Bool.false_or, Bool.false_eq_true, if_false, inductionHypothesis]
        split <;> rfl

/-- A projection that the change keeps is the same for every element. -/
theorem map_updateFirst
    {test : α → Bool}
    {change : α → α}
    (projection : α → β)
    (keeps : ∀ element, projection (change element) = projection element)
    (list : List α) :
    (updateFirst test change list).map projection = list.map projection := by
  induction list with
  | nil => rfl
  | cons head tail inductionHypothesis =>
      by_cases found : test head <;>
        simp [updateFirst, found, keeps, inductionHypothesis]

/-- What the update adds to a sum over the elements. -/
theorem sum_map_updateFirst
    {test : α → Bool}
    {change : α → α}
    {list : List α}
    {first : α}
    (found : list.find? test = some first)
    (weight : α → Nat) :
    ((updateFirst test change list).map weight).sum + weight first =
      (list.map weight).sum + weight (change first) := by
  induction list with
  | nil => cases found
  | cons head tail inductionHypothesis =>
      by_cases isFirst : test head
      · rw [List.find?_cons_of_pos isFirst, Option.some.injEq] at found
        subst found
        simp only [updateFirst, isFirst, if_true, List.map_cons, List.sum_cons]
        omega
      · rw [List.find?_cons_of_neg isFirst] at found
        have rest := inductionHypothesis found
        simp only [updateFirst, isFirst, Bool.false_eq_true, if_false, List.map_cons,
          List.sum_cons]
        omega

/-- An element after the update was one before, or is the change of one. -/
theorem mem_of_mem_updateFirst
    {test : α → Bool}
    {change : α → α}
    {list : List α}
    {element : α}
    (member : element ∈ updateFirst test change list) :
    element ∈ list ∨ ∃ old ∈ list, element = change old := by
  induction list with
  | nil => cases member
  | cons head tail inductionHypothesis =>
      rw [updateFirst] at member
      split at member
      · rcases List.mem_cons.mp member with rfl | inTail
        · exact Or.inr ⟨head, List.mem_cons_self, rfl⟩
        · exact Or.inl (List.mem_cons_of_mem head inTail)
      · rcases List.mem_cons.mp member with rfl | inTail
        · exact Or.inl List.mem_cons_self
        · rcases inductionHypothesis inTail with isOld | ⟨old, isOld, rfl⟩
          · exact Or.inl (List.mem_cons_of_mem head isOld)
          · exact Or.inr ⟨old, List.mem_cons_of_mem head isOld, rfl⟩

/-- The changed first match is an element after the update. -/
theorem change_mem_updateFirst
    {test : α → Bool}
    {change : α → α}
    {list : List α}
    {old : α}
    (first : list.find? test = some old) :
    change old ∈ updateFirst test change list := by
  induction list with
  | nil => simp at first
  | cons head tail inductionHypothesis =>
      by_cases found : test head
      · simp only [List.find?_cons, found, Option.some.injEq] at first
        subst first
        simp [updateFirst, found]
      · simp only [List.find?_cons, found] at first
        simp [updateFirst, found, inductionHypothesis first]

theorem updateFirst_of_find?_eq_none
    {test : α → Bool}
    {change : α → α}
    {list : List α}
    (absent : list.find? test = none) :
    updateFirst test change list = list := by
  induction list with
  | nil => rfl
  | cons head tail inductionHypothesis =>
      by_cases found : test head
      · simp [found] at absent
      · simp only [List.find?_cons, found] at absent
        simp [updateFirst, found, inductionHypothesis absent]

/-- A change that leaves the first match as it is changes nothing. -/
theorem updateFirst_eq_self
    {test : α → Bool}
    {change : α → α}
    {list : List α}
    {first : α}
    (found : list.find? test = some first)
    (same : change first = first) :
    updateFirst test change list = list := by
  induction list with
  | nil => rfl
  | cons head tail inductionHypothesis =>
      by_cases isMatch : test head
      · simp only [List.find?_cons, isMatch, Option.some.injEq] at found
        subst found
        simp [updateFirst, isMatch, same]
      · simp only [List.find?_cons, isMatch] at found
        simp [updateFirst, isMatch, inductionHypothesis found]

/-- When keys do not repeat, the first element with a key is the only one. -/
theorem updateFirst_eq_map
    {Key : Type v}
    [DecidableEq Key]
    {key : α → Key}
    {list : List α}
    (distinct : (list.map key).Nodup)
    (wanted : Key)
    (change : α → α) :
    updateFirst (fun element => key element == wanted) change list =
      list.map fun element => if key element = wanted then change element else element := by
  induction list with
  | nil => rfl
  | cons head tail inductionHypothesis =>
      rw [List.map_cons, List.nodup_cons] at distinct
      by_cases isWanted : key head = wanted
      · subst isWanted
        have others : ∀ element ∈ tail, key element ≠ key head := by
          intro element member same
          exact distinct.1 (same ▸ List.mem_map_of_mem member)
        have rest : tail.map (fun element =>
            if key element = key head then change element else element) = tail.map id :=
          List.map_congr_left fun element member => if_neg (others element member)
        simp [updateFirst, rest]
      · simp [updateFirst, isWanted, inductionHypothesis distinct.2]

/-- A front without a match is not changed. -/
theorem take_updateFirst
    {test : α → Bool}
    {list : List α}
    {count : Nat}
    (absent : ∀ element ∈ list.take count, test element = false)
    (change : α → α) :
    (updateFirst test change list).take count = list.take count := by
  induction list generalizing count with
  | nil => rfl
  | cons head tail inductionHypothesis =>
      cases count with
      | zero => rfl
      | succ count =>
          rw [List.take_succ_cons] at absent
          have headAbsent := absent head List.mem_cons_self
          have tailAbsent := fun element member =>
            absent element (List.mem_cons_of_mem head member)
          simp [updateFirst, headAbsent, inductionHypothesis tailAbsent]

/-- The first match of a list is in every front that has a match. -/
theorem find?_mem_take
    {test : α → Bool}
    {list : List α}
    {count : Nat}
    {first element : α}
    (found : list.find? test = some first)
    (member : element ∈ list.take count)
    (isMatch : test element) :
    first ∈ list.take count := by
  have inFront : ((list.take count).find? test).isSome :=
    List.find?_isSome.mpr ⟨element, member, isMatch⟩
  obtain ⟨front, isFront⟩ := Option.isSome_iff_exists.mp inFront
  rw [← List.take_append_drop count list, List.find?_append, isFront,
    Option.some_or, Option.some.injEq] at found
  rw [← found]
  exact List.mem_of_find?_eq_some isFront

/-- The first match of the updated test is the changed element. -/
theorem find?_updateFirst_self
    {test : α → Bool}
    {change : α → α}
    (keeps : ∀ element, test (change element) = test element)
    (list : List α) :
    (updateFirst test change list).find? test =
      (list.find? test).map change := by
  induction list with
  | nil => rfl
  | cons head tail inductionHypothesis =>
      by_cases found : test head <;>
        simp [updateFirst, found, keeps, inductionHypothesis]

/-- A test that is never true together with the updated one finds what it found
before. -/
theorem find?_updateFirst_other
    {test other : α → Bool}
    {change : α → α}
    (keeps : ∀ element, other (change element) = other element)
    (disjoint : ∀ element, test element → other element = false)
    (list : List α) :
    (updateFirst test change list).find? other = list.find? other := by
  induction list with
  | nil => rfl
  | cons head tail inductionHypothesis =>
      by_cases found : test head
      · simp [updateFirst, found, keeps, disjoint head found]
      · simp only [updateFirst, found, Bool.false_eq_true, if_false,
          List.find?_cons, inductionHypothesis]

/-- A later update of the same match replaces an earlier one. -/
theorem updateFirst_updateFirst_self
    {test : α → Bool}
    {first second : α → α}
    (keeps : ∀ element, test (first element) = test element)
    (replaces : ∀ element, second (first element) = second element)
    (list : List α) :
    updateFirst test second (updateFirst test first list) =
      updateFirst test second list := by
  induction list with
  | nil => rfl
  | cons head tail inductionHypothesis =>
      by_cases found : test head <;>
        simp [updateFirst, found, keeps, replaces, inductionHypothesis]

/-- Updates of different matches commute. -/
theorem updateFirst_comm
    {test other : α → Bool}
    {first second : α → α}
    (keepsOther : ∀ element, other (first element) = other element)
    (keepsTest : ∀ element, test (second element) = test element)
    (disjoint : ∀ element, test element → other element = false)
    (list : List α) :
    updateFirst other second (updateFirst test first list) =
      updateFirst test first (updateFirst other second list) := by
  induction list with
  | nil => rfl
  | cons head tail inductionHypothesis =>
      by_cases found : test head
      · have apart := disjoint head found
        simp [updateFirst, found, apart, keepsOther]
      · by_cases foundOther : other head <;>
          simp [updateFirst, found, foundOther, keepsTest, inductionHypothesis]

/-- Updating a function at the first key whose value satisfies the test updates the first
match of the values. -/
theorem map_update_of_find?
    [DecidableEq α]
    {values : α → β}
    {test : β → Bool}
    {keys : List α}
    (distinct : keys.Nodup)
    {key : α}
    (found : keys.find? (fun key => test (values key)) = some key)
    (change : β → β) :
    keys.map (Function.update values key (change (values key))) =
      updateFirst test change (keys.map values) := by
  induction keys with
  | nil => cases found
  | cons head tail inductionHypothesis =>
      obtain ⟨notIn, others⟩ := List.nodup_cons.mp distinct
      by_cases isMatch : test (values head) = true
      · obtain rfl : head = key := by simpa [List.find?_cons, isMatch] using found
        have same : tail.map (Function.update values head (change (values head))) =
            tail.map values :=
          List.map_congr_left fun other member =>
            Function.update_of_ne (ne_of_mem_of_not_mem member notIn) _ _
        simp [updateFirst, isMatch, same]
      · have later : tail.find? (fun key => test (values key)) = some key := by
          simpa [List.find?_cons, isMatch] using found
        have different : head ≠ key := by
          rintro rfl
          exact notIn (List.mem_of_find?_eq_some later)
        rw [List.map_cons, Function.update_of_ne different, inductionHypothesis others later,
          List.map_cons, updateFirst, if_neg isMatch]

end OrderTracking
