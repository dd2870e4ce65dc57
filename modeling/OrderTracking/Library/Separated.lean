import Mathlib.Algebra.GroupWithZero.Nat
import Mathlib.Data.List.Basic

/-!
# Lists joined by a separator

Splitting at a separator and joining with it are inverse to each other on
non-empty lists of pieces that do not contain the separator. A join of joins
splits piece by piece.
-/

namespace OrderTracking

universe u

variable {α : Type u}

/-- Length of a join: the pieces and one separator between any two. -/
theorem length_intercalate_singleton
    (separator : α)
    (pieces : List (List α)) :
    ([separator].intercalate pieces).length =
      (pieces.map List.length).sum + (pieces.length - 1) := by
  induction pieces with
  | nil => simp
  | cons piece pieces inductionHypothesis =>
      cases pieces with
      | nil => simp
      | cons next others =>
          rw [List.intercalate_cons_cons, List.length_append,
            List.length_append, inductionHypothesis]
          simp only [List.length_cons, List.length_nil, List.map_cons,
            List.sum_cons]
          omega

/-- An element of a join is the separator or an element of a piece. -/
theorem mem_intercalate_singleton
    {separator element : α}
    {pieces : List (List α)}
    (member : element ∈ [separator].intercalate pieces) :
    element = separator ∨ ∃ piece ∈ pieces, element ∈ piece := by
  induction pieces with
  | nil => simp at member
  | cons piece pieces inductionHypothesis =>
      cases pieces with
      | nil =>
          rw [List.intercalate_singleton] at member
          exact Or.inr ⟨piece, List.mem_cons_self, member⟩
      | cons next others =>
          rw [List.intercalate_cons_cons, List.mem_append, List.mem_append,
            List.mem_singleton] at member
          rcases member with (inPiece | isSeparator) | inRest
          · exact Or.inr ⟨piece, List.mem_cons_self, inPiece⟩
          · exact Or.inl isSeparator
          · rcases inductionHypothesis inRest with isSeparator | ⟨later, isPiece, inLater⟩
            · exact Or.inl isSeparator
            · exact Or.inr ⟨later, List.mem_cons_of_mem _ isPiece, inLater⟩

/-- The elements of a piece are elements of the join. -/
theorem mem_intercalate_of_mem
    {separator element : α}
    {pieces : List (List α)}
    {piece : List α}
    (isPiece : piece ∈ pieces)
    (inPiece : element ∈ piece) :
    element ∈ [separator].intercalate pieces := by
  induction pieces with
  | nil => simp at isPiece
  | cons first pieces inductionHypothesis =>
      cases pieces with
      | nil =>
          rw [List.mem_singleton] at isPiece
          rwa [List.intercalate_singleton, ← isPiece]
      | cons next others =>
          rw [List.intercalate_cons_cons, List.mem_append, List.mem_append]
          rcases List.mem_cons.mp isPiece with rfl | later
          · exact Or.inl (Or.inl inPiece)
          · exact Or.inr (inductionHypothesis later)

variable [DecidableEq α]

theorem not_mem_of_mem_splitOn
    {separator : α}
    {list piece : List α}
    (member : piece ∈ list.splitOn separator) : separator ∉ piece := by
  induction list generalizing piece with
  | nil =>
      rw [List.splitOn_nil, List.mem_singleton] at member
      simp [member]
  | cons head tail inductionHypothesis =>
      rw [List.splitOn_cons_eq_if_modifyHead] at member
      by_cases isSeparator : head = separator
      · simp only [isSeparator, beq_self_eq_true, if_true, List.mem_cons]
          at member
        rcases member with rfl | inTail
        · simp
        · exact inductionHypothesis inTail
      · simp only [beq_eq_false_iff_ne.mpr isSeparator, Bool.false_eq_true,
          if_false] at member
        cases pieces : tail.splitOn separator with
        | nil => exact absurd pieces (List.splitOn_ne_nil separator tail)
        | cons first others =>
            rw [pieces, List.modifyHead_cons, List.mem_cons] at member
            rcases member with rfl | inOthers
            · have firstLacks : separator ∉ first :=
                inductionHypothesis (pieces ▸ List.mem_cons_self)
              simp [firstLacks, Ne.symm isSeparator]
            · exact inductionHypothesis
                (pieces ▸ List.mem_cons_of_mem _ inOthers)

/-- Splitting yields exactly the pieces without separators that join to the
list. -/
theorem splitOn_eq_iff
    {separator : α}
    {list : List α}
    {pieces : List (List α)} :
    list.splitOn separator = pieces ↔
      pieces ≠ [] ∧ (∀ piece ∈ pieces, separator ∉ piece) ∧
        [separator].intercalate pieces = list := by
  constructor
  · rintro rfl
    exact ⟨List.splitOn_ne_nil separator list,
      fun piece => not_mem_of_mem_splitOn, List.intercalate_splitOn separator⟩
  · rintro ⟨nonempty, lacking, rfl⟩
    exact List.splitOn_intercalate separator lacking nonempty

/-- Splitting at the first separator. -/
theorem splitOn_append_separator
    {separator : α}
    {piece : List α}
    (lacks : separator ∉ piece)
    (rest : List α) :
    (piece ++ [separator] ++ rest).splitOn separator =
      piece :: rest.splitOn separator := by
  rw [List.append_assoc, List.singleton_append,
    List.splitOn_append_cons_self_of_not_mem lacks]

/-- A join splits into the pieces of its parts. -/
theorem splitOn_intercalate_flatMap
    (separator : α)
    (parts : List (List α))
    (nonempty : parts ≠ []) :
    ([separator].intercalate parts).splitOn separator =
      parts.flatMap (·.splitOn separator) := by
  induction parts with
  | nil => exact absurd rfl nonempty
  | cons part parts inductionHypothesis =>
      cases parts with
      | nil => simp
      | cons next others =>
          rw [List.intercalate_cons_cons, List.append_assoc,
            List.singleton_append, List.splitOn_append_cons_self,
            inductionHypothesis (by simp)]
          simp only [List.flatMap_cons]

/-- Appending text without separators extends the last piece. -/
theorem splitOn_append_of_not_mem
    {separator : α}
    {suffixText : List α}
    (lacks : separator ∉ suffixText)
    (front : List (List α))
    (last : List α)
    {list : List α}
    (pieces : list.splitOn separator = front ++ [last]) :
    (list ++ suffixText).splitOn separator = front ++ [last ++ suffixText] := by
  rw [splitOn_eq_iff] at pieces ⊢
  obtain ⟨-, lacking, rfl⟩ := pieces
  refine ⟨by simp, ?_, ?_⟩
  · intro piece member
    rcases List.mem_append.mp member with inFront | isLast
    · exact lacking piece (List.mem_append_left _ inFront)
    · rw [List.mem_singleton] at isLast
      have lastLacks := lacking last (by simp)
      simp [isLast, lastLacks, lacks]
  · clear lacking
    induction front with
    | nil => simp
    | cons first front inductionHypothesis =>
        have frontNonempty : ∀ final : List α, front ++ [final] ≠ [] := by simp
        rw [List.cons_append, List.cons_append,
          List.intercalate_cons_of_ne_nil (frontNonempty _),
          List.intercalate_cons_of_ne_nil (frontNonempty _),
          inductionHypothesis]
        simp only [List.append_assoc]

/-- Prepending text without separators extends the first piece. -/
theorem splitOn_append_left_of_not_mem
    {separator : α}
    {prefixText : List α}
    (lacks : separator ∉ prefixText)
    (first : List α)
    (others : List (List α))
    {list : List α}
    (pieces : list.splitOn separator = first :: others) :
    (prefixText ++ list).splitOn separator =
      (prefixText ++ first) :: others := by
  rw [splitOn_eq_iff] at pieces ⊢
  obtain ⟨-, lacking, rfl⟩ := pieces
  refine ⟨by simp, ?_, ?_⟩
  · intro piece member
    rcases List.mem_cons.mp member with rfl | inOthers
    · have firstLacks := lacking first List.mem_cons_self
      simp [firstLacks, lacks]
    · exact lacking piece (List.mem_cons_of_mem _ inOthers)
  · cases others with
    | nil => simp
    | cons next others =>
        rw [List.intercalate_cons_cons, List.intercalate_cons_cons]
        simp only [List.append_assoc]

end OrderTracking
