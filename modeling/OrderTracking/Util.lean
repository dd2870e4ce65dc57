import OrderTracking.Cxx
import OrderTracking.Library.Separated

/-!
# Splitting a string at a separator

`split` follows the loop of `Util::split`: a position, the next occurrence of
the separator from there, and a token cut out between the two. The loop always
ends, never asks `substr` for a position past the end, and produces the tokens
that `List.splitOn` produces. So it is the inverse of joining.
-/

namespace OrderTracking
namespace Util

/-- The loop of `Util::split` from a position, with the tokens found so far. -/
def splitLoop (s : Bytes) (sep : UInt8) (pos : Nat) (v : List Bytes) :
    Except Exception (List Bytes) :=
  match _found : Cxx.find s sep pos with
  | none => do
      -- no more separators: the rest of the string is the last token
      let tok ← Cxx.substrFrom s pos
      return v ++ [tok]
  | some sepPos => do
      let tok ← Cxx.substr s pos (sepPos - pos)
      splitLoop s sep (sepPos + 1) (v ++ [tok])
termination_by s.length + 1 - pos
decreasing_by
  have := Cxx.find_eq_some _found
  omega

/-- Split a string into components separated by the given separator. -/
def split (s : Bytes) (sep : UInt8) : Except Exception (List Bytes) :=
  splitLoop s sep 0 []

theorem splitLoop_eq_ok
    (s : Bytes)
    (sep : UInt8)
    (pos : Nat)
    (v : List Bytes)
    (inside : pos ≤ s.length) :
    splitLoop s sep pos v = .ok (v ++ (s.drop pos).splitOn sep) := by
  fun_induction splitLoop s sep pos v with
  | case1 pos v found =>
      rw [Cxx.find_eq_none_iff] at found
      rw [Cxx.substrFrom_eq_ok inside, ok_bind,
        List.splitOn_eq_singleton found]
      rfl
  | case2 pos v sepPos found inductionHypothesis =>
      obtain ⟨after, before, absent, shape⟩ := Cxx.find_eq_some found
      rw [Cxx.substr_eq_ok inside, ok_bind,
        inductionHypothesis _ (by omega), shape,
        List.splitOn_append_cons_self_of_not_mem absent,
        List.append_assoc, List.singleton_append, ← shape]

/-- `Util::split` never throws and returns the tokens between the separators. -/
theorem split_eq_ok
    (s : Bytes)
    (sep : UInt8) :
    split s sep = .ok (s.splitOn sep) := by
  rw [split, splitLoop_eq_ok s sep 0 [] (Nat.zero_le _)]
  rfl

/-! ## The iterations of the loop -/

/-- The loop begins an iteration at this position, with these tokens found. -/
inductive Iterates (s : Bytes) (sep : UInt8) : Nat → List Bytes → Prop
  | first : Iterates s sep 0 []
  | next (pos sepPos : Nat) (v : List Bytes) (tok : Bytes)
      (iterates : Iterates s sep pos v)
      (found : Cxx.find s sep pos = some sepPos)
      (extracted : Cxx.substr s pos (sepPos - pos) = .ok tok) :
      Iterates s sep (sepPos + 1) (v ++ [tok])

/-- Each iteration begins within the string, and past the previous one. -/
theorem Iterates.inside
    {s : Bytes}
    {sep : UInt8}
    {pos : Nat}
    {v : List Bytes}
    (iterates : Iterates s sep pos v) :
    pos ≤ s.length ∧ v.length ≤ pos := by
  induction iterates with
  | first => exact ⟨Nat.zero_le _, le_refl _⟩
  | next pos sepPos v tok iterates found extracted inductionHypothesis =>
      obtain ⟨after, before, -⟩ := Cxx.find_eq_some found
      rw [List.length_append, List.length_singleton]
      omega

/-- An iteration that finds a separator leads to the next one. -/
theorem splitLoop_of_find
    {s : Bytes}
    {sep : UInt8}
    {pos sepPos : Nat}
    {tok : Bytes}
    (found : Cxx.find s sep pos = some sepPos)
    (extracted : Cxx.substr s pos (sepPos - pos) = .ok tok)
    (v : List Bytes) :
    splitLoop s sep pos v = splitLoop s sep (sepPos + 1) (v ++ [tok]) := by
  rw [splitLoop]
  split
  next absent =>
    rw [found] at absent
    cases absent
  next other isOther =>
    rw [found, Option.some.injEq] at isOther
    subst isOther
    rw [extracted, ok_bind]

/-- The iterations are those of one call of `split`. -/
theorem Iterates.splitLoop_eq
    {s : Bytes}
    {sep : UInt8}
    {pos : Nat}
    {v : List Bytes}
    (iterates : Iterates s sep pos v) :
    splitLoop s sep pos v = split s sep := by
  induction iterates with
  | first => rfl
  | next pos sepPos v tok iterates found extracted inductionHypothesis =>
      rw [← splitLoop_of_find found extracted, inductionHypothesis]

/-! ## Splitting and joining -/

/-- The string is the join of the tokens, none of which has a separator. -/
structure Joins (sep : UInt8) (v : List Bytes) (s : Bytes) : Prop where
  nonempty : v ≠ []
  lacks : ∀ tok ∈ v, sep ∉ tok
  joined : [sep].intercalate v = s

theorem split_eq_ok_iff
    {s : Bytes}
    {sep : UInt8}
    {v : List Bytes} :
    split s sep = .ok v ↔ Joins sep v s := by
  rw [split_eq_ok, Except.ok.injEq, splitOn_eq_iff]
  constructor
  · rintro ⟨nonempty, lacks, joined⟩
    exact ⟨nonempty, lacks, joined⟩
  · rintro ⟨nonempty, lacks, joined⟩
    exact ⟨nonempty, lacks, joined⟩

/-- Splitting is the exact inverse of joining. Each iteration of the loop begins
within the string, after at most as many iterations as the string has characters,
and the loop ends without an exception, in the one list of tokens that joins to the
string. Tokens without separators are what their join splits into. -/
theorem split_inverts_join
    (s : Bytes)
    (sep : UInt8) :
    (∀ pos v, Iterates s sep pos v →
      pos ≤ s.length ∧ v.length ≤ pos ∧ splitLoop s sep pos v = split s sep) ∧
    (∃ v, split s sep = .ok v ∧ Joins sep v s ∧ ∀ other, Joins sep other s → other = v) ∧
    ∀ v, v ≠ [] → (∀ tok ∈ v, sep ∉ tok) → split ([sep].intercalate v) sep = .ok v := by
  refine ⟨?_, ⟨s.splitOn sep, split_eq_ok s sep, ?_, ?_⟩, ?_⟩
  · intro pos v iterates
    obtain ⟨inside, few⟩ := iterates.inside
    exact ⟨inside, few, iterates.splitLoop_eq⟩
  · exact split_eq_ok_iff.mp (split_eq_ok s sep)
  · intro other joins
    have same := split_eq_ok_iff.mpr joins
    rw [split_eq_ok, Except.ok.injEq] at same
    exact same.symm
  · intro v nonempty lacks
    exact split_eq_ok_iff.mpr ⟨nonempty, lacks, rfl⟩

/-- Empty tokens are kept. -/
example : split (ascii ";a;;b;") 59 =
    .ok [ascii "", ascii "a", ascii "", ascii "b", ascii ""] := by
  rw [split_eq_ok]
  rfl

end Util
end OrderTracking
