import Mathlib.Data.List.Basic
import Mathlib.Data.List.Induction
import Mathlib.Tactic.IntervalCases

/-!
# Decimal numerals as byte strings

Base-ten numerals written with the ASCII digits `0` to `9`. A digit string may
carry leading zeros; `numeral` is the canonical one. The value of a digit string
determines it up to leading zeros, and among strings of one length it determines
it outright.
-/

namespace OrderTracking
namespace Decimal

/-- The byte is an ASCII decimal digit. -/
def IsDigit (byte : UInt8) : Prop :=
  48 ≤ byte ∧ byte ≤ 57

instance (byte : UInt8) : Decidable (IsDigit byte) :=
  inferInstanceAs (Decidable (48 ≤ byte ∧ byte ≤ 57))

/-- The digit byte of a number below ten. -/
def digit (number : Nat) : UInt8 :=
  UInt8.ofNat (48 + number)

/-- The number a digit byte stands for. -/
def digitValue (byte : UInt8) : Nat :=
  byte.toNat - 48

/-- Positional value of a digit string. -/
def value (digits : List UInt8) : Nat :=
  digits.foldl (fun total byte => 10 * total + digitValue byte) 0

/-- Canonical numeral of a natural number. -/
def numeral (number : Nat) : List UInt8 :=
  (Nat.toDigits 10 number).map fun char => char.toUInt8

theorem isDigit_iff_toNat
    (byte : UInt8) :
    IsDigit byte ↔ 48 ≤ byte.toNat ∧ byte.toNat ≤ 57 := by
  simp only [IsDigit, UInt8.le_iff_toNat_le]
  rfl

theorem toNat_digit
    {number : Nat}
    (small : number < 10) :
    (digit number).toNat = 48 + number := by
  simp only [digit, UInt8.toNat_ofNat']
  omega

theorem isDigit_digit
    {number : Nat}
    (small : number < 10) :
    IsDigit (digit number) := by
  rw [isDigit_iff_toNat, toNat_digit small]
  omega

theorem digitValue_digit
    {number : Nat}
    (small : number < 10) :
    digitValue (digit number) = number := by
  rw [digitValue, toNat_digit small]
  omega

theorem digitValue_lt
    {byte : UInt8}
    (isDigit : IsDigit byte) :
    digitValue byte < 10 := by
  rw [isDigit_iff_toNat] at isDigit
  unfold digitValue
  omega

theorem digit_digitValue
    {byte : UInt8}
    (isDigit : IsDigit byte) :
    digit (digitValue byte) = byte := by
  have small := digitValue_lt isDigit
  rw [isDigit_iff_toNat] at isDigit
  apply UInt8.toNat_inj.mp
  rw [toNat_digit small, digitValue]
  omega

theorem digitValue_injective
    {left right : UInt8}
    (leftDigit : IsDigit left)
    (rightDigit : IsDigit right)
    (equal : digitValue left = digitValue right) :
    left = right := by
  rw [← digit_digitValue leftDigit, equal, digit_digitValue rightDigit]

@[simp] theorem value_nil : value [] = 0 := rfl

@[simp] theorem value_concat
    (digits : List UInt8)
    (byte : UInt8) :
    value (digits ++ [byte]) = 10 * value digits + digitValue byte := by
  simp [value]

/-- Leading zeros do not change the value. -/
@[simp] theorem value_zero_cons
    (digits : List UInt8) :
    value (48 :: digits) = value digits := rfl

@[simp] theorem value_replicate_zero_append
    (count : Nat)
    (digits : List UInt8) :
    value (List.replicate count 48 ++ digits) = value digits := by
  induction count with
  | zero => rfl
  | succ count inductionHypothesis =>
      rw [List.replicate_succ, List.cons_append, value_zero_cons,
        inductionHypothesis]

theorem value_lt
    {digits : List UInt8}
    (allDigits : ∀ byte ∈ digits, IsDigit byte) :
    value digits < 10 ^ digits.length := by
  induction digits using List.reverseRecOn with
  | nil => simp
  | append_singleton digits byte inductionHypothesis =>
      have shorter := inductionHypothesis fun other member =>
        allDigits other (List.mem_append_left _ member)
      have last := digitValue_lt (allDigits byte (by simp))
      rw [value_concat, List.length_append, List.length_singleton, pow_succ]
      omega

/-- Digit strings of one length are determined by their value. -/
theorem value_injective
    {left right : List UInt8}
    (leftDigits : ∀ byte ∈ left, IsDigit byte)
    (rightDigits : ∀ byte ∈ right, IsDigit byte)
    (sameLength : left.length = right.length)
    (sameValue : value left = value right) :
    left = right := by
  induction left using List.reverseRecOn generalizing right with
  | nil =>
      exact (List.eq_nil_of_length_eq_zero sameLength.symm).symm
  | append_singleton left leftLast inductionHypothesis =>
      rcases List.eq_nil_or_concat' right with rfl | ⟨right, rightLast, rfl⟩
      · simp at sameLength
      · have leftLastDigit := leftDigits leftLast (by simp)
        have rightLastDigit := rightDigits rightLast (by simp)
        have leftSmall := digitValue_lt leftLastDigit
        have rightSmall := digitValue_lt rightLastDigit
        rw [value_concat, value_concat] at sameValue
        have front : left = right := by
          apply inductionHypothesis
          · exact fun byte member => leftDigits byte (by simp [member])
          · exact fun byte member => rightDigits byte (by simp [member])
          · simpa using sameLength
          · omega
        have last : leftLast = rightLast :=
          digitValue_injective leftLastDigit rightLastDigit (by omega)
        rw [front, last]

/-! ## The canonical numeral -/

theorem toUInt8_digitChar
    {number : Nat}
    (small : number < 10) :
    (Nat.digitChar number).toUInt8 = digit number := by
  interval_cases number <;> rfl

theorem numeral_of_lt_ten
    {number : Nat}
    (small : number < 10) :
    numeral number = [digit number] := by
  rw [numeral, Nat.toDigits_of_lt_base small, List.map_singleton,
    toUInt8_digitChar small]

theorem numeral_ten_mul_add
    {front last : Nat}
    (positive : 0 < front)
    (small : last < 10) :
    numeral (10 * front + last) = numeral front ++ [digit last] := by
  rw [numeral, ← Nat.toDigits_append_toDigits (by decide) positive small,
    List.map_append, Nat.toDigits_of_lt_base small, List.map_singleton,
    toUInt8_digitChar small]
  rfl

/-- A numeral is a digit below ten, or a shorter numeral and one more digit. -/
theorem numeral_induction
    {motive : Nat → Prop}
    (single : ∀ number < 10, motive number)
    (more : ∀ front last, 0 < front → last < 10 → motive front →
      motive (10 * front + last))
    (number : Nat) : motive number := by
  induction number using Nat.strongRecOn with
  | ind number inductionHypothesis =>
      by_cases small : number < 10
      · exact single number small
      · have split : 10 * (number / 10) + number % 10 = number := by omega
        rw [← split]
        exact more _ _ (by omega) (by omega)
          (inductionHypothesis _ (by omega))

@[simp] theorem numeral_ne_nil
    (number : Nat) : numeral number ≠ [] := by
  simp [numeral]

theorem isDigit_of_mem_numeral
    {number : Nat}
    {byte : UInt8}
    (member : byte ∈ numeral number) : IsDigit byte := by
  induction number using numeral_induction with
  | single number small =>
      rw [numeral_of_lt_ten small, List.mem_singleton] at member
      rw [member]
      exact isDigit_digit small
  | more front last positive small inductionHypothesis =>
      rw [numeral_ten_mul_add positive small, List.mem_append,
        List.mem_singleton] at member
      rcases member with inFront | rfl
      · exact inductionHypothesis inFront
      · exact isDigit_digit small

@[simp] theorem value_numeral
    (number : Nat) : value (numeral number) = number := by
  induction number using numeral_induction with
  | single number small =>
      rw [numeral_of_lt_ten small]
      simpa [value] using digitValue_digit small
  | more front last positive small inductionHypothesis =>
      rw [numeral_ten_mul_add positive small, value_concat,
        inductionHypothesis, digitValue_digit small]

theorem length_numeral_le_iff
    {number width : Nat}
    (positive : 0 < width) :
    (numeral number).length ≤ width ↔ number < 10 ^ width := by
  rw [numeral, List.length_map]
  exact Nat.length_toDigits_le_iff (by decide) positive

/-- A digit string without leading zeros is the numeral of its value; in
general the numeral of a positive value is the string after its leading zeros. -/
theorem numeral_value
    {digits : List UInt8}
    (allDigits : ∀ byte ∈ digits, IsDigit byte)
    (positive : 0 < value digits) :
    numeral (value digits) = digits.dropWhile (· == 48) := by
  induction digits using List.reverseRecOn with
  | nil => simp at positive
  | append_singleton digits byte inductionHypothesis =>
      have frontDigits : ∀ other ∈ digits, IsDigit other := fun other member =>
        allDigits other (List.mem_append_left _ member)
      have last := allDigits byte (by simp)
      have small := digitValue_lt last
      rw [value_concat] at positive ⊢
      by_cases frontPositive : 0 < value digits
      · have front := inductionHypothesis frontDigits frontPositive
        have nonempty : digits.dropWhile (· == 48) ≠ [] := by
          rw [← front]
          exact numeral_ne_nil _
        rw [numeral_ten_mul_add frontPositive small, front,
          digit_digitValue last, List.dropWhile_append]
        simp [nonempty]
      · have frontZeros : digits = List.replicate digits.length 48 := by
          apply value_injective frontDigits
          · intro other member
            rw [(List.mem_replicate.mp member).2]
            decide
          · simp
          · have zeros := value_replicate_zero_append digits.length []
            rw [List.append_nil, value_nil] at zeros
            omega
        have lastNonzero : byte ≠ 48 := by
          intro equal
          rw [equal] at positive
          simp only [digitValue] at positive
          simp at positive
          omega
        have front : digits.dropWhile (· == 48) = [] := by
          rw [frontZeros, List.dropWhile_replicate]
          rfl
        rw [show value digits = 0 by omega, Nat.mul_zero, Nat.zero_add,
          numeral_of_lt_ten small, digit_digitValue last,
          List.dropWhile_append, front, List.isEmpty_nil, if_pos rfl,
          List.dropWhile_cons_of_neg (by simpa using lastNonzero)]

theorem value_dropWhile_zero
    (digits : List UInt8) :
    value (digits.dropWhile (· == 48)) = value digits := by
  induction digits with
  | nil => rfl
  | cons byte digits inductionHypothesis =>
      by_cases zero : byte = 48
      · subst zero
        rw [List.dropWhile_cons_of_pos (by simp), inductionHypothesis,
          value_zero_cons]
      · rw [List.dropWhile_cons_of_neg (by simpa using zero)]

end Decimal
end OrderTracking
