import OrderTracking.Library.Decimal
import Mathlib.Data.Int.Basic
import Mathlib.Data.List.TakeWhile

/-!
# The C++ the program is written in

Strings are sequences of bytes, `int` is a 32-bit two's complement integer, and
a function that mutates an object or an output parameter may throw after some of
its mutations have taken effect. The functions of the standard library that the
program calls are modelled by their documented behaviour.
-/

namespace OrderTracking

/-- A `std::string`. -/
abbrev Bytes := List UInt8

/-- The bytes of a string literal. -/
def ascii (text : String) : Bytes :=
  text.toList.map fun char => char.toUInt8

/-- The exceptions the program throws, and the two of the standard library that
its calls can raise. -/
inductive Exception
  | invalidMessage (what : String)
  | ioException (what : String)
  | protocolError (what : String)
  | semanticError (what : String)
  | outOfRange
  | invalidArgument
  deriving DecidableEq, Repr

/-- Code that mutates a state and may throw. The mutations made before a throw
persist. -/
abbrev Code (σ : Type) := EStateM Exception σ

/-- Run code that mutates nothing inside code that does. -/
def Code.lift
    (result : Except Exception α) : Code σ α :=
  match result with
  | .ok value => pure value
  | .error exception => throw exception

instance : MonadLift (Except Exception) (Code σ) := ⟨Code.lift⟩

@[simp] theorem Code.run_lift_ok
    (value : α)
    (state : σ) :
    (liftM (.ok value : Except Exception α) : Code σ α).run state =
      .ok value state := rfl

@[simp] theorem Code.run_lift_error
    (exception : Exception)
    (state : σ) :
    (liftM (.error exception : Except Exception α) : Code σ α).run state =
      .error exception state := rfl

/-- Code that continues with other code returns when both return. -/
theorem Code.run_bind_eq_ok
    {first : Code σ α}
    {next : α → Code σ β}
    {value : β}
    {state final : σ} :
    (first >>= next).run state = .ok value final ↔
      ∃ result middle, first.run state = .ok result middle ∧
        (next result).run middle = .ok value final := by
  rw [EStateM.run_bind]
  cases first.run state with
  | error exception middle => simp
  | ok result middle => simp

/-- Every `std::exception` a fallible computation raises is an `InvalidMessage`. -/
def OnlyInvalidMessage
    (result : Except Exception α) : Prop :=
  ∀ exception, result = .error exception →
    ∃ what, exception = .invalidMessage what

@[simp] theorem onlyInvalidMessage_ok
    (value : α) :
    OnlyInvalidMessage (.ok value) := by
  intro exception equal
  cases equal

@[simp] theorem onlyInvalidMessage_invalidMessage
    (what : String) :
    OnlyInvalidMessage (.error (.invalidMessage what) : Except Exception α) := by
  intro exception equal
  cases equal
  exact ⟨what, rfl⟩

theorem OnlyInvalidMessage.bind
    {result : Except Exception α}
    {next : α → Except Exception β}
    (first : OnlyInvalidMessage result)
    (second : ∀ value, result = .ok value → OnlyInvalidMessage (next value)) :
    OnlyInvalidMessage (result >>= next) := by
  cases result with
  | error exception =>
      obtain ⟨what, rfl⟩ := first exception rfl
      exact onlyInvalidMessage_invalidMessage what
  | ok value => exact second value rfl

@[simp] theorem ok_bind
    (value : α)
    (next : α → Except Exception β) :
    (Except.ok value >>= next) = next value := (rfl)

@[simp] theorem error_bind
    (exception : Exception)
    (next : α → Except Exception β) :
    (Except.error exception >>= next) = .error exception := (rfl)

theorem bind_eq_ok
    {result : Except Exception α}
    {next : α → Except Exception β}
    {final : β} :
    result >>= next = .ok final ↔
      ∃ value, result = .ok value ∧ next value = .ok final := by
  cases result with
  | error exception => simp
  | ok value => simp

namespace Cxx

/-- `std::string::find`: the first occurrence of a character at or after a
position. -/
def find (s : Bytes) (char : UInt8) (pos : Nat) : Option Nat :=
  ((s.drop pos).findIdx? (· == char)).map (pos + ·)

/-- `std::string::substr` with both arguments. -/
def substr (s : Bytes) (pos count : Nat) : Except Exception Bytes :=
  if s.length < pos then .error .outOfRange
  else .ok ((s.drop pos).take count)

/-- `std::string::substr` with the position only. -/
def substrFrom (s : Bytes) (pos : Nat) : Except Exception Bytes :=
  if s.length < pos then .error .outOfRange
  else .ok (s.drop pos)

theorem find_eq_none_iff
    {s : Bytes}
    {char : UInt8}
    {pos : Nat} :
    find s char pos = none ↔ char ∉ s.drop pos := by
  rw [find, Option.map_eq_none_iff, List.findIdx?_eq_none_iff]
  constructor
  · intro absent member
    simpa using absent char member
  · intro absent other member
    simpa using fun equal : other = char => absent (equal ▸ member)

/-- Where `find` stops: the character is there and not before. -/
theorem find_eq_some
    {s : Bytes}
    {char : UInt8}
    {pos found : Nat}
    (result : find s char pos = some found) :
    pos ≤ found ∧ found < s.length ∧
      char ∉ (s.drop pos).take (found - pos) ∧
      s.drop pos = (s.drop pos).take (found - pos) ++ char :: s.drop (found + 1) := by
  rw [find, Option.map_eq_some_iff] at result
  obtain ⟨index, first, rfl⟩ := result
  rw [List.findIdx?_eq_some_iff_getElem] at first
  obtain ⟨inside, equal, before⟩ := first
  rw [List.length_drop] at inside
  rw [Nat.add_sub_cancel_left]
  refine ⟨by omega, by omega, ?_, ?_⟩
  · intro member
    obtain ⟨earlier, small, sameChar⟩ := List.mem_take_iff_getElem.mp member
    have different := before earlier (by omega)
    rw [sameChar] at different
    simp at different
  · have tail : s.drop (pos + index + 1) = (s.drop pos).drop (index + 1) := by
      rw [List.drop_drop, Nat.add_assoc]
    have insideDrop : index < (s.drop pos).length := by
      rwa [List.length_drop]
    have head : (s.drop pos)[index] = char := by
      simpa using equal
    rw [tail, ← head, List.getElem_cons_drop, List.take_append_drop]

/-- `find` from the start of a piece that lacks the character stops at its end. -/
theorem find_append
    {char : UInt8}
    {piece : Bytes}
    (lacks : char ∉ piece)
    (before after : Bytes) :
    find (before ++ piece ++ [char] ++ after) char before.length =
      some (before.length + piece.length) := by
  have dropped : (before ++ piece ++ [char] ++ after).drop before.length =
      piece ++ char :: after := by
    simp
  rw [find, dropped, Option.map_eq_some_iff]
  refine ⟨piece.length, ?_, rfl⟩
  rw [List.findIdx?_eq_some_iff_getElem]
  refine ⟨by simp, by simp, ?_⟩
  intro index inside
  rw [List.getElem_append_left inside]
  simp only [beq_iff_eq]
  intro equal
  exact lacks (equal ▸ List.getElem_mem inside)

theorem substr_eq_ok
    {s : Bytes}
    {pos count : Nat}
    (inside : pos ≤ s.length) :
    substr s pos count = .ok ((s.drop pos).take count) :=
  if_neg (by omega)

theorem substrFrom_eq_ok
    {s : Bytes}
    {pos : Nat}
    (inside : pos ≤ s.length) :
    substrFrom s pos = .ok (s.drop pos) :=
  if_neg (by omega)

/-- `std::to_string` of an `int`. -/
def toString (number : Int32) : Bytes :=
  if number < 0 then 45 :: Decimal.numeral number.toInt.natAbs
  else Decimal.numeral number.toInt.natAbs

/-- `std::isspace` in the default locale. -/
def isSpace (char : UInt8) : Bool :=
  char == 32 || (9 ≤ char && char ≤ 13)

/-- The `int` with the given value, when there is one. -/
def intOfValue (number : Int) : Except Exception Int32 :=
  if -2 ^ 31 ≤ number ∧ number < 2 ^ 31 then .ok (Int32.ofInt number)
  else .error .outOfRange

/-- The digits at the front of a string, read as a number. -/
def leadingNumber (s : Bytes) : Except Exception Nat :=
  let digits := s.takeWhile fun char => Decimal.IsDigit char
  if digits = [] then .error .invalidArgument
  else .ok (Decimal.value digits)

/-- `std::stoi` in base ten: leading whitespace, an optional sign, digits, and
anything after them. -/
def stoi (s : Bytes) : Except Exception Int32 := do
  let rest := s.dropWhile isSpace
  if rest.head? = some 45 then intOfValue (-(← leadingNumber rest.tail))
  else if rest.head? = some 43 then intOfValue (← leadingNumber rest.tail)
  else intOfValue (← leadingNumber rest)

theorem leadingNumber_of_digits
    {s : Bytes}
    (nonempty : s ≠ [])
    (digits : ∀ char ∈ s, Decimal.IsDigit char) :
    leadingNumber s = .ok (Decimal.value s) := by
  have whole : s.takeWhile (fun char => Decimal.IsDigit char) = s := by
    rw [List.takeWhile_eq_self_iff]
    simpa using digits
  simp [leadingNumber, whole, nonempty]

/-- On a string of digits `std::stoi` returns its value if an `int` can hold it. -/
theorem stoi_of_digits
    {s : Bytes}
    (nonempty : s ≠ [])
    (digits : ∀ char ∈ s, Decimal.IsDigit char) :
    stoi s = intOfValue (Decimal.value s) := by
  obtain ⟨head, tail, rfl⟩ := List.exists_cons_of_ne_nil nonempty
  have headDigit := digits head List.mem_cons_self
  rw [Decimal.isDigit_iff_toNat] at headDigit
  have notSpace : isSpace head = false := by
    simp only [isSpace, Bool.or_eq_false_iff, beq_eq_false_iff_ne,
      Bool.and_eq_false_iff, decide_eq_false_iff_not, UInt8.not_le,
      UInt8.lt_iff_toNat_lt]
    refine ⟨?_, Or.inr (by simp; omega)⟩
    rintro rfl
    simp at headDigit
  have skipped : (head :: tail).dropWhile isSpace = head :: tail := by
    rw [List.dropWhile_cons_of_neg (by simp [notSpace])]
  have notMinus : (head :: tail).head? ≠ some 45 := by
    rw [List.head?_cons, ne_eq, Option.some.injEq]
    rintro rfl
    simp at headDigit
  have notPlus : (head :: tail).head? ≠ some 43 := by
    rw [List.head?_cons, ne_eq, Option.some.injEq]
    rintro rfl
    simp at headDigit
  rw [stoi, skipped]
  simp only [if_neg notMinus, if_neg notPlus,
    leadingNumber_of_digits nonempty digits, ok_bind]

/-! ## The length of numerals -/

theorem length_toString_le (number : Int32) : (toString number).length ≤ 11 := by
  have bound : number.toInt.natAbs < 10 ^ 10 := by
    have lower := number.le_toInt
    have upper := number.toInt_lt
    omega
  have digits := (Decimal.length_numeral_le_iff (by decide)).mpr bound
  rw [toString]
  split
  · rw [List.length_cons]
    omega
  · omega

/-! ## Numerals of positive numbers -/

theorem toString_of_pos
    {number : Int32}
    (positive : 1 ≤ number) :
    toString number = Decimal.numeral number.toInt.toNat := by
  rw [Int32.le_iff_toInt_le] at positive
  have one : (1 : Int32).toInt = 1 := by decide
  have notNegative : ¬ number < 0 := by
    rw [Int32.lt_iff_toInt_lt]
    have zero : (0 : Int32).toInt = 0 := by decide
    omega
  rw [toString, if_neg notNegative]
  congr 1
  omega

/-- A number below one does not print as a positive numeral. -/
theorem toString_of_not_pos
    {number : Int32}
    (small : ¬ 1 ≤ number) :
    toString number = [48] ∨ ∃ rest, toString number = 45 :: rest := by
  by_cases negative : number < 0
  · right
    exact ⟨_, by rw [toString, if_pos negative]⟩
  · left
    rw [Int32.le_iff_toInt_le] at small
    rw [Int32.lt_iff_toInt_lt] at negative
    have one : (1 : Int32).toInt = 1 := by decide
    have zero : (0 : Int32).toInt = 0 := by decide
    have isZero : number.toInt.natAbs = 0 := by omega
    rw [toString, if_neg (by rwa [Int32.lt_iff_toInt_lt]), isZero]
    rfl

end Cxx
end OrderTracking
