import OrderTracking.Framing.Defs

/-!
# Frames are self-delimiting

`receive` returns a string exactly when the bytes that can be read begin with the
frame of the string and the string has at most 9998 bytes. However the bytes are
delivered, it consumes the frame and nothing after it. In every other case it
throws `IOException` and leaves the output string alone.
-/

namespace OrderTracking
namespace Framing

/-! ## Filling the buffer -/

/-- `read` returns bytes that could be read, at most as many as it was asked for,
and returns none only if there are none. -/
theorem read_cases
    {count : Nat}
    (positive : 0 < count)
    (infd : Input) :
    (∃ bytes rest, bytes ≠ [] ∧ bytes.length ≤ count ∧
        read count infd = (some bytes, rest) ∧
        available infd = bytes ++ available rest) ∨
      available infd = [] ∧
        ((∃ rest, read count infd = (some [], rest)) ∨
          ∃ rest, read count infd = (none, rest)) := by
  cases infd with
  | nil => exact Or.inr ⟨rfl, Or.inl ⟨[], rfl⟩⟩
  | cons delivery rest =>
      cases delivery with
      | failure => exact Or.inr ⟨rfl, Or.inr ⟨rest, rfl⟩⟩
      | chunk bytes nonempty =>
          left
          by_cases longer : count < bytes.length
          · refine ⟨bytes.take count,
              .chunk (bytes.drop count) (by simpa using longer) :: rest,
              ?_, List.length_take_le _ _, by simp [read, longer], ?_⟩
            · rw [← List.length_pos_iff, List.length_take]
              omega
            · simp only [available]
              rw [← List.append_assoc, List.take_append_drop]
          · exact ⟨bytes, rest, nonempty, by omega, by simp [read, longer], rfl⟩

/-- The loop returns the bytes it was asked for as soon as they can be read, and
throws if they cannot. -/
theorem putToBufferLoop_cases
    (byteSize : Nat)
    (buf : Bytes)
    (infd : Input)
    (fits : buf.length ≤ byteSize) :
    (∃ taken rest, buf.length + taken.length = byteSize ∧
        available infd = taken ++ available rest ∧
        putToBufferLoop byteSize buf infd = .ok (buf ++ taken) rest) ∨
      buf.length + (available infd).length < byteSize ∧
        ∃ what rest,
          putToBufferLoop byteSize buf infd = .error (.ioException what) rest := by
  induction missing : byteSize - buf.length using Nat.strongRecOn
    generalizing buf infd with
  | ind missing inductionHypothesis =>
      unfold putToBufferLoop
      by_cases unfinished : buf.length < byteSize
      · rw [if_pos unfinished]
        rcases read_cases (Nat.sub_pos_of_lt unfinished) infd with
          ⟨bytes, rest, nonempty, short, result, delivered⟩ |
            ⟨empty, ⟨rest, result⟩ | ⟨rest, result⟩⟩
        · obtain ⟨byte, bytes, rfl⟩ := List.exists_cons_of_ne_nil nonempty
          have progress : (buf ++ byte :: bytes).length =
              buf.length + (byte :: bytes).length := List.length_append
          have positive : 0 < (byte :: bytes).length := Nat.succ_pos _
          simp only [result]
          rcases inductionHypothesis (byteSize - (buf ++ byte :: bytes).length)
              (by omega) (buf ++ byte :: bytes) rest (by omega) rfl with
            ⟨taken, final, total, split, returned⟩ | ⟨short, thrown⟩
          · left
            refine ⟨(byte :: bytes) ++ taken, final, ?_, ?_, ?_⟩
            · rw [List.length_append]
              omega
            · rw [delivered, split, List.append_assoc]
            · rw [returned, List.append_assoc]
          · right
            refine ⟨?_, thrown⟩
            rw [delivered, List.length_append]
            omega
        · simp only [result, empty]
          exact Or.inr ⟨by simpa using unfinished, _, _, rfl⟩
        · simp only [result, empty]
          exact Or.inr ⟨by simpa using unfinished, _, _, rfl⟩
      · rw [if_neg unfinished]
        left
        exact ⟨[], infd, by simp; omega, rfl, by simp⟩

/-- `put_to_buffer` consumes exactly the bytes it returns. -/
theorem putToBuffer_cases
    (byteSize : Nat)
    (receiver : Receiver) :
    (∃ taken rest, taken.length = byteSize ∧
        available receiver.infd = taken ++ available rest ∧
        (putToBuffer byteSize).run receiver = .ok taken ⟨rest, receiver.s⟩) ∨
      (available receiver.infd).length < byteSize ∧
        ∃ what rest, (putToBuffer byteSize).run receiver =
          .error (.ioException what) ⟨rest, receiver.s⟩ := by
  rcases putToBufferLoop_cases byteSize [] receiver.infd (Nat.zero_le _) with
    ⟨taken, rest, total, delivered, returned⟩ | ⟨short, what, rest, thrown⟩
  · left
    refine ⟨taken, rest, by simpa using total, delivered, ?_⟩
    rw [EStateM.run, putToBuffer, returned]
    rfl
  · right
    refine ⟨by simpa using short, what, rest, ?_⟩
    rw [EStateM.run, putToBuffer, thrown]

/-! ## Headers -/

theorem ensureValidString_iff
    (message : Bytes) :
    ensureValidString message = true ↔ ∀ byte ∈ message, Decimal.IsDigit byte := by
  rw [ensureValidString, Bool.not_eq_true', List.any_eq_false]
  apply forall₂_congr
  intro byte _
  simp only [Bool.or_eq_true, decide_eq_true_eq, not_or, UInt8.not_lt]
  rfl

/-- The four digits a frame begins with. -/
def header (length : Nat) : Bytes :=
  (Decimal.numeral length).leftpad 4 '0'.toUInt8

theorem length_header
    {length : Nat}
    (small : length < 10 ^ 4) :
    (header length).length = 4 := by
  have width := (Decimal.length_numeral_le_iff (by decide)).mpr small
  rw [header, List.length_leftpad]
  omega

theorem isDigit_of_mem_header
    {length : Nat}
    {byte : UInt8}
    (member : byte ∈ header length) : Decimal.IsDigit byte := by
  rw [header, List.leftpad, List.mem_append, List.mem_replicate] at member
  rcases member with ⟨-, rfl⟩ | inNumeral
  · decide
  · exact Decimal.isDigit_of_mem_numeral inNumeral

theorem value_header (length : Nat) :
    Decimal.value (header length) = length := by
  have padded : header length =
      List.replicate (4 - (Decimal.numeral length).length) 48 ++
        Decimal.numeral length := rfl
  rw [padded, Decimal.value_replicate_zero_append, Decimal.value_numeral]

/-- Four digits are the header of their value. -/
theorem eq_header
    {message : Bytes}
    (four : message.length = 4)
    (digits : ∀ byte ∈ message, Decimal.IsDigit byte) :
    message = header (Decimal.value message) := by
  have small := Decimal.value_lt digits
  rw [four] at small
  apply Decimal.value_injective digits fun byte => isDigit_of_mem_header
  · rw [four, length_header small]
  · rw [value_header]

theorem frame_eq (s : Bytes) :
    frame s = header (s.length + 1) ++ (s ++ [10]) := by
  rw [frame, header, List.append_assoc]
  rfl

/-- `std::stoi` reads a header as its length. -/
theorem stoi_header
    {length : Nat}
    (small : length < 10 ^ 4) :
    Cxx.stoi (header length) = .ok (Int32.ofInt length) := by
  have nonempty : header length ≠ [] := by
    rw [← List.length_pos_iff, length_header small]
    decide
  rw [Cxx.stoi_of_digits nonempty fun byte => isDigit_of_mem_header, value_header,
    Cxx.intOfValue, if_pos (by omega)]

theorem toInt_ofInt_length
    {length : Nat}
    (small : length < 10 ^ 4) :
    (Int32.ofInt length).toInt = length :=
  Int32.toInt_ofInt_of_le (by omega) (by omega)

theorem toInt_ofInt_length_sub_one
    {length : Nat}
    (positive : 0 < length)
    (small : length < 10 ^ 4) :
    (Int32.ofInt length - 1).toInt = length - 1 := by
  have one : (1 : Int32) = Int32.ofInt 1 := rfl
  rw [one, ← Int32.ofInt_sub, Int32.toInt_ofInt_of_le (by omega) (by omega)]

/-! ## Receiving -/

/-- The bytes begin with the frame of a string that is not too long. -/
def Framed (bytes : Bytes) : Prop :=
  ∃ s tail, s.length ≤ 9998 ∧ bytes = frame s ++ tail

/-- Cutting framed bytes after the header. -/
theorem cut_frame
    {s message tail later : Bytes}
    (short : s.length ≤ 9998)
    (four : message.length = 4)
    (same : message ++ later = frame s ++ tail) :
    message = header (s.length + 1) ∧ later = s ++ [10] ++ tail := by
  rw [frame_eq, List.append_assoc] at same
  refine List.append_inj same ?_
  rw [four, length_header (by omega)]

/-- `receiveString` returns the string before the newline and consumes both, or
throws if the bytes do not hold them. -/
theorem receiveString_cases
    {length : Nat}
    (positive : 0 < length)
    (small : length < 10 ^ 4)
    (receiver : Receiver) :
    (∃ s rest, s.length + 1 = length ∧
        available receiver.infd = s ++ [10] ++ available rest ∧
        (receiveString (Int32.ofInt length)).run receiver = .ok () ⟨rest, s⟩) ∨
      (¬ ∃ s tail, s.length + 1 = length ∧
          available receiver.infd = s ++ [10] ++ tail) ∧
        ∃ what rest, (receiveString (Int32.ofInt length)).run receiver =
          .error (.ioException what) ⟨rest, receiver.s⟩ := by
  have count : (Int32.ofInt length).toInt.toNat = length := by
    rw [toInt_ofInt_length small, Int.toNat_natCast]
  have width : (Int32.ofInt length - 1).toInt.toNat = length - 1 := by
    rw [toInt_ofInt_length_sub_one positive small]
    omega
  simp only [receiveString, EStateM.run_bind, count, width]
  rcases putToBuffer_cases length receiver with
    ⟨message1, rest, total, delivered, returned⟩ | ⟨short, what, rest, thrown⟩
  · simp only [returned]
    by_cases newline : message1.getLast? = some '\n'.toUInt8
    · left
      obtain ⟨s, rfl⟩ := List.getLast?_eq_some_iff.mp newline
      rw [List.length_append, List.length_singleton] at total
      have strip : Cxx.substr (s ++ ['\n'.toUInt8]) 0 (length - 1) = .ok s := by
        rw [Cxx.substr_eq_ok (Nat.zero_le _), List.drop_zero, ← total,
          Nat.add_sub_cancel, List.take_left]
      refine ⟨s, rest, total, delivered, ?_⟩
      rw [if_neg (not_not.mpr newline), EStateM.run_bind, strip,
        Code.run_lift_ok]
      rfl
    · right
      constructor
      · rintro ⟨s, tail, width, same⟩
        rw [delivered] at same
        obtain ⟨rfl, -⟩ := List.append_inj same (by simp [total, width])
        exact newline List.getLast?_concat
      · rw [if_pos newline]
        exact ⟨_, rest, rfl⟩
  · right
    constructor
    · rintro ⟨s, tail, width, same⟩
      rw [same] at short
      simp only [List.length_append, List.length_singleton] at short
      omega
    · simp only [thrown]
      exact ⟨what, rest, rfl⟩

/-- `receive` on a header. -/
theorem receive_of_header
    {receiver : Receiver}
    {rest : Input}
    {length : Nat}
    (small : length < 10 ^ 4)
    (filled : (putToBuffer 4).run receiver =
      .ok (header length) ⟨rest, receiver.s⟩) :
    receive.run receiver =
      if length = 0 then
        .error (.ioException "string length is not valid") ⟨rest, receiver.s⟩
      else (receiveString (Int32.ofInt length)).run ⟨rest, receiver.s⟩ := by
  have valid : ensureValidString (header length) = true :=
    (ensureValidString_iff _).mpr fun byte => isDigit_of_mem_header
  rw [receive, EStateM.run_bind, filled]
  simp only [valid, Bool.not_true, Bool.false_eq_true, if_false]
  rw [EStateM.run_bind, stoi_header small, Code.run_lift_ok]
  by_cases zero : length = 0
  · rw [if_pos zero, zero]
    rfl
  · have notSmall : ¬ Int32.ofInt length < 1 := by
      rw [Int32.lt_iff_toInt_lt, toInt_ofInt_length small, Int32.toInt_one]
      omega
    rw [if_neg zero]
    simp only [notSmall, if_false]

/-- `receive` consumes one frame and returns its string, or throws if there is
none to be read. -/
def ReceivesOrThrows (receiver : Receiver) : Prop :=
  (∃ s rest, s.length ≤ 9998 ∧
      available receiver.infd = frame s ++ available rest ∧
      receive.run receiver = .ok () ⟨rest, s⟩) ∨
    ¬ Framed (available receiver.infd) ∧
      ∃ what rest, receive.run receiver =
        .error (.ioException what) ⟨rest, receiver.s⟩

theorem receive_cases_of_header
    {receiver : Receiver}
    {rest : Input}
    {length : Nat}
    (small : length < 10 ^ 4)
    (delivered : available receiver.infd = header length ++ available rest)
    (filled : (putToBuffer 4).run receiver =
      .ok (header length) ⟨rest, receiver.s⟩) :
    ReceivesOrThrows receiver := by
  have four : (header length).length = 4 := length_header small
  rw [ReceivesOrThrows, receive_of_header small filled]
  by_cases zero : length = 0
  · rw [if_pos zero]
    right
    refine ⟨?_, _, rest, rfl⟩
    rintro ⟨s, tail, short, framed⟩
    rw [delivered] at framed
    have same := congrArg Decimal.value (cut_frame short four framed).1
    rw [value_header, value_header] at same
    omega
  · rw [if_neg zero]
    rcases receiveString_cases (Nat.pos_of_ne_zero zero) small
        ⟨rest, receiver.s⟩ with
      ⟨s, final, total, split, returned⟩ | ⟨absent, thrown⟩
    · left
      refine ⟨s, final, by omega, ?_, returned⟩
      rw [delivered, split, frame_eq, total]
      simp only [List.append_assoc]
    · right
      refine ⟨?_, thrown⟩
      rintro ⟨s, tail, short, framed⟩
      rw [delivered] at framed
      obtain ⟨same, later⟩ := cut_frame short four framed
      have total := congrArg Decimal.value same
      rw [value_header, value_header] at total
      exact absent ⟨s, tail, total.symm, later⟩

/-- Four bytes that are not all digits are no header. -/
theorem receive_cases_of_not_digits
    {receiver : Receiver}
    {rest : Input}
    {message : Bytes}
    (four : message.length = 4)
    (notDigits : ¬ ∀ byte ∈ message, Decimal.IsDigit byte)
    (delivered : available receiver.infd = message ++ available rest)
    (filled : (putToBuffer 4).run receiver = .ok message ⟨rest, receiver.s⟩) :
    ReceivesOrThrows receiver := by
  right
  constructor
  · rintro ⟨s, tail, short, framed⟩
    rw [delivered] at framed
    rw [(cut_frame short four framed).1] at notDigits
    exact notDigits fun byte => isDigit_of_mem_header
  · have invalid : ensureValidString message = false := by
      rw [← Bool.not_eq_true, ensureValidString_iff]
      exact notDigits
    rw [receive, EStateM.run_bind, filled]
    simp only [invalid, Bool.not_false, if_true]
    exact ⟨_, rest, rfl⟩

theorem receive_cases
    (receiver : Receiver) :
    ReceivesOrThrows receiver := by
  rcases putToBuffer_cases 4 receiver with
    ⟨message, rest, four, delivered, filled⟩ | ⟨short, what, rest, thrown⟩
  · by_cases digits : ∀ byte ∈ message, Decimal.IsDigit byte
    · have isHeader := eq_header four digits
      have small := Decimal.value_lt digits
      rw [four] at small
      rw [isHeader] at delivered filled
      exact receive_cases_of_header small delivered filled
    · exact receive_cases_of_not_digits four digits delivered filled
  · right
    constructor
    · rintro ⟨s, tail, fits, framed⟩
      have four : (header (s.length + 1)).length = 4 := length_header (by omega)
      rw [framed, frame_eq] at short
      simp only [List.length_append, four] at short
      omega
    · rw [receive, EStateM.run_bind, thrown]
      exact ⟨what, rest, rfl⟩

/-- No bytes begin with the frames of two strings. -/
theorem frame_append_inj
    {left right leftTail rightTail : Bytes}
    (leftShort : left.length ≤ 9998)
    (rightShort : right.length ≤ 9998)
    (same : frame left ++ leftTail = frame right ++ rightTail) :
    left = right ∧ leftTail = rightTail := by
  have four : (header (left.length + 1)).length = 4 := length_header (by omega)
  rw [frame_eq left, List.append_assoc] at same
  obtain ⟨sameHeader, sameRest⟩ := cut_frame rightShort four same
  have sameLength := congrArg Decimal.value sameHeader
  rw [value_header, value_header] at sameLength
  obtain ⟨sameString, sameTail⟩ := List.append_inj sameRest (by simpa using sameLength)
  exact ⟨List.append_cancel_right sameString, sameTail⟩

/-- `receive` on a frame. -/
theorem receive_frame
    {s tail : Bytes}
    (short : s.length ≤ 9998)
    {receiver : Receiver}
    (framed : available receiver.infd = frame s ++ tail) :
    ∃ rest, receive.run receiver = .ok () ⟨rest, s⟩ ∧ available rest = tail := by
  rcases receive_cases receiver with
    ⟨other, rest, otherShort, delivered, returned⟩ | ⟨notFramed, -⟩
  · rw [framed] at delivered
    obtain ⟨rfl, rfl⟩ := frame_append_inj short otherShort delivered
    exact ⟨rest, returned, rfl⟩
  · exact absurd ⟨s, tail, short, framed⟩ notFramed

/-- What `receive` returns was framed at the front of the bytes. -/
theorem framed_of_receive
    {receiver : Receiver}
    {s : Bytes}
    {rest : Input}
    (returned : receive.run receiver = .ok () ⟨rest, s⟩) :
    s.length ≤ 9998 ∧ available receiver.infd = frame s ++ available rest := by
  rcases receive_cases receiver with
    ⟨other, otherRest, short, delivered, otherReturned⟩ | ⟨-, what, final, thrown⟩
  · rw [returned] at otherReturned
    cases otherReturned
    exact ⟨short, delivered⟩
  · rw [returned] at thrown
    cases thrown

/-- The first so many bytes are consumed and the others can still be read. -/
def Consumes (count : Nat) (infd rest : Input) : Prop :=
  ∃ taken, taken.length = count ∧ available infd = taken ++ available rest

/-- The first so many bytes are the frame of a string that is not too long. -/
def FrameAt (bytes s : Bytes) (count : Nat) : Prop :=
  count ≤ bytes.length ∧ bytes.take count = frame s ∧ s.length ≤ 9998

theorem receive_iff_frameAt
    (receiver : Receiver)
    (s : Bytes)
    (count : Nat) :
    (∃ rest, receive.run receiver = .ok () ⟨rest, s⟩ ∧
        Consumes count receiver.infd rest) ↔
      FrameAt (available receiver.infd) s count := by
  constructor
  · rintro ⟨rest, returned, taken, rfl, delivered⟩
    obtain ⟨short, framed⟩ := framed_of_receive returned
    rw [delivered] at framed
    have isFrame := List.append_cancel_right framed
    refine ⟨?_, ?_, short⟩
    · rw [delivered, List.length_append]
      omega
    · rw [delivered, List.take_left, isFrame]
  · rintro ⟨enough, isFrame, short⟩
    have framed : available receiver.infd =
        frame s ++ (available receiver.infd).drop count := by
      rw [← isFrame, List.take_append_drop]
    obtain ⟨rest, returned, remaining⟩ := receive_frame short framed
    refine ⟨rest, returned, frame s, ?_, ?_⟩
    · rw [← isFrame, List.length_take, Nat.min_eq_left enough]
    · rw [remaining]
      exact framed

theorem receive_throws
    (receiver : Receiver)
    (absent : ¬ ∃ s count, FrameAt (available receiver.infd) s count) :
    ∃ what rest, receive.run receiver =
      .error (.ioException what) ⟨rest, receiver.s⟩ := by
  rcases receive_cases receiver with
    ⟨s, rest, short, delivered, returned⟩ | ⟨-, thrown⟩
  · refine absurd ⟨s, (frame s).length, ?_, ?_, short⟩ absent
    · rw [delivered, List.length_append]
      omega
    · rw [delivered, List.take_left]
  · exact thrown

/-! ## Sending and receiving several strings -/

@[simp] theorem send_run
    (s out : Bytes) :
    (send s).run out = .ok () (out ++ frame s) := by
  simp [send, rioWriten]

/-- Sending strings one after the other writes their frames. -/
theorem forM_send_run
    (strings : List Bytes)
    (out : Bytes) :
    (strings.forM send).run out = .ok () (out ++ strings.flatMap frame) := by
  induction strings generalizing out with
  | nil => simp
  | cons s strings inductionHypothesis =>
      have later := inductionHypothesis (out ++ frame s)
      rw [List.forM_eq_forM] at later
      simp [later]

/-- Call `receive` so many times. -/
def receiveTimes : Nat → Code Receiver (List Bytes)
  | 0 => pure []
  | count + 1 => do
      receive
      let s := (← get).s
      let others ← receiveTimes count
      return s :: others

/-- Receiving frames returns their strings in order. -/
theorem receiveTimes_frames
    {strings : List Bytes}
    (short : ∀ s ∈ strings, s.length ≤ 9998)
    {tail : Bytes}
    {receiver : Receiver}
    (framed : available receiver.infd = strings.flatMap frame ++ tail) :
    ∃ final, (receiveTimes strings.length).run receiver = .ok strings final ∧
      available final.infd = tail := by
  induction strings generalizing receiver with
  | nil => exact ⟨receiver, rfl, framed⟩
  | cons s strings inductionHypothesis =>
      rw [List.flatMap_cons, List.append_assoc] at framed
      obtain ⟨rest, returned, remaining⟩ :=
        receive_frame (short s List.mem_cons_self) framed
      have next : available (Receiver.mk rest s).infd =
          strings.flatMap frame ++ tail := remaining
      obtain ⟨final, others, left⟩ := inductionHypothesis
        (fun other member => short other (List.mem_cons_of_mem _ member)) next
      refine ⟨final, ?_, left⟩
      simp only [List.length_cons, receiveTimes, EStateM.run_bind, returned,
        EStateM.run_get, others, EStateM.run_pure]

/-- Framing is an exact, self-delimiting code. `receive` returns a string and
consumes so many bytes exactly when these are the frame of the string and the
string has at most 9998 bytes; else it throws `IOException` and leaves the output
string alone. Strings sent one after the other are received one after the other,
and a longer string is never received. -/
theorem framing_exact :
    (∀ receiver : Receiver,
      (∀ s count, (∃ rest, receive.run receiver = .ok () ⟨rest, s⟩ ∧
          Consumes count receiver.infd rest) ↔
        FrameAt (available receiver.infd) s count) ∧
      ((¬ ∃ s count, FrameAt (available receiver.infd) s count) →
        ∃ what rest, receive.run receiver =
          .error (.ioException what) ⟨rest, receiver.s⟩)) ∧
    (∀ strings : List Bytes, (∀ s ∈ strings, s.length ≤ 9998) →
      ∃ written, (∀ out, (strings.forM send).run out = .ok () (out ++ written)) ∧
        ∀ receiver tail, available receiver.infd = written ++ tail →
          ∃ final, (receiveTimes strings.length).run receiver = .ok strings final ∧
            available final.infd = tail) ∧
    ∀ s : Bytes, 9998 < s.length →
      ∀ receiver rest, receive.run receiver ≠ .ok () ⟨rest, s⟩ := by
  refine ⟨fun receiver => ⟨receive_iff_frameAt receiver, receive_throws receiver⟩,
    ?_, ?_⟩
  · intro strings short
    exact ⟨strings.flatMap frame, forM_send_run strings,
      fun receiver tail framed => receiveTimes_frames short framed⟩
  · intro s long receiver rest returned
    have short := (framed_of_receive returned).1
    omega

end Framing
end OrderTracking
