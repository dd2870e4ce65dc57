import OrderTracking.Cxx

/-!
# Sending and receiving strings

The functions of `io.cpp`. What a file descriptor delivers is a list of
deliveries: each `read` returns bytes of the first one only, at most as many as
it was asked for, and a failure makes it return -1. After the last delivery comes
the end of the file. `rio_writen` is taken to write all bytes it is given.
-/

namespace OrderTracking
namespace Framing

/-- What one or more calls of `read` obtain from a file descriptor. -/
inductive Delivery
  | chunk (bytes : Bytes) (nonempty : bytes ≠ [])
  | failure

/-- Everything a file descriptor delivers before the end of the file. -/
abbrev Input := List Delivery

/-- The bytes that can be read before a failure or the end of the file. -/
def available : Input → Bytes
  | [] => []
  | .chunk bytes _ :: rest => bytes ++ available rest
  | .failure :: _ => []

/-- `read` for a positive number of bytes: the bytes read, or nothing on error. -/
def read (count : Nat) : Input → Option Bytes × Input
  | [] => (some [], [])
  | .failure :: rest => (none, rest)
  | .chunk bytes nonempty :: rest =>
      if longer : count < bytes.length then
        (some (bytes.take count),
          .chunk (bytes.drop count) (by simpa using longer) :: rest)
      else (some bytes, rest)

/-- The loop of `put_to_buffer`, with the bytes put into the buffer so far. -/
def putToBufferLoop (byteSize : Nat) (buf : Bytes) (infd : Input) :
    EStateM.Result Exception Input Bytes :=
  if buf.length < byteSize then
    match read (byteSize - buf.length) infd with
    | (some [], rest) => .error (.ioException "file ended early") rest
    | (none, rest) => .error (.ioException "invalid character, read error") rest
    | (some (byte :: bytes), rest) =>
        putToBufferLoop byteSize (buf ++ byte :: bytes) rest
  else .ok buf infd
termination_by byteSize - buf.length
decreasing_by
  rw [List.length_append, List.length_cons]
  omega

/-- What `IO::receive` reads from and writes to. -/
structure Receiver where
  infd : Input
  s : Bytes

/-- Put bytes from the file descriptor into a buffer. -/
def putToBuffer (byteSize : Nat) : Code Receiver Bytes := fun receiver =>
  match putToBufferLoop byteSize [] receiver.infd with
  | .ok buf rest => .ok buf { receiver with infd := rest }
  | .error exception rest => .error exception { receiver with infd := rest }

/-- Ensure that all four characters are digits. -/
def ensureValidString (message : Bytes) : Bool :=
  !message.any fun c => c < '0'.toUInt8 || c > '9'.toUInt8

/-- `IO::receive` once the length is known. -/
def receiveString (myLength : Int32) : Code Receiver Unit := do
  let message1 ← putToBuffer myLength.toInt.toNat
  if message1.getLast? ≠ some '\n'.toUInt8 then
    throw (.ioException "missing terminating newline")
  else
    let s ← Cxx.substr message1 0 (myLength - 1).toInt.toNat
    modify fun receiver => { receiver with s := s }

/-- `IO::receive`. -/
def receive : Code Receiver Unit := do
  let message ← putToBuffer 4
  if !ensureValidString message then
    throw (.ioException "string is not valid")
  else
    let myLength ← Cxx.stoi message
    if myLength < 1 then
      throw (.ioException "string length is not valid")
    else
      receiveString myLength

/-- Write all bytes to a file descriptor. -/
def rioWriten (bytes : Bytes) : Code Bytes Nat := do
  modify (· ++ bytes)
  return bytes.length

/-- The bytes `IO::send` writes for a string: its length with the newline, at
least four digits wide, the string and the newline. -/
def frame (s : Bytes) : Bytes :=
  (Decimal.numeral (s.length + 1)).leftpad 4 '0'.toUInt8 ++ s ++ ['\n'.toUInt8]

/-- `IO::send`, in the state of the bytes written to the file descriptor. -/
def send (s : Bytes) : Code Bytes Unit := do
  let myFrame := frame s
  let written ← rioWriten myFrame
  if written ≠ myFrame.length then
    throw (.ioException "written frame size does not match expected frame size")
  else pure ()

end Framing
end OrderTracking
