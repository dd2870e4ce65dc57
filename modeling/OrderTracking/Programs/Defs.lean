import Mathlib.Data.Finset.Sort
import OrderTracking.Display.Defs
import OrderTracking.Library.Dialogue
import OrderTracking.Wire.Defs

/-!
# The client programs

The programs of `updater_main.cpp` and `display_main.cpp`, and the login of
`client_util.cpp` they share. A program is a dialogue: it asks for a line of its
standard input, for its output to be written, and for a string to be sent to the
server or received from it. What the functions do in between is pure.
-/

namespace OrderTracking
namespace Programs

/-! ## Calls -/

/-- What a program asks of its terminal and of its connection. -/
inductive Call
  | getline
  | print (text : Bytes)
  | printError (text : Bytes)
  | connect
  | send (s : Bytes)
  | receive
  | close

/-- The answer to a call: the next line if there is one, whether the connection was
made, and whether a string was sent or received. -/
def Answer : Call → Type
  | .getline => Option Bytes
  | .print _ | .printError _ | .close => Unit
  | .connect => Bool
  | .send _ => Except Exception Unit
  | .receive => Except Exception Bytes

/-- The line `std::getline` reads from the standard input, if it is not at its end, and
what is left. A last line need not end with a newline. -/
def nextLine (cin : Bytes) : Option Bytes × Bytes :=
  if cin = [] then (none, [])
  else (some (cin.takeWhile (· ≠ '\n'.toUInt8)),
    (cin.dropWhile (· ≠ '\n'.toUInt8)).drop 1)

/-- A part of a program. -/
abbrev Talk := Dialogue Call Answer

/-- A part of a program that may throw. -/
abbrev Script := ExceptT Exception Talk

/-- How a process ends: with an exit status, by an exception nothing catches, or killed
by `SIGPIPE`, which the client programs do not ignore. -/
inductive Exit
  | status (code : Nat)
  | aborted
  | killed
  deriving DecidableEq, Repr

/-- A program up to its main loop, and a turn of the loop in a state of its
variables. -/
structure Program (σ : Type) where
  start : Talk (σ ⊕ Exit)
  loop : σ → Talk (σ ⊕ Exit)

/-- `std::getline` on the standard input. -/
def readLine : Talk (Option Bytes) :=
  .ask .getline .result

/-- Write to the standard output. -/
def print (text : Bytes) : Talk Unit :=
  .ask (.print text) .result

/-- Write to the standard error. -/
def printError (text : Bytes) : Talk Unit :=
  .ask (.printError text) .result

/-- `open_clientfd`. Returns whether there is a connection. -/
def connect : Talk Bool :=
  .ask .connect .result

/-- What `open_clientfd` may write to the standard error before it fails. The host, the
port and the texts of the errors are not known here. -/
inductive ConnectPrints : Bytes → Prop
  | nothing : ConnectPrints []
  | getaddrinfo (hostname port error : Bytes) :
      ConnectPrints (ascii "getaddrinfo failed (" ++ hostname ++ ascii ":" ++ port ++
        ascii "): " ++ error ++ ascii "\n")
  | close (error : Bytes) :
      ConnectPrints (ascii "open_clientfd: close failed: " ++ error ++ ascii "\n")

/-- Close the connection, if there is one. -/
def close : Talk Unit :=
  .ask .close .result

/-- `IO::send`. -/
def send (s : Bytes) : Script Unit :=
  ExceptT.mk (.ask (.send s) .result)

/-- `IO::receive`. -/
def receive : Script Bytes :=
  ExceptT.mk (.ask .receive .result)

/-- `Wire::encode` to an empty string. -/
def encode (msg : Message) : Script Bytes :=
  match (Wire.encode msg).run [] with
  | .ok _ out => pure out
  | .error exception _ => throw exception

/-- `Wire::decode` to a new message. -/
def decode (raw : Bytes) : Script Message :=
  match (Wire.decode raw).run .empty with
  | .ok _ msg => pure msg
  | .error exception _ => throw exception

/-- What an exception says, if it is an `Exception` of the program. -/
def what : Exception → Option String
  | .invalidMessage what | .ioException what | .protocolError what |
    .semanticError what => some what
  | .outOfRange | .invalidArgument => none

/-- The handler of an `Exception` at the end of a program. A process that ends closes
its connection in any case. -/
def handler (exception : Exception) : Talk Exit := do
  match what exception with
  | none =>
      close
      return .aborted
  | some what =>
      printError (ascii ("Error: " ++ what ++ "\n"))
      close
      return .status 1

/-! ## Requests and responses -/

/-- `sendReceive`. -/
def sendReceive (req : Message) : Script Message := do
  let out ← encode req
  send out
  let str ← receive
  decode str

/-! ## Logging in -/

/-- `inputLogin`. -/
def inputLogin : Script Bytes := do
  print (ascii "username: ")
  match ← readLine with
  | none => throw (.ioException "failed to read username")
  | some username =>
      print (ascii "password: ")
      match ← readLine with
      | none => throw (.ioException "failed to read password")
      | some password => return username ++ ascii "/" ++ password

/-- The block of `connectLogin` that may throw. Returns whether the login succeeded. -/
def tryLogin (mode : ClientMode) : Script Bool := do
  let cred ← inputLogin
  if !(← connect) then
    throw (.ioException "could not connect to server")
  else do
    let resp ← sendReceive (.ofMode .login mode cred)
    if resp.type = .error then do
      printError (ascii "Error: " ++ resp.str ++ ascii "\n")
      close
      return false
    else if resp.type ≠ .ok then do
      printError (ascii "Error: unexpected response to LOGIN\n")
      close
      return false
    else return true

/-- `connectLogin`. Returns how the process ends if it does not return. -/
def connectLogin (mode : ClientMode) : Talk (Option Exit) := do
  match ← (tryLogin mode).run with
  | .ok true => return none
  | .ok false => return some (.status 1)
  | .error exception => return some (← handler exception)

/-! ## The updater -/

/-- `result`. -/
def result (response : Message) : Script Unit :=
  if response.type = .ok then
    print (ascii "Success: " ++ response.str ++ ascii "\n")
  else if response.type = .error then
    print (ascii "Failure: " ++ response.str ++ ascii "\n")
  else throw (.protocolError "bad input")

/-- `getline`. -/
def getline : Script Bytes := do
  match ← readLine with
  | none => throw (.ioException "bad input")
  | some line => return line

/-- `getInt`. -/
def getInt : Script Int32 := do
  let line ← getline
  match Cxx.stoi line with
  | .ok number => return number
  | .error _ => throw (.ioException "not integer")

/-- The loop of `orderNew` for so many more items. -/
def addItems : Nat → Order → Script Order
  | 0, order => return order
  | count + 1, order => do
      let itemId ← getInt
      let desc ← getline
      let qty ← getInt
      addItems count (order.addItem ⟨1, itemId, .new, desc, qty⟩)

/-- `orderNew`. -/
def orderNew : Script Unit := do
  let numItems ← getInt
  let order ← addItems numItems.toInt.toNat ⟨1, .new, []⟩
  let resp ← sendReceive (.ofOrder .orderNew (some order))
  result resp

/-- `itemUpdate`. -/
def itemUpdate : Script Unit := do
  let orderId ← getInt
  let itemId ← getInt
  let statusStr ← getline
  let resp ← sendReceive
    (.ofItemStatus .itemUpdate orderId itemId (Wire.strToItemStatus statusStr))
  result resp

/-- `orderUpdate`. -/
def orderUpdate : Script Unit := do
  let orderId ← getInt
  let statusStr ← getline
  let resp ← sendReceive
    (.ofOrderStatus .orderUpdate orderId (Wire.strToOrderStatus statusStr))
  result resp

/-- `quit`. -/
def quit : Script Bool := do
  let resp ← sendReceive (.ofStr .quit (ascii "quit"))
  if resp.type ≠ .ok then
    throw (.protocolError "expected OK in response to QUIT")
  else return true

/-- One turn of the loop of `input`. Returns whether the loop is left. -/
def input : Script Bool := do
  print (ascii "> ")
  match ← readLine with
  | none => return true
  | some cmd =>
      if cmd = ascii "quit" then quit
      else if cmd = ascii "order_new" then do
        orderNew
        return false
      else if cmd = ascii "item_update" then do
        itemUpdate
        return false
      else if cmd = ascii "order_update" then do
        orderUpdate
        return false
      else return false

/-- `main` of `updater_main.cpp`, with a host and a port. -/
def updater : Program Unit where
  start := do
    match ← connectLogin .updater with
    | some exit => return .inr exit
    | none => return .inl ()
  loop := fun _ => do
    match ← input.run with
    | .ok false => return .inl ()
    | .ok true =>
        close
        return .inr (.status 0)
    | .error exception => return .inr (← handler exception)

/-! ## The display -/

/-- `CLEAR_SCREEN`. -/
def clearScreen : Bytes :=
  [0x1b] ++ ascii "[2J" ++ [0x1b] ++ ascii "[H"

/-- What `printOrder` prints for an item. -/
def itemLines (item : Item) : Bytes :=
  ascii "  Item " ++ Cxx.toString item.id ++ ascii ": " ++
    Wire.itemStatusToStr item.status ++ ascii "\n" ++
    ascii "    " ++ item.desc ++ ascii ", Quantity " ++ Cxx.toString item.qty ++ ascii "\n"

/-- What `printOrder` prints. -/
def orderLines (order : Order) : Bytes :=
  ascii "Order " ++ Cxx.toString order.id ++ ascii ": " ++
    Wire.orderStatusToStr order.status ++ ascii "\n" ++ order.visited.flatMap itemLines

/-- The keys of a `std::map` in the order in which it is traversed. -/
def sortedKeys (orders : OrderMap) : List Int32 :=
  orders.keys.sort fun left right => left ≤ right

/-- What `updateScreen` prints. -/
def screen (orders : OrderMap) : Bytes :=
  clearScreen ++ (sortedKeys orders).flatMap fun orderId =>
    match orders.lookup orderId with
    | none => []
    | some order => orderLines order

/-- One turn of the loop of `receive`. Returns the orders that are shown. -/
def showNext (orders : OrderMap) : Script OrderMap := do
  let str ← receive
  let msg ← decode str
  if msg.type = .dispHeartbeat then return orders
  else
    match (Display.receiveMessage msg).run orders with
    | .error exception _ => throw exception
    | .ok _ orders => do
        print (screen orders)
        return orders

/-- `main` of `display_main.cpp`, with a host and a port. -/
def display : Program OrderMap where
  start := do
    match ← connectLogin .display with
    | some exit => return .inr exit
    | none =>
        print clearScreen
        return .inl ∅
  loop := fun orders => do
    match ← (showNext orders).run with
    | .ok orders => return .inl orders
    | .error exception => return .inr (← handler exception)

end Programs
end OrderTracking
