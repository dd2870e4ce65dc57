import OrderTracking.Programs.Lines

/-!
# Reasoning about the programs

What a program has done is noted down: what is left of its standard input, what it has
written, and the strings it has sent and received. A rule for each call and for the
functions that read the terminal or exchange a request for a response, for any
permissions of the calls and any replies of the server.
-/

namespace OrderTracking
namespace Programs

/-- The whole standard input and what is left of it, what was written, whether there is a
connection, and the strings sent to the server and received from it. -/
structure Notes where
  typed : Bytes
  cin : Bytes
  cout : Bytes
  cerr : Bytes
  linked : Bool
  sent : List Bytes
  received : List Bytes

/-- What `IO::send` throws when the connection fails. -/
abbrev unsent : Exception :=
  .ioException "written frame size does not match expected frame size"

/-- What `IO::receive` throws when the connection ends or fails. What it throws at the
bytes it has read is not among this. -/
inductive Unreceived : Exception → Prop
  | ended : Unreceived (.ioException "file ended early")
  | failed : Unreceived (.ioException "invalid character, read error")

theorem Unreceived.what
    {exception : Exception}
    (unreceived : Unreceived exception) :
    ∃ blame, what exception = some blame := by
  cases unreceived with
  | ended => exact ⟨_, rfl⟩
  | failed => exact ⟨_, rfl⟩

/-- The answers of a terminal and of a connection whose server sends only such replies, in
whole frames. -/
inductive Hears (replies : Notes → Bytes → Prop) :
    (call : Call) → Notes → Answer call → Notes → Prop
  | getline (notes : Notes) :
      Hears replies .getline notes (nextLine notes.cin).1
        { notes with cin := (nextLine notes.cin).2 }
  | print (text : Bytes) (notes : Notes) :
      Hears replies (.print text) notes () { notes with cout := notes.cout ++ text }
  | printError (text : Bytes) (notes : Notes) :
      Hears replies (.printError text) notes () { notes with cerr := notes.cerr ++ text }
  | connected (notes : Notes) :
      Hears replies .connect notes true { notes with linked := true }
  | unconnected (text : Bytes) (notes : Notes)
      (prints : ConnectPrints text) :
      Hears replies .connect notes false { notes with cerr := notes.cerr ++ text }
  | sent (s : Bytes) (notes : Notes) :
      Hears replies (.send s) notes (.ok ()) { notes with sent := notes.sent ++ [s] }
  | sendFailed (s : Bytes) (notes : Notes) :
      Hears replies (.send s) notes (.error unsent) notes
  | received (s : Bytes) (notes : Notes)
      (reply : replies notes s) :
      Hears replies .receive notes (.ok s) { notes with received := notes.received ++ [s] }
  | receiveFailed (exception : Exception) (notes : Notes)
      (unreceived : Unreceived exception) :
      Hears replies .receive notes (.error exception) notes
  | close (notes : Notes) :
      Hears replies .close notes () notes

/-- More is heard where more replies are expected. -/
theorem Hears.mono
    {replies expected : Notes → Bytes → Prop}
    (weakens : ∀ notes s, replies notes s → expected notes s)
    {call : Call}
    {notes later : Notes}
    {answer : Answer call}
    (heard : Hears replies call notes answer later) :
    Hears expected call notes answer later := by
  cases heard with
  | getline => exact .getline notes
  | print text => exact .print text notes
  | printError text => exact .printError text notes
  | connected => exact .connected notes
  | unconnected text _ prints => exact .unconnected text notes prints
  | sent s => exact .sent s notes
  | sendFailed s => exact .sendFailed s notes
  | received s _ reply => exact .received s notes (weakens notes s reply)
  | receiveFailed exception _ unreceived => exact .receiveFailed exception notes unreceived
  | close => exact .close notes

/-- Whatever a program does, its standard input does not grow. -/
theorem Hears.length_cin_le
    {replies : Notes → Bytes → Prop}
    {call : Call}
    {notes later : Notes}
    {answer : Answer call}
    (heard : Hears replies call notes answer later) :
    later.cin.length ≤ notes.cin.length := by
  cases heard with
  | getline => exact length_rest_le rfl
  | _ => exact le_refl _

theorem ensures_length_cin_le
    {replies : Notes → Bytes → Prop}
    (talk : Talk α)
    (notes : Notes) :
    talk.Ensures (fun _ _ => True) (Hears replies)
      (fun _ later => later.cin.length ≤ notes.cin.length) notes := by
  induction talk generalizing notes with
  | result value => exact le_refl _
  | ask call next inductionHypothesis =>
      refine ⟨trivial, fun answer later heard => ?_⟩
      refine (inductionHypothesis answer later).mono fun value last shorter => ?_
      exact shorter.trans heard.length_cin_le

/-- Nothing but the standard input has changed. -/
def OnlyRead (notes later : Notes) : Prop :=
  ∃ cin, later = { notes with cin := cin }

theorem OnlyRead.refl (notes : Notes) : OnlyRead notes notes :=
  ⟨notes.cin, rfl⟩

theorem OnlyRead.trans
    {notes later last : Notes}
    (first : OnlyRead notes later)
    (second : OnlyRead later last) :
    OnlyRead notes last := by
  obtain ⟨cin, rfl⟩ := first
  obtain ⟨rest, rfl⟩ := second
  exact ⟨rest, rfl⟩

/-- Why `getline` or `getInt` throws, with what is left of the standard input: it is at its
end, or the line read last is no number. -/
inductive InputFails : Exception → Bytes → Prop
  | ended : InputFails (.ioException "bad input") []
  | noNumber (cin line rest : Bytes) (reason : Exception)
      (next : nextLine cin = (some line, rest))
      (invalid : Cxx.stoi line = .error reason) :
      InputFails (.ioException "not integer") rest

theorem InputFails.what
    {exception : Exception}
    {cin : Bytes}
    (fails : InputFails exception cin) :
    ∃ blame, what exception = some blame := by
  cases fails with
  | ended => exact ⟨_, rfl⟩
  | noNumber => exact ⟨_, rfl⟩

section Rules

variable (permits : Call → Notes → Prop) (replies : Notes → Bytes → Prop)

/-- The script ends or throws as required, whatever the answers. -/
abbrev Ends (script : Script α) (required : Except Exception α → Notes → Prop)
    (notes : Notes) : Prop :=
  script.run.Ensures permits (Hears replies) required notes

/-- Reading may go on: the calls that read the standard input stay permitted. -/
def MayRead (notes : Notes) : Prop :=
  ∀ later, OnlyRead notes later → permits .getline later

/-- A script that only reads returns such a value, or throws because of what it reads. -/
def Reads (script : Script α) (property : α → Prop) : Prop :=
  ∀ notes, MayRead permits notes →
    Ends permits replies script (fun result later => OnlyRead notes later ∧
      match result with
      | .ok value => property value
      | .error exception => InputFails exception later.cin) notes

/-- Why a request has no response, and what has been done for it: it cannot be encoded, it
was not sent, or nothing was received. -/
inductive ExchangeFails (req : Message) (notes : Notes) : Exception → Notes → Prop
  | unencoded (out : Bytes)
      (fails : (Wire.encode req).run [] =
        .error (.invalidMessage "Order cannot be empty") out) :
      ExchangeFails req notes (.invalidMessage "Order cannot be empty") notes
  | unsent (out : Bytes)
      (encodes : (Wire.encode req).run [] = .ok () out) :
      ExchangeFails req notes unsent notes
  | unreceived (exception : Exception) (out : Bytes)
      (encodes : (Wire.encode req).run [] = .ok () out)
      (unreceived : Unreceived exception) :
      ExchangeFails req notes exception { notes with sent := notes.sent ++ [out] }

/-- An exchange that does not fail ends with the decoded reply to the request. -/
def Exchanged (req : Message) (notes : Notes) (result : Except Exception Message)
    (later : Notes) : Prop :=
  match result with
  | .ok resp => ∃ out s, (Wire.encode req).run [] = .ok () out ∧
      replies { notes with sent := notes.sent ++ [out] } s ∧
      (Wire.decode s).run .empty = .ok () resp ∧
      later = { notes with sent := notes.sent ++ [out], received := notes.received ++ [s] }
  | .error exception => ExchangeFails req notes exception later

variable {permits replies}
variable {notes : Notes}

theorem MayRead.later
    {later : Notes}
    (mayRead : MayRead permits notes)
    (read : OnlyRead notes later) :
    MayRead permits later :=
  fun last further => mayRead last (read.trans further)

/-- What follows a script that only reads. -/
theorem Reads.bind
    {script : Script α}
    {property : α → Prop}
    (reads : Reads permits replies script property)
    {rest : α → Script β}
    {required : Except Exception β → Notes → Prop}
    (mayRead : MayRead permits notes)
    (thrown : ∀ exception later, InputFails exception later.cin → OnlyRead notes later →
      required (.error exception) later)
    (next : ∀ value later, property value → OnlyRead notes later →
      Ends permits replies (rest value) required later) :
    Ends permits replies (script >>= rest) required notes := by
  apply Dialogue.Ensures.bind_except
  refine (reads notes mayRead).mono ?_
  rintro (exception | value) later ⟨read, holds⟩
  · exact thrown exception later holds read
  · exact next value later holds read

/-- A script that only reads followed by another one. -/
theorem Reads.bindReads
    {script : Script α}
    {property : α → Prop}
    (reads : Reads permits replies script property)
    {rest : α → Script β}
    {last : β → Prop}
    (next : ∀ value, property value → Reads permits replies (rest value) last) :
    Reads permits replies (script >>= rest) last := by
  intro notes mayRead
  refine reads.bind mayRead (fun exception later fails read => ⟨read, fails⟩) ?_
  intro value later holds read
  refine (next value holds later (mayRead.later read)).mono ?_
  exact fun result final ⟨further, holds⟩ => ⟨read.trans further, holds⟩

theorem reads_pure
    {value : α}
    {property : α → Prop}
    (holds : property value) :
    Reads permits replies (pure value) property :=
  fun notes _ => ⟨.refl notes, holds⟩

/-- `getline` returns the next line. -/
theorem ends_getline
    (mayRead : MayRead permits notes) :
    Ends permits replies getline (fun result later => OnlyRead notes later ∧
      match result with
      | .ok line => nextLine notes.cin = (some line, later.cin)
      | .error exception => InputFails exception later.cin) notes := by
  refine Dialogue.Ensures.bind ⟨mayRead notes (.refl notes), ?_⟩
  rintro answer later ⟨⟩
  cases next : nextLine notes.cin with
  | mk line rest =>
      cases line with
      | none =>
          obtain rfl := nextLine_eq_none next
          exact ⟨⟨_, rfl⟩, .ended⟩
      | some line => exact ⟨⟨_, rfl⟩, rfl⟩

theorem reads_getline : Reads permits replies getline IsLine := by
  intro notes mayRead
  refine (ends_getline mayRead).mono ?_
  rintro (exception | line) later ⟨read, holds⟩
  · exact ⟨read, holds⟩
  · exact ⟨read, isLine_of_nextLine holds⟩

theorem reads_getInt : Reads permits replies getInt fun _ => True := by
  intro notes mayRead
  apply Dialogue.Ensures.bind_except
  refine (ends_getline mayRead).mono ?_
  rintro (exception | line) later ⟨read, holds⟩
  · exact ⟨read, holds⟩
  · dsimp only
    cases number : Cxx.stoi line with
    | ok number => exact ⟨read, trivial⟩
    | error reason => exact ⟨read, .noNumber _ line _ reason holds number⟩

/-- The items an order gets have descriptions that are lines. -/
theorem reads_addItems
    (count : Nat)
    (order : Order)
    (lines : ∀ item ∈ order.items, IsLine item.desc) :
    Reads permits replies (addItems count order)
      fun final => ∀ item ∈ final.items, IsLine item.desc := by
  induction count generalizing order with
  | zero => exact reads_pure lines
  | succ count inductionHypothesis =>
      refine reads_getInt.bindReads fun itemId _ => ?_
      refine reads_getline.bindReads fun desc line => ?_
      refine reads_getInt.bindReads fun qty _ => ?_
      apply inductionHypothesis
      intro item member
      rcases List.mem_append.mp member with old | new
      · exact lines item old
      · rw [List.mem_singleton.mp new]
        exact line

theorem encode_of_run
    {msg : Message}
    {out : Bytes}
    (encodes : (Wire.encode msg).run [] = .ok () out) :
    encode msg = pure out := by
  unfold encode
  rw [encodes]

theorem decode_of_run
    {raw : Bytes}
    {msg : Message}
    (decodes : (Wire.decode raw).run .empty = .ok () msg) :
    decode raw = pure msg := by
  unfold decode
  rw [decodes]

/-- `sendReceive` for a request made of lines, when every reply can be decoded. -/
theorem ends_sendReceive
    {req : Message}
    (ofLines : OfLines req)
    (maySend : ∀ out, (Wire.encode req).run [] = .ok () out → IsLine out →
      permits (.send out) notes)
    (mayReceive : ∀ out, (Wire.encode req).run [] = .ok () out →
      permits .receive { notes with sent := notes.sent ++ [out] })
    (decodable : ∀ out s, replies { notes with sent := notes.sent ++ [out] } s →
      ∃ resp, (Wire.decode s).run .empty = .ok () resp) :
    Ends permits replies (sendReceive req) (Exchanged replies req notes)
      notes := by
  unfold sendReceive encode
  rcases ofLines.encode with ⟨out, encodes, line⟩ | ⟨out, fails⟩
  · rw [encodes]
    refine ⟨maySend out encodes line, fun answer later heard => ?_⟩
    cases heard with
    | sendFailed => exact .unsent out encodes
    | sent =>
        refine ⟨mayReceive out encodes, fun answer later heard => ?_⟩
        cases heard with
        | receiveFailed exception _ unreceived =>
            exact .unreceived exception out encodes unreceived
        | received str _ reply =>
            obtain ⟨resp, decodes⟩ := decodable out str reply
            change Ends permits replies (decode str) _ _
            unfold decode
            rw [decodes]
            exact ⟨out, str, encodes, reply, decodes, rfl⟩
  · rw [fails]
    exact .unencoded out fails

/-- The handler complains, closes the connection and exits with the status 1. -/
theorem ensures_handler
    {exception : Exception}
    {blame : String}
    (blamed : what exception = some blame)
    (mayComplain : permits (.printError (ascii ("Error: " ++ blame ++ "\n"))) notes)
    (mayClose : permits .close
      { notes with cerr := notes.cerr ++ ascii ("Error: " ++ blame ++ "\n") }) :
    (handler exception).Ensures permits (Hears replies) (fun exit later =>
      exit = .status 1 ∧
        later = { notes with cerr := notes.cerr ++ ascii ("Error: " ++ blame ++ "\n") })
      notes := by
  unfold handler
  rw [blamed]
  refine ⟨mayComplain, fun answer later heard => ?_⟩
  cases heard with
  | printError =>
      refine ⟨mayClose, fun answer later heard => ?_⟩
      cases heard with
      | close => exact ⟨rfl, rfl⟩

end Rules

end Programs
end OrderTracking
