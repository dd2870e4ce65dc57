import OrderTracking.Client.Emission
import OrderTracking.Programs.Rules

/-!
# The login of the programs

Whatever is typed, a program that logs in to a server that responds as `login` does
sends one request and receives one response. It goes on only after an `OK`.
-/

namespace OrderTracking
namespace Programs

/-! ## Responses -/

/-- The response to a login that is granted. -/
abbrev welcome : Bytes :=
  Updater.textOf .ok (ascii "successful login")

/-- What `login` responds. -/
def loginResponses : List Bytes :=
  [welcome, Updater.textOf .error (ascii "Bad Login"),
    Updater.textOf .error (ascii "invalid client mode")]

/-- The string is a response whose text can be decoded. -/
def IsReadable (response : Bytes) : Prop :=
  ∃ type str, (type = .ok ∨ type = .error) ∧ response = Updater.textOf type str ∧
    (Wire.decode response).run .empty = .ok () (.ofStr type str)

theorem decode_textOf
    {type : MessageType}
    (kind : Message.IsText type)
    {str : Bytes}
    (plain : Wire.Lacks [Wire.pipe] str) :
    (Wire.decode (Updater.textOf type str)).run .empty = .ok () (.ofStr type str) := by
  obtain ⟨s, encoded, decodes⟩ := decodable_text kind plain [] .empty
  rw [Wire.encode_text kind] at encoded
  cases encoded
  exact decodes

theorem isReadable_of_decodable
    {response : Bytes}
    (decodable : Updater.DecodableResponse response) :
    IsReadable response := by
  obtain ⟨type, str, kind, encodes, canDecode⟩ := decodable
  obtain ⟨s, encoded, decodes⟩ := canDecode [] .empty
  rw [encodes] at encoded
  cases encoded
  refine ⟨type, str, kind, ?_, decodes⟩
  rw [Wire.encode_text (Or.inr kind)] at encodes
  cases encodes
  rfl

theorem isReadable_loginResponses
    {response : Bytes}
    (member : response ∈ loginResponses) :
    IsReadable response := by
  apply isReadable_of_decodable
  have plain : ∀ str ∈ ["successful login", "Bad Login", "invalid client mode"],
      Wire.Lacks [Wire.pipe] (ascii str) := by
    decide
  simp only [loginResponses, List.mem_cons, List.not_mem_nil, or_false] at member
  rcases member with rfl | rfl | rfl
  · exact Updater.decodableResponse_textOf (Or.inl rfl) (plain _ (by simp))
  · exact Updater.decodableResponse_textOf (Or.inr rfl) (plain _ (by simp))
  · exact Updater.decodableResponse_textOf (Or.inr rfl) (plain _ (by simp))

/-- The only `OK` of `login`. -/
theorem eq_welcome
    {str : Bytes}
    (member : Updater.textOf .ok str ∈ loginResponses) :
    Updater.textOf .ok str = welcome := by
  have notError : ∀ other, Updater.textOf .ok str ≠ Updater.textOf .error other := by
    intro other same
    apply Updater.not_isResponse_ok_and_error (Updater.textOf .ok str)
    exact ⟨Updater.isResponse_ok str, same ▸ Updater.isResponse_error other⟩
  simp only [loginResponses, List.mem_cons, List.not_mem_nil, or_false, notError] at member
  exact member

/-! ## The stages -/

/-- What both prompts write. -/
def prompts : Bytes :=
  ascii "username: " ++ ascii "password: "

/-- The username and the password are the first two lines of what is typed. -/
def Types (typed username password : Bytes) : Prop :=
  ∃ afterUsername afterPassword, nextLine typed = (some username, afterUsername) ∧
    nextLine afterUsername = (some password, afterPassword)

/-- The string is the request to log in with the username and the password typed. -/
def IsLogin (mode : ClientMode) (typed s : Bytes) : Prop :=
  ∃ username password, Types typed username password ∧
    (Wire.encode (.ofMode .login mode (username ++ ascii "/" ++ password))).run [] =
      .ok () s

/-- Nothing has been sent. -/
structure Fresh (notes : Notes) : Prop where
  prompted : notes.cout <+: prompts
  silent : notes.cerr = []
  sent : notes.sent = []
  received : notes.received = []

/-- The request was sent, and nothing received. -/
structure Waiting (mode : ClientMode) (notes : Notes) : Prop where
  prompted : notes.cout = prompts
  silent : notes.cerr = []
  linked : notes.linked = true
  sent : ∃ s, IsLogin mode notes.typed s ∧ notes.sent = [s]
  received : notes.received = []

/-- The response to the request was received. -/
structure Answered (mode : ClientMode) (type : MessageType) (str : Bytes)
    (notes : Notes) : Prop where
  prompted : notes.cout = prompts
  linked : notes.linked = true
  sent : ∃ s, IsLogin mode notes.typed s ∧ notes.sent = [s]
  received : notes.received = [Updater.textOf type str]
  expected : Updater.textOf type str ∈ loginResponses

/-- Logged in. -/
def LoggedIn (mode : ClientMode) (notes : Notes) : Prop :=
  (∃ str, Answered mode .ok str notes) ∧ notes.cerr = []

/-- Not logged in, as the response said, which was written to the standard error. -/
def Refused (mode : ClientMode) (notes : Notes) : Prop :=
  ∃ str, Answered mode .error str notes ∧
    notes.cerr = ascii "Error: " ++ str ++ ascii "\n"

/-- When a program makes a call to log in. -/
def LoginPermits (mode : ClientMode) (call : Call) (notes : Notes) : Prop :=
  match call with
  | .getline | .print _ => Fresh notes
  | .connect => Fresh notes ∧ notes.linked = false
  | .send s => Fresh notes ∧ notes.linked = true ∧ notes.cout = prompts ∧
      IsLogin mode notes.typed s
  | .receive => Waiting mode notes
  | .printError _ | .close => ∃ str, Answered mode .error str notes

/-- The first response is one of `login`. -/
def LoginReplies (notes : Notes) (response : Bytes) : Prop :=
  notes.received = [] → response ∈ loginResponses

/-- What the program may blame for the end of its login, when there is no response: the
standard input has ended, there is no connection, or it has failed. -/
inductive LoginBlames (mode : ClientMode) : Exception → Notes → Prop
  | username (notes : Notes)
      (fresh : Fresh notes)
      (ended : notes.cin = []) :
      LoginBlames mode (.ioException "failed to read username") notes
  | password (notes : Notes)
      (fresh : Fresh notes)
      (ended : notes.cin = []) :
      LoginBlames mode (.ioException "failed to read password") notes
  | unconnected (text : Bytes) (notes : Notes)
      (fresh : Fresh notes)
      (unlinked : notes.linked = false)
      (prints : ConnectPrints text) :
      LoginBlames mode (.ioException "could not connect to server")
        { notes with cerr := notes.cerr ++ text }
  | unsent (notes : Notes)
      (fresh : Fresh notes)
      (linked : notes.linked = true) :
      LoginBlames mode unsent notes
  | unreceived (exception : Exception) (notes : Notes)
      (unreceived : Unreceived exception)
      (waiting : Waiting mode notes) :
      LoginBlames mode exception notes

variable {mode : ClientMode} {notes : Notes}

theorem Types.isLine
    {typed username password : Bytes}
    (types : Types typed username password) :
    IsLine username ∧ IsLine password := by
  obtain ⟨afterUsername, afterPassword, first, second⟩ := types
  exact ⟨isLine_of_nextLine first, isLine_of_nextLine second⟩

/-- The request is made of lines. -/
theorem Types.ofLines
    {typed username password : Bytes}
    (types : Types typed username password)
    (mode : ClientMode) :
    OfLines (.ofMode .login mode (username ++ ascii "/" ++ password)) := by
  have slash : IsLine (ascii "/") := by decide
  obtain ⟨first, second⟩ := types.isLine
  exact .login mode _ ((first.append slash).append second)

theorem IsLogin.isLine
    {typed s : Bytes}
    (isLogin : IsLogin mode typed s) :
    IsLine s := by
  obtain ⟨username, password, types, encodes⟩ := isLogin
  rcases (types.ofLines mode).encode with ⟨out, other, line⟩ | ⟨out, fails⟩
  · rw [encodes] at other
    cases other
    exact line
  · rw [encodes] at fails
    cases fails

/-- Whatever ends the login is an `Exception` of the program. -/
theorem LoginBlames.what
    {exception : Exception}
    (blames : LoginBlames mode exception notes) :
    ∃ blame, what exception = some blame := by
  cases blames with
  | unreceived _ _ unreceived => exact unreceived.what
  | _ => exact ⟨_, rfl⟩

theorem Fresh.later
    {later : Notes}
    (fresh : Fresh notes)
    (read : OnlyRead notes later) :
    Fresh later := by
  obtain ⟨cin, rfl⟩ := read
  exact ⟨fresh.prompted, fresh.silent, fresh.sent, fresh.received⟩

theorem Fresh.print
    (fresh : Fresh notes)
    {text : Bytes}
    (prompted : notes.cout ++ text <+: prompts) :
    Fresh { notes with cout := notes.cout ++ text } :=
  ⟨prompted, fresh.silent, fresh.sent, fresh.received⟩

theorem Fresh.link
    (fresh : Fresh notes) :
    Fresh { notes with linked := true } :=
  ⟨fresh.prompted, fresh.silent, fresh.sent, fresh.received⟩

theorem Answered.complain
    {type : MessageType}
    {str : Bytes}
    (answered : Answered mode type str notes)
    (text : Bytes) :
    Answered mode type str { notes with cerr := notes.cerr ++ text } :=
  ⟨answered.prompted, answered.linked, answered.sent, answered.received, answered.expected⟩

/-! ## Reading the username and the password -/

/-- A script of the login, from the state it is in. -/
abbrev LogsIn (mode : ClientMode) (script : Script α)
    (required : Except Exception α → Notes → Prop) (notes : Notes) : Prop :=
  Ends (LoginPermits mode) LoginReplies script required notes

/-- The credentials are those typed, and were asked for; or reading them failed. -/
def ReadsLogin (mode : ClientMode) (notes : Notes) (result : Except Exception Bytes)
    (later : Notes) : Prop :=
  later.linked = notes.linked ∧
    match result with
    | .ok cred => Fresh later ∧ later.cout = prompts ∧ ∃ username password,
        Types later.typed username password ∧ cred = username ++ ascii "/" ++ password
    | .error exception => LoginBlames mode exception later

/-- The password is read after the username. -/
theorem logsIn_password
    (fresh : Fresh notes)
    (prompted : notes.cout = ascii "username: ")
    {username : Bytes}
    (first : nextLine notes.typed = (some username, notes.cin)) :
    LogsIn mode (do
        print (ascii "password: ")
        match ← readLine with
        | none => throw (.ioException "failed to read password")
        | some password => return username ++ ascii "/" ++ password)
      (ReadsLogin mode notes) notes := by
  refine ⟨fresh, fun answer later heard => ?_⟩
  cases heard with
  | print =>
      have both : notes.cout ++ ascii "password: " = prompts := by
        rw [prompted, prompts]
      have whole : notes.cout ++ ascii "password: " <+: prompts := both ▸ List.prefix_rfl
      have printed := fresh.print whole
      refine ⟨printed, fun answer later heard => ?_⟩
      cases heard with
      | getline =>
          have read := printed.later ⟨(nextLine notes.cin).2, rfl⟩
          cases next : nextLine notes.cin with
          | mk password rest =>
              rw [next] at read
              cases password with
              | none => exact ⟨rfl, .password _ read (nextLine_eq_none next)⟩
              | some password =>
                  exact ⟨rfl, read, both, username, password, ⟨_, rest, first, next⟩, rfl⟩

theorem logsIn_inputLogin
    (fresh : Fresh notes)
    (unprompted : notes.cout = [])
    (unread : notes.cin = notes.typed) :
    LogsIn mode inputLogin (ReadsLogin mode notes) notes := by
  refine ⟨fresh, fun answer later heard => ?_⟩
  cases heard with
  | print =>
      have first : notes.cout ++ ascii "username: " = ascii "username: " := by
        rw [unprompted, List.nil_append]
      have start : notes.cout ++ ascii "username: " <+: prompts :=
        first.symm ▸ List.prefix_append _ _
      have printed := fresh.print start
      refine ⟨printed, fun answer later heard => ?_⟩
      cases heard with
      | getline =>
          have read := printed.later ⟨(nextLine notes.cin).2, rfl⟩
          cases next : nextLine notes.cin with
          | mk username rest =>
              rw [next] at read
              cases username with
              | none => exact ⟨rfl, .username _ read (nextLine_eq_none next)⟩
              | some username => exact logsIn_password read first (unread ▸ next)

/-! ## The request -/

/-- What became of the request to log in. -/
def LoginEnds (mode : ClientMode) (result : Except Exception Bool) (notes : Notes) :
    Prop :=
  match result with
  | .ok true => LoggedIn mode notes
  | .ok false => Refused mode notes
  | .error exception => LoginBlames mode exception notes

/-- The request and what follows its response. -/
theorem logsIn_request
    (fresh : Fresh notes)
    (linked : notes.linked = true)
    (prompted : notes.cout = prompts)
    {username password : Bytes}
    (types : Types notes.typed username password) :
    LogsIn mode (do
        let resp ← sendReceive
          (.ofMode .login mode (username ++ ascii "/" ++ password))
        if resp.type = .error then do
          printError (ascii "Error: " ++ resp.str ++ ascii "\n")
          close
          return false
        else if resp.type ≠ .ok then do
          printError (ascii "Error: unexpected response to LOGIN\n")
          close
          return false
        else return true) (LoginEnds mode) notes := by
  have waiting : ∀ out, (Wire.encode (.ofMode .login mode
        (username ++ ascii "/" ++ password))).run [] = .ok () out →
      IsLogin mode notes.typed out ∧ Waiting mode { notes with sent := notes.sent ++ [out] } := by
    intro out encodes
    have isLogin : IsLogin mode notes.typed out := ⟨username, password, types, encodes⟩
    refine ⟨isLogin, prompted, fresh.silent, linked, ⟨out, isLogin, ?_⟩, fresh.received⟩
    rw [fresh.sent, List.nil_append]
  apply Dialogue.Ensures.bind_except
  have decodable : ∀ out s, LoginReplies { notes with sent := notes.sent ++ [out] } s →
      ∃ resp, (Wire.decode s).run .empty = .ok () resp := by
    intro out s reply
    obtain ⟨type, str, -, -, decodes⟩ := isReadable_loginResponses (reply fresh.received)
    exact ⟨_, decodes⟩
  have exchanged : LogsIn mode (sendReceive _) _ notes :=
    ends_sendReceive (types.ofLines mode)
      (fun out encodes line => ⟨fresh, linked, prompted, (waiting out encodes).1⟩)
      (fun out encodes => (waiting out encodes).2) decodable
  refine exchanged.mono ?_
  rintro (exception | resp) later exchanged
  · cases exchanged with
    | unencoded out fails =>
        rw [Wire.encode_login] at fails
        cases fails
    | unsent => exact .unsent _ fresh linked
    | unreceived _ out encodes unreceived =>
        exact .unreceived _ _ unreceived (waiting out encodes).2
  · obtain ⟨out, s, encodes, reply, decodes, rfl⟩ := exchanged
    have expected := reply fresh.received
    obtain ⟨type, str, kind, rfl, decoded⟩ := isReadable_loginResponses expected
    rw [decoded] at decodes
    cases decodes
    have answered : Answered mode type str
        { notes with
          sent := notes.sent ++ [out]
          received := notes.received ++ [Updater.textOf type str] } := by
      obtain ⟨isLogin, waiting⟩ := waiting out encodes
      refine ⟨prompted, linked, waiting.sent, ?_, expected⟩
      rw [fresh.received, List.nil_append]
    rcases kind with rfl | rfl
    · exact ⟨⟨str, answered⟩, fresh.silent⟩
    · refine ⟨⟨str, answered⟩, fun answer later heard => ?_⟩
      cases heard with
      | printError =>
          have same := answered.complain (ascii "Error: " ++ str ++ ascii "\n")
          refine ⟨⟨str, same⟩, fun answer later heard => ?_⟩
          cases heard with
          | close =>
              refine ⟨str, same, ?_⟩
              simp only [fresh.silent, List.nil_append]
              rfl

/-- Logging in from the start of a program. -/
theorem logsIn_tryLogin
    (mode : ClientMode)
    (fresh : Fresh notes)
    (unprompted : notes.cout = [])
    (unlinked : notes.linked = false)
    (unread : notes.cin = notes.typed) :
    LogsIn mode (tryLogin mode) (LoginEnds mode) notes := by
  apply Dialogue.Ensures.bind_except
  refine (logsIn_inputLogin fresh unprompted unread).mono ?_
  rintro (exception | cred) later ⟨same, holds⟩
  · exact holds
  · obtain ⟨fresh, prompted, username, password, types, rfl⟩ := holds
    have stillUnlinked := same.trans unlinked
    refine ⟨⟨fresh, stillUnlinked⟩, fun answer final heard => ?_⟩
    cases heard with
    | unconnected text _ prints =>
        exact .unconnected text later fresh stillUnlinked prints
    | connected => exact logsIn_request fresh.link rfl prompted types

end Programs
end OrderTracking
