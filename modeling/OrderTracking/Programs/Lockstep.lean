import OrderTracking.Programs.Login

/-!
# One request at a time

Whatever is typed and whatever a server like ours replies, the updater only sends when
it has received the response to everything it has sent before, receives only when a
response is due, and prints exactly one line for each response. It never complains about
a response.
-/

namespace OrderTracking
namespace Programs

/-! ## Replies -/

/-- A turn of `update_chat` may respond so to the string. -/
def Responds (raw response : Bytes) : Prop :=
  ∃ server ends session, Updater.Turn raw server (.ok ends session) ∧
    session.sent = [response]

/-- What a server that has replied to everything before may reply next: first a response
of `login`, and then a response to the last string it was sent. -/
def Replies (notes : Notes) (response : Bytes) : Prop :=
  match notes.received with
  | [] => response ∈ loginResponses
  | _ :: _ => ∃ raw, notes.sent.getLast? = some raw ∧ Responds raw response

theorem loginReplies_of_replies
    (notes : Notes)
    (response : Bytes)
    (replies : Replies notes response) :
    LoginReplies notes response := by
  intro first
  rwa [Replies, first] at replies

theorem isReadable_of_replies
    {notes : Notes}
    {response : Bytes}
    (replies : Replies notes response) :
    IsReadable response := by
  unfold Replies at replies
  split at replies
  · exact isReadable_loginResponses replies
  · obtain ⟨raw, -, server, ends, session, turn, only⟩ := replies
    apply isReadable_of_decodable
    apply turn.decodable
    rw [only]
    exact List.mem_singleton_self _

/-- The request of `quit` has one response. -/
theorem responds_quit
    {response : Bytes}
    (responds : Responds (Updater.textOf .quit (ascii "quit")) response) :
    response = Updater.textOf .ok (ascii "goodbye") := by
  obtain ⟨server, ends, session, turn, only⟩ := responds
  have decodes := decode_textOf (show Message.IsText .quit from Or.inl rfl)
    (show Wire.Lacks [Wire.pipe] (ascii "quit") by decide)
  have isQuit : ∀ req : Message,
      (Wire.decode (Updater.textOf .quit (ascii "quit"))).run .empty = .ok () req →
        req.type = .quit := by
    intro req other
    rw [decodes] at other
    cases other
    rfl
  cases turn with
  | quit => exact (List.singleton_inj.mp only).symm
  | refused req what otherwise calls =>
      rw [Updater.Calls, isQuit req otherwise] at calls
      exact absurd calls (by simp)
  | created req order otherwise type =>
      rw [isQuit req otherwise] at type
      cases type
  | itemUpdated req order item otherwise type =>
      rw [isQuit req otherwise] at type
      cases type
  | delivered req order otherwise type =>
      rw [isQuit req otherwise] at type
      cases type

/-! ## What is printed -/

/-- The prompts of the login and of the loop, and in order one line for each of the
responses. -/
inductive Transcript : Bytes → List Bytes → Prop
  | login (cout : Bytes)
      (prompted : cout <+: prompts) :
      Transcript cout []
  | prompt (cout : Bytes) (responses : List Bytes)
      (transcript : Transcript cout responses) :
      Transcript (cout ++ ascii "> ") responses
  | success (cout str : Bytes) (responses : List Bytes)
      (transcript : Transcript cout responses) :
      Transcript (cout ++ (ascii "Success: " ++ str ++ ascii "\n"))
        (responses ++ [Updater.textOf .ok str])
  | failure (cout str : Bytes) (responses : List Bytes)
      (transcript : Transcript cout responses) :
      Transcript (cout ++ (ascii "Failure: " ++ str ++ ascii "\n"))
        (responses ++ [Updater.textOf .error str])

/-! ## The discipline -/

/-- At most one response is due or has not been printed. The first one is that to the
login, which is not printed. -/
structure InStep (notes : Notes) : Prop where
  notAhead : notes.received.length ≤ notes.sent.length
  printed : ∃ printed, Transcript notes.cout printed ∧ printed <+: notes.received.tail ∧
    notes.sent.length + notes.received.tail.length ≤
      notes.received.length + printed.length + 1

/-- Logged in, with no response due, and all of them printed. -/
structure Ready (notes : Notes) : Prop where
  printed : Transcript notes.cout notes.received.tail
  silent : notes.cerr = []
  linked : notes.linked = true
  loggedIn : notes.received.head? = some welcome
  all : notes.sent.length = notes.received.length

/-- One response is due, and all others are printed. -/
structure Asked (notes : Notes) : Prop where
  printed : Transcript notes.cout notes.received.tail
  silent : notes.cerr = []
  linked : notes.linked = true
  loggedIn : notes.received.head? = some welcome
  due : notes.sent.length = notes.received.length + 1

/-- What the updater may blame for its end. Every response it has received is printed by
then, so none of them is to blame: while it logs in, or what it reads is no command, or
the order has no items, or the connection has failed. -/
inductive Blames : Exception → Notes → Prop
  | login (exception : Exception) (notes : Notes)
      (blames : LoginBlames .updater exception notes) :
      Blames exception notes
  | input (exception : Exception) (notes : Notes)
      (ready : Ready notes)
      (fails : InputFails exception notes.cin) :
      Blames exception notes
  | unencoded (notes : Notes)
      (ready : Ready notes) :
      Blames (.invalidMessage "Order cannot be empty") notes
  | unsent (notes : Notes)
      (ready : Ready notes) :
      Blames unsent notes
  | unreceived (exception : Exception) (notes : Notes)
      (unreceived : Unreceived exception)
      (asked : Asked notes) :
      Blames exception notes

/-- The last thing the updater has done is to complain about what it may blame. -/
def Complains (notes : Notes) : Prop :=
  ∃ exception blame earlier, Blames exception earlier ∧ what exception = some blame ∧
    notes = { earlier with cerr := earlier.cerr ++ ascii ("Error: " ++ blame ++ "\n") }

/-- When the updater makes a call. -/
def Permits (call : Call) (notes : Notes) : Prop :=
  InStep notes ∧
    match call with
    | .connect => notes.linked = false
    | .send s => notes.linked = true ∧ IsLine s ∧
        (Fresh notes ∧ IsLogin .updater notes.typed s ∨ Ready notes)
    | .receive => notes.linked = true ∧ notes.sent.length = notes.received.length + 1
    | _ => True

/-- Between two turns of its loop the updater is ready. It exits with the status 0 when
no response is due, without having complained, and else with the status 1; and it is
killed when it has sent nothing or has printed the responses to everything. -/
def Stops (stop : Unit ⊕ Exit) (notes : Notes) : Prop :=
  match stop with
  | .inl () => Ready notes
  | .inr exit => InStep notes ∧
      (exit = .status 0 ∧ notes.cerr = [] ∧ notes.sent.length = notes.received.length ∨
        exit = .status 1 ∧ (Refused .updater notes ∨ Complains notes) ∨
        exit = .killed ∧ (Fresh notes ∨ Ready notes))

variable {notes : Notes}

theorem Ready.inStep
    (ready : Ready notes) :
    InStep notes where
  notAhead := ready.all.ge
  printed := ⟨_, ready.printed, List.prefix_rfl, ready.all ▸ Nat.le_succ _⟩

theorem Ready.cons
    (ready : Ready notes) :
    ∃ rest, notes.received = welcome :: rest :=
  List.head?_eq_some_iff.mp ready.loggedIn

theorem InStep.later
    {later : Notes}
    (inStep : InStep notes)
    (read : OnlyRead notes later) :
    InStep later := by
  obtain ⟨cin, rfl⟩ := read
  exact ⟨inStep.notAhead, inStep.printed⟩

theorem Ready.later
    {later : Notes}
    (ready : Ready notes)
    (read : OnlyRead notes later) :
    Ready later := by
  obtain ⟨cin, rfl⟩ := read
  exact ⟨ready.printed, ready.silent, ready.linked, ready.loggedIn, ready.all⟩

theorem InStep.mayRead
    (inStep : InStep notes) :
    MayRead Permits notes :=
  fun _ read => ⟨inStep.later read, trivial⟩

theorem InStep.complain
    (inStep : InStep notes)
    (text : Bytes) :
    InStep { notes with cerr := notes.cerr ++ text } :=
  ⟨inStep.notAhead, inStep.printed⟩

/-- A request was sent. -/
theorem Ready.asked
    (ready : Ready notes)
    (out : Bytes) :
    Asked { notes with sent := notes.sent ++ [out] } :=
  ⟨ready.printed, ready.silent, ready.linked, ready.loggedIn, by simp [ready.all]⟩

theorem Asked.inStep
    (asked : Asked notes) :
    InStep notes where
  notAhead := asked.due ▸ Nat.le_succ _
  printed := ⟨_, asked.printed, List.prefix_rfl, by rw [asked.due]; omega⟩

/-- A prompt is not a line for a response. -/
theorem Ready.prompt
    (ready : Ready notes) :
    Ready { notes with cout := notes.cout ++ ascii "> " } :=
  ⟨.prompt _ _ ready.printed, ready.silent, ready.linked, ready.loggedIn, ready.all⟩

/-- A request has failed, without anything else to blame. -/
theorem Ready.exchangeFails
    (ready : Ready notes)
    {req : Message}
    {exception : Exception}
    {later : Notes}
    (fails : ExchangeFails req notes exception later) :
    Blames exception later := by
  cases fails with
  | unencoded => exact .unencoded _ ready
  | unsent => exact .unsent _ ready
  | unreceived _ out encodes unreceived => exact .unreceived _ _ unreceived (ready.asked out)

/-- A request was sent, and its response received. -/
theorem Ready.exchanged
    (ready : Ready notes)
    {req resp : Message}
    {later : Notes}
    (exchanged : Exchanged Replies req notes (.ok resp) later) :
    InStep later ∧ later.cerr = [] ∧
      ∃ type str, (type = .ok ∨ type = .error) ∧
        resp = .ofStr type str ∧ later.cout = notes.cout ∧ later.linked = true ∧
        later.received = notes.received ++ [Updater.textOf type str] ∧
        later.sent.length = later.received.length := by
  obtain ⟨out, s, -, reply, decodes, rfl⟩ := exchanged
  obtain ⟨type, str, kind, rfl, decoded⟩ := isReadable_of_replies reply
  rw [decoded] at decodes
  cases decodes
  obtain ⟨rest, isCons⟩ := ready.cons
  refine ⟨⟨?_, _, ready.printed, ?_, ?_⟩, ready.silent, type, str, kind, rfl, rfl,
    ready.linked, rfl, ?_⟩
  · simp [ready.all]
  · simp [isCons]
  · simp [ready.all, isCons]
    omega
  · simp [ready.all]

/-! ## The functions of the updater -/

/-- The script throws nothing but what the updater may blame, and returns as
required. -/
def Serves (script : Script α) (required : α → Notes → Prop) (notes : Notes) : Prop :=
  Ends Permits Replies script (fun result later =>
    match result with
    | .ok value => InStep later ∧ later.cerr = [] ∧ required value later
    | .error exception => Blames exception later) notes

theorem ends_exchange
    (ready : Ready notes)
    {req : Message}
    (ofLines : OfLines req) :
    Ends Permits Replies (sendReceive req) (Exchanged Replies req notes)
      notes := by
  apply ends_sendReceive ofLines
  · exact fun out _ line => ⟨ready.inStep, ready.linked, line, Or.inr ready⟩
  · exact fun out _ => ⟨(ready.asked out).inStep, ready.linked, (ready.asked out).due⟩
  · intro out s reply
    obtain ⟨type, str, kind, -, decodes⟩ := isReadable_of_replies reply
    exact ⟨_, decodes⟩

/-- A request and the line for its response. -/
theorem serves_request
    (ready : Ready notes)
    {req : Message}
    (ofLines : OfLines req) :
    Serves (do
      let resp ← sendReceive req
      result resp) (fun _ => Ready) notes := by
  apply Dialogue.Ensures.bind_except
  refine (ends_exchange ready ofLines).mono ?_
  rintro (exception | resp) later exchanged
  · exact ready.exchangeFails exchanged
  · obtain ⟨inStep, silent, type, str, kind, rfl, cout, linked, received, all⟩ :=
      ready.exchanged exchanged
    obtain ⟨rest, isCons⟩ := ready.cons
    have loggedIn : later.received.head? = some welcome := by simp [received, isCons]
    have tail : later.received.tail = notes.received.tail ++ [Updater.textOf type str] := by
      rw [received, isCons]
      rfl
    have printed := ready.printed
    rw [← cout] at printed
    rcases kind with rfl | rfl
    · refine ⟨⟨inStep, trivial⟩, fun answer final heard => ?_⟩
      cases heard with
      | print =>
          have ready : Ready { later with
              cout := later.cout ++ (ascii "Success: " ++ str ++ ascii "\n") } :=
            ⟨tail ▸ .success _ str _ printed, silent, linked, loggedIn, all⟩
          exact ⟨ready.inStep, silent, ready⟩
    · refine ⟨⟨inStep, trivial⟩, fun answer final heard => ?_⟩
      cases heard with
      | print =>
          have ready : Ready { later with
              cout := later.cout ++ (ascii "Failure: " ++ str ++ ascii "\n") } :=
            ⟨tail ▸ .failure _ str _ printed, silent, linked, loggedIn, all⟩
          exact ⟨ready.inStep, silent, ready⟩

/-- Reading comes before the request. -/
theorem serves_reads
    (ready : Ready notes)
    {script : Script α}
    {property : α → Prop}
    (reads : Reads Permits Replies script property)
    {rest : α → Script β}
    {required : β → Notes → Prop}
    (next : ∀ value later, property value → Ready later →
      Serves (rest value) required later) :
    Serves (script >>= rest) required notes := by
  apply reads.bind ready.inStep.mayRead
  · exact fun exception later fails read => .input _ _ (ready.later read) fails
  · exact fun value later holds read => next value later holds (ready.later read)

theorem serves_orderNew
    (ready : Ready notes) :
    Serves orderNew (fun _ => Ready) notes := by
  refine serves_reads ready reads_getInt fun numItems later _ ready => ?_
  refine serves_reads ready (reads_addItems _ _ (by simp)) fun order later lines ready => ?_
  exact serves_request ready (.orderNew order lines)

theorem serves_itemUpdate
    (ready : Ready notes) :
    Serves itemUpdate (fun _ => Ready) notes := by
  refine serves_reads ready reads_getInt fun orderId later _ ready => ?_
  refine serves_reads ready reads_getInt fun itemId later _ ready => ?_
  refine serves_reads ready reads_getline fun statusStr later _ ready => ?_
  exact serves_request ready (.itemUpdate ..)

theorem serves_orderUpdate
    (ready : Ready notes) :
    Serves orderUpdate (fun _ => Ready) notes := by
  refine serves_reads ready reads_getInt fun orderId later _ ready => ?_
  refine serves_reads ready reads_getline fun statusStr later _ ready => ?_
  exact serves_request ready (.orderUpdate ..)

/-- `quit` returns only after the response, which it accepts. -/
theorem serves_quit
    (ready : Ready notes) :
    Serves quit (fun ends later => ends = true ∧
      later.sent.length = later.received.length) notes := by
  apply Dialogue.Ensures.bind_except
  refine (ends_exchange ready .quit).mono ?_
  rintro (exception | resp) later exchanged
  · exact ready.exchangeFails exchanged
  · obtain ⟨inStep, silent, type, str, kind, rfl, -, -, -, all⟩ := ready.exchanged exchanged
    obtain ⟨out, s, encodes, reply, decodes, rfl⟩ := exchanged
    rw [Wire.encode_text (Or.inl rfl)] at encodes
    cases encodes
    obtain ⟨rest, isCons⟩ := ready.cons
    simp only [Replies, isCons] at reply
    obtain ⟨raw, isLast, responds⟩ := reply
    rw [List.getLast?_concat, Option.some.injEq] at isLast
    subst isLast
    obtain rfl := responds_quit responds
    rw [decode_textOf (Or.inr (Or.inl rfl)) (by decide)] at decodes
    have isOk : (Message.ofStr type str).type = .ok := by
      rw [← (EStateM.Result.ok.inj decodes).2]
      rfl
    dsimp only
    rw [if_neg (not_not.mpr isOk)]
    exact ⟨inStep, silent, rfl, all⟩

/-- After a command the loop goes on. -/
theorem serves_command
    {script : Script Unit}
    (serves : Serves script (fun _ => Ready) notes) :
    Serves (do
      script
      return false) (fun ends later =>
        later.sent.length = later.received.length ∧ (ends = false → Ready later)) notes := by
  apply Dialogue.Ensures.bind_except
  refine serves.mono ?_
  rintro (exception | value) later holds
  · exact holds
  · exact ⟨holds.1, holds.2.1, holds.2.2.all, fun _ => holds.2.2⟩

/-- One turn of the loop of `input`. When it is left no response is due. -/
theorem serves_input
    (ready : Ready notes) :
    Serves input (fun ends later =>
      later.sent.length = later.received.length ∧ (ends = false → Ready later)) notes := by
  refine ⟨⟨ready.inStep, trivial⟩, fun answer later heard => ?_⟩
  cases heard with
  | print =>
      refine ⟨⟨ready.prompt.inStep, trivial⟩, fun answer later heard => ?_⟩
      cases heard with
      | getline =>
          have read := ready.prompt.later ⟨(nextLine notes.cin).2, rfl⟩
          cases next : nextLine notes.cin with
          | mk line rest =>
              rw [next] at read
              cases line with
              | none => exact ⟨read.inStep, read.silent, read.all, by simp⟩
              | some cmd =>
                  change Serves (if cmd = ascii "quit" then quit else _) _ _
                  split_ifs
                  · refine (serves_quit read).mono ?_
                    rintro (exception | ends) later holds
                    · exact holds
                    · obtain ⟨inStep, silent, isTrue, all⟩ := holds
                      exact ⟨inStep, silent, all, by simp [isTrue]⟩
                  · exact serves_command (serves_orderNew read)
                  · exact serves_command (serves_itemUpdate read)
                  · exact serves_command (serves_orderUpdate read)
                  · exact ⟨read.inStep, read.silent, read.all, fun _ => read⟩

/-! ## The program -/

theorem Fresh.inStep
    (fresh : Fresh notes) :
    InStep notes where
  notAhead := by simp [fresh.received]
  printed := ⟨[], .login _ fresh.prompted, List.nil_prefix, by
    simp [fresh.sent, fresh.received]⟩

theorem Waiting.inStep
    {mode : ClientMode}
    (waiting : Waiting mode notes) :
    InStep notes where
  notAhead := by simp [waiting.received]
  printed := by
    obtain ⟨s, -, sent⟩ := waiting.sent
    exact ⟨[], .login _ (waiting.prompted ▸ List.prefix_rfl), List.nil_prefix, by
      simp [sent, waiting.received]⟩

/-- What the updater may blame leaves it in step, and is an `Exception` of the program. -/
theorem Blames.inStep
    {exception : Exception}
    (blames : Blames exception notes) :
    InStep notes ∧ ∃ blame, what exception = some blame := by
  cases blames with
  | login _ _ blames =>
      refine ⟨?_, blames.what⟩
      cases blames with
      | username _ fresh => exact fresh.inStep
      | password _ fresh => exact fresh.inStep
      | unconnected text _ fresh => exact fresh.inStep.complain text
      | unsent _ fresh => exact fresh.inStep
      | unreceived _ _ _ waiting => exact waiting.inStep
  | input _ _ ready fails => exact ⟨ready.inStep, fails.what⟩
  | unencoded _ ready => exact ⟨ready.inStep, _, rfl⟩
  | unsent _ ready => exact ⟨ready.inStep, _, rfl⟩
  | unreceived _ _ unreceived asked => exact ⟨asked.inStep, unreceived.what⟩

/-- The handler complains. -/
theorem stops_handler
    {exception : Exception}
    (blames : Blames exception notes) :
    (handler exception).Ensures Permits (Hears Replies) (fun exit => Stops (.inr exit))
      notes := by
  obtain ⟨inStep, blame, blamed⟩ := blames.inStep
  refine (ensures_handler blamed ⟨inStep, trivial⟩ ⟨inStep.complain _, trivial⟩).mono ?_
  rintro exit later ⟨rfl, rfl⟩
  exact ⟨inStep.complain _,
    Or.inr (Or.inl ⟨rfl, Or.inr ⟨exception, blame, notes, blames, blamed, rfl⟩⟩)⟩

/-- What a turn of the updater's loop ensures. -/
theorem ensures_loop
    (ready : Ready notes) :
    (updater.loop ()).Ensures Permits (Hears Replies) Stops notes := by
  apply Dialogue.Ensures.bind
  refine (serves_input ready).mono ?_
  rintro (exception | ends) later holds
  · apply Dialogue.Ensures.bind
    exact stops_handler holds
  · obtain ⟨inStep, silent, all, again⟩ := holds
    cases ends with
    | false => exact again rfl
    | true =>
        refine ⟨⟨inStep, trivial⟩, fun answer last heard => ?_⟩
        cases heard with
        | close => exact ⟨inStep, Or.inl ⟨rfl, silent, all⟩⟩

/-- A write on a broken connection may kill the updater. -/
theorem stops_killed
    {s : Bytes}
    (permits : Permits (.send s) notes) :
    Stops (.inr .killed) notes :=
  ⟨permits.1, Or.inr (Or.inr ⟨rfl, permits.2.2.2.imp And.left id⟩)⟩

/-! ### Logging in -/

theorem Answered.inStep
    {mode : ClientMode}
    {type : MessageType}
    {str : Bytes}
    (answered : Answered mode type str notes) :
    InStep notes where
  notAhead := by
    obtain ⟨s, -, sent⟩ := answered.sent
    simp [sent, answered.received]
  printed := by
    obtain ⟨s, -, sent⟩ := answered.sent
    exact ⟨[], .login _ (answered.prompted ▸ List.prefix_rfl), List.nil_prefix, by
      simp [sent, answered.received]⟩

theorem LoggedIn.ready
    {mode : ClientMode}
    (loggedIn : LoggedIn mode notes) :
    Ready notes := by
  obtain ⟨⟨str, answered⟩, silent⟩ := loggedIn
  obtain ⟨s, -, sent⟩ := answered.sent
  refine ⟨?_, silent, answered.linked, ?_, ?_⟩
  · rw [answered.received]
    exact .login _ (answered.prompted ▸ List.prefix_rfl)
  · rw [answered.received, eq_welcome answered.expected]
    rfl
  · simp [sent, answered.received]

theorem permits_of_loginPermits
    (call : Call)
    (notes : Notes)
    (permits : LoginPermits .updater call notes) :
    Permits call notes := by
  cases call with
  | getline => exact ⟨permits.inStep, trivial⟩
  | print text => exact ⟨permits.inStep, trivial⟩
  | connect => exact ⟨permits.1.inStep, permits.2⟩
  | send s =>
      obtain ⟨fresh, linked, -, isLogin⟩ := permits
      exact ⟨fresh.inStep, linked, isLogin.isLine, Or.inl ⟨fresh, isLogin⟩⟩
  | receive =>
      obtain ⟨s, -, sent⟩ := permits.sent
      exact ⟨permits.inStep, permits.linked, by simp [sent, permits.received]⟩
  | printError text =>
      obtain ⟨str, answered⟩ := permits
      exact ⟨answered.inStep, trivial⟩
  | close =>
      obtain ⟨str, answered⟩ := permits
      exact ⟨answered.inStep, trivial⟩

/-- What the login of the updater ensures. -/
theorem ensures_start
    (fresh : Fresh notes)
    (unprompted : notes.cout = [])
    (unlinked : notes.linked = false)
    (unread : notes.cin = notes.typed) :
    updater.start.Ensures Permits (Hears Replies) Stops notes := by
  apply Dialogue.Ensures.bind
  apply Dialogue.Ensures.bind
  have logsIn := logsIn_tryLogin .updater fresh unprompted unlinked unread
  have ends : Ends Permits Replies (tryLogin .updater) _ notes :=
    logsIn.weaken permits_of_loginPermits
      fun call notes answer later _ heard => heard.mono loginReplies_of_replies
  refine ends.mono ?_
  rintro (exception | success) later loginEnds
  · apply Dialogue.Ensures.bind
    exact stops_handler (.login _ _ loginEnds)
  · cases success with
    | false =>
        obtain ⟨str, answered, complaint⟩ := loginEnds
        exact ⟨answered.inStep, Or.inr (Or.inl ⟨rfl, Or.inl ⟨str, answered, complaint⟩⟩)⟩
    | true => exact LoggedIn.ready loginEnds

end Programs
end OrderTracking
