import OrderTracking.Display.Replica
import OrderTracking.Programs.Login

/-!
# The screens of the display

Whatever a server like ours sends, the display never dies of a message. After each one,
heartbeats apart, it prints the orders as they are by then. It only ends when its login
is refused, or its terminal or its connection fails.
-/

namespace OrderTracking
namespace Programs

/-! ## Replies -/

/-- The string is decoded to a message that a display accepts. -/
def Tells (s : Bytes) (msg : Message) : Prop :=
  Display.Shown msg ∧ (Wire.decode s).run .empty = .ok () msg

/-- What a server may send to a display: first a response of `login`, and then messages
it accepts. -/
def DisplayReplies (notes : Notes) (s : Bytes) : Prop :=
  match notes.received with
  | [] => s ∈ loginResponses
  | _ :: _ => ∃ msg, Tells s msg

theorem loginReplies_of_displayReplies
    (notes : Notes)
    (s : Bytes)
    (replies : DisplayReplies notes s) :
    LoginReplies notes s := by
  intro first
  rwa [DisplayReplies, first] at replies

/-! ## What is printed -/

/-- The orders that are shown after messages. -/
abbrev shownAfter (msgs : List Message) : OrderMap :=
  replay Display.apply ∅ msgs

/-- The strings that were received and the messages they tell. What was printed are the
prompts of the login and an empty screen, or a part of them before any message, and then a
screen for each message, heartbeats apart, with the orders as the messages left them. -/
inductive Screens : List Bytes → List Message → Bytes → Prop
  | start (cout : Bytes)
      (prompted : cout <+: prompts ++ clearScreen) :
      Screens [] [] cout
  | heartbeat (strings : List Bytes) (msgs : List Message) (cout s : Bytes)
      (earlier : Screens strings msgs cout)
      (started : prompts ++ clearScreen <+: cout)
      (tells : Tells s (.ofType .dispHeartbeat)) :
      Screens (strings ++ [s]) (msgs ++ [.ofType .dispHeartbeat]) cout
  | shown (strings : List Bytes) (msgs : List Message) (cout s : Bytes) (msg : Message)
      (earlier : Screens strings msgs cout)
      (started : prompts ++ clearScreen <+: cout)
      (tells : Tells s msg)
      (noHeartbeat : msg.type ≠ .dispHeartbeat) :
      Screens (strings ++ [s]) (msgs ++ [msg])
        (cout ++ screen (shownAfter (msgs ++ [msg])))

theorem Screens.tells
    {strings : List Bytes}
    {msgs : List Message}
    {cout : Bytes}
    (screens : Screens strings msgs cout) :
    List.Forall₂ Tells strings msgs := by
  induction screens with
  | start => exact .nil
  | heartbeat strings msgs cout s earlier started tells inductionHypothesis =>
      exact List.rel_append inductionHypothesis (.cons tells .nil)
  | shown strings msgs cout s msg earlier started tells _ inductionHypothesis =>
      exact List.rel_append inductionHypothesis (.cons tells .nil)

/-- A string tells one message. -/
theorem Tells.unique
    {strings : List Bytes}
    {msgs others : List Message}
    (tell : List.Forall₂ Tells strings msgs)
    (otherwise : List.Forall₂ Tells strings others) :
    msgs = others := by
  induction tell generalizing others with
  | nil =>
      cases otherwise
      rfl
  | cons tells _ inductionHypothesis =>
      cases otherwise with
      | cons otherTells rest =>
          have same := tells.2.symm.trans otherTells.2
          rw [inductionHypothesis rest, (EStateM.Result.ok.inj same).2]

/-- The screen of no orders is empty. -/
theorem screen_empty : screen ∅ = clearScreen := by
  have noKeys : sortedKeys ∅ = [] := by
    simp [sortedKeys]
  rw [screen, noKeys, List.flatMap_nil, List.append_nil]

/-! ## The discipline -/

/-- At most one string has been received that the screen does not show yet. -/
def Viewing (notes : Notes) : Prop :=
  ∃ strings msgs, Screens strings msgs notes.cout ∧ strings <+: notes.received.tail ∧
    notes.received.tail.length ≤ strings.length + 1

/-- Logged in, and the last screen shows the orders after all messages received. -/
structure Watching (orders : OrderMap) (notes : Notes) : Prop where
  screens : ∃ msgs, Screens notes.received.tail msgs notes.cout ∧ orders = shownAfter msgs
  started : prompts ++ clearScreen <+: notes.cout
  current : screen orders <:+ notes.cout
  silent : notes.cerr = []
  linked : notes.linked = true
  loggedIn : notes.received.head? = some welcome
  asked : notes.sent ≠ []

/-- When the display makes a call. -/
def DisplayPermits (call : Call) (notes : Notes) : Prop :=
  Viewing notes ∧
    match call with
    | .connect => notes.linked = false
    | .send s => notes.linked = true ∧ Fresh notes ∧ IsLogin .display notes.typed s
    | .receive => notes.linked = true ∧
        (notes.received = [] ∨ ∃ orders, Watching orders notes)
    | _ => True

/-- What the display may blame for its end. By then it has shown every message it has
received, so none of them is to blame: while it logs in, or the connection has failed. -/
inductive DisplayBlames (exception : Exception) (notes : Notes) : Prop
  | login (blames : LoginBlames .display exception notes)
  | unreceived (orders : OrderMap)
      (unreceived : Unreceived exception)
      (watching : Watching orders notes)

/-- The last thing the display has done is to complain about what it may blame. -/
def DisplayComplains (notes : Notes) : Prop :=
  ∃ exception blame earlier, DisplayBlames exception earlier ∧
    what exception = some blame ∧
    notes = { earlier with cerr := earlier.cerr ++ ascii ("Error: " ++ blame ++ "\n") }

/-- Between two turns of its loop the display shows the orders. It only exits with the
status 1, and is only killed when it has sent nothing. -/
def DisplayStops (stop : OrderMap ⊕ Exit) (notes : Notes) : Prop :=
  match stop with
  | .inl orders => Watching orders notes
  | .inr exit => Viewing notes ∧
      (exit = .status 1 ∧ (Refused .display notes ∨ DisplayComplains notes) ∨
        exit = .killed ∧ Fresh notes)

variable {notes : Notes} {orders : OrderMap}

theorem Watching.viewing
    (watching : Watching orders notes) :
    Viewing notes := by
  obtain ⟨msgs, screens, -⟩ := watching.screens
  exact ⟨_, msgs, screens, List.prefix_rfl, Nat.le_succ _⟩

theorem Viewing.complain
    (viewing : Viewing notes)
    (text : Bytes) :
    Viewing { notes with cerr := notes.cerr ++ text } :=
  viewing

theorem Watching.cons
    (watching : Watching orders notes) :
    ∃ rest, notes.received = welcome :: rest :=
  List.head?_eq_some_iff.mp watching.loggedIn

/-- One more string was received. -/
theorem Watching.received
    (watching : Watching orders notes)
    (s : Bytes) :
    Viewing { notes with received := notes.received ++ [s] } := by
  obtain ⟨msgs, screens, -⟩ := watching.screens
  obtain ⟨rest, isCons⟩ := watching.cons
  refine ⟨_, msgs, screens, ?_, ?_⟩
  · simp [isCons]
  · simp [isCons]

/-! ## The loop -/

/-- Receiving a message and showing it. -/
theorem ends_showNext
    (watching : Watching orders notes) :
    Ends DisplayPermits DisplayReplies (showNext orders) (fun result later =>
      match result with
      | .ok orders => Watching orders later
      | .error exception => DisplayBlames exception later) notes := by
  refine ⟨⟨watching.viewing, watching.linked, Or.inr ⟨orders, watching⟩⟩,
    fun answer later heard => ?_⟩
  cases heard with
  | receiveFailed exception _ unreceived => exact .unreceived orders unreceived watching
  | received s _ reply =>
      obtain ⟨rest, isCons⟩ := watching.cons
      obtain ⟨msg, tells⟩ : ∃ msg, Tells s msg := by
        rwa [DisplayReplies, isCons] at reply
      have decoded := decode_of_run tells.2
      have viewing := watching.received s
      obtain ⟨⟨msgs, screens, isShown⟩, started, current, silent, linked, loggedIn, asked⟩ :=
        watching
      have tail : (notes.received ++ [s]).tail = notes.received.tail ++ [s] := by
        simp [isCons]
      have stillIn : (notes.received ++ [s]).head? = some welcome := by
        simp [isCons]
      change Ends DisplayPermits DisplayReplies (decode s >>= fun msg => _) _ _
      rw [decoded]
      change Ends DisplayPermits DisplayReplies (if msg.type = .dispHeartbeat then _ else _) _ _
      by_cases heartbeat : msg.type = .dispHeartbeat
      · rw [if_pos heartbeat]
        obtain rfl : msg = .ofType .dispHeartbeat := by
          cases tells.1 <;> first | rfl | cases heartbeat
        have longer := Screens.heartbeat _ msgs _ s screens started tells
        rw [← tail] at longer
        refine ⟨⟨_, longer, ?_⟩, started, current, silent, linked, stillIn, asked⟩
        rw [isShown, shownAfter, shownAfter, replay_append, replay_cons, replay_nil,
          Display.apply_heartbeat]
      · rw [if_neg heartbeat, Display.receiveMessage_run tells.1]
        refine ⟨⟨viewing, trivial⟩, fun answer later heard => ?_⟩
        cases heard with
        | print =>
            have applied : Display.apply orders msg = shownAfter (msgs ++ [msg]) := by
              rw [isShown, shownAfter, shownAfter, replay_append]
              rfl
            rw [applied]
            have longer := Screens.shown _ msgs _ s msg screens started tells heartbeat
            rw [← tail] at longer
            exact ⟨⟨_, longer, rfl⟩, started.trans (List.prefix_append _ _),
              List.suffix_append _ _, silent, linked, stillIn, asked⟩

/-! ## The program -/

theorem viewing_of_received
    (prompted : notes.cout <+: prompts)
    (few : notes.received.tail = []) :
    Viewing notes :=
  ⟨[], [], .start _ (prompted.trans (List.prefix_append _ _)), List.nil_prefix, by simp [few]⟩

theorem Fresh.viewing
    (fresh : Fresh notes) :
    Viewing notes :=
  viewing_of_received fresh.prompted (by simp [fresh.received])

theorem Waiting.viewing
    {mode : ClientMode}
    (waiting : Waiting mode notes) :
    Viewing notes :=
  viewing_of_received (waiting.prompted ▸ List.prefix_rfl) (by simp [waiting.received])

theorem Answered.viewing
    {mode : ClientMode}
    {type : MessageType}
    {str : Bytes}
    (answered : Answered mode type str notes) :
    Viewing notes :=
  viewing_of_received (answered.prompted ▸ List.prefix_rfl) (by simp [answered.received])

/-- What the display may blame is an `Exception` of the program, and it has shown what it
has received. -/
theorem DisplayBlames.viewing
    {exception : Exception}
    (blames : DisplayBlames exception notes) :
    Viewing notes ∧ ∃ blame, what exception = some blame := by
  cases blames with
  | login blames =>
      refine ⟨?_, blames.what⟩
      cases blames with
      | username _ fresh => exact fresh.viewing
      | password _ fresh => exact fresh.viewing
      | unconnected text _ fresh => exact fresh.viewing.complain text
      | unsent _ fresh => exact fresh.viewing
      | unreceived _ _ _ waiting => exact waiting.viewing
  | unreceived orders unreceived watching => exact ⟨watching.viewing, unreceived.what⟩

/-- The handler complains. -/
theorem displayStops_handler
    {exception : Exception}
    (blames : DisplayBlames exception notes) :
    (handler exception).Ensures DisplayPermits (Hears DisplayReplies)
      (fun exit => DisplayStops (.inr exit)) notes := by
  obtain ⟨viewing, blame, blamed⟩ := blames.viewing
  refine (ensures_handler blamed ⟨viewing, trivial⟩ ⟨viewing.complain _, trivial⟩).mono ?_
  rintro exit later ⟨rfl, rfl⟩
  exact ⟨viewing.complain _,
    Or.inl ⟨rfl, Or.inr ⟨exception, blame, notes, blames, blamed, rfl⟩⟩⟩

/-- What a turn of the display's loop ensures. -/
theorem ensures_display_loop
    (watching : Watching orders notes) :
    (display.loop orders).Ensures DisplayPermits (Hears DisplayReplies) DisplayStops
      notes := by
  apply Dialogue.Ensures.bind
  refine (ends_showNext watching).mono ?_
  rintro (exception | orders) later holds
  · apply Dialogue.Ensures.bind
    exact displayStops_handler holds
  · exact holds

/-- A write on a broken connection may kill the display. -/
theorem displayStops_killed
    {s : Bytes}
    (permits : DisplayPermits (.send s) notes) :
    DisplayStops (.inr .killed) notes :=
  ⟨permits.1, Or.inr ⟨rfl, permits.2.2.1⟩⟩

/-! ### Logging in -/

theorem displayPermits_of_loginPermits
    (call : Call)
    (notes : Notes)
    (permits : LoginPermits .display call notes) :
    DisplayPermits call notes := by
  cases call with
  | getline => exact ⟨permits.viewing, trivial⟩
  | print text => exact ⟨permits.viewing, trivial⟩
  | connect => exact ⟨permits.1.viewing, permits.2⟩
  | send s =>
      obtain ⟨fresh, linked, -, isLogin⟩ := permits
      exact ⟨fresh.viewing, linked, fresh, isLogin⟩
  | receive => exact ⟨permits.viewing, permits.linked, Or.inl permits.received⟩
  | printError text =>
      obtain ⟨str, answered⟩ := permits
      exact ⟨answered.viewing, trivial⟩
  | close =>
      obtain ⟨str, answered⟩ := permits
      exact ⟨answered.viewing, trivial⟩

/-- What the login of the display and its first screen ensure. -/
theorem ensures_display_start
    (fresh : Fresh notes)
    (unprompted : notes.cout = [])
    (unlinked : notes.linked = false)
    (unread : notes.cin = notes.typed) :
    display.start.Ensures DisplayPermits (Hears DisplayReplies) DisplayStops notes := by
  apply Dialogue.Ensures.bind
  apply Dialogue.Ensures.bind
  have logsIn := logsIn_tryLogin .display fresh unprompted unlinked unread
  have ends : Ends DisplayPermits DisplayReplies (tryLogin .display) _ notes :=
    logsIn.weaken displayPermits_of_loginPermits
      fun call notes answer later _ heard => heard.mono loginReplies_of_displayReplies
  refine ends.mono ?_
  rintro (exception | success) later loginEnds
  · apply Dialogue.Ensures.bind
    exact displayStops_handler (.login loginEnds)
  · cases success with
    | false =>
        obtain ⟨str, answered, complaint⟩ := loginEnds
        exact ⟨answered.viewing, Or.inl ⟨rfl, Or.inl ⟨str, answered, complaint⟩⟩⟩
    | true =>
        obtain ⟨⟨str, answered⟩, silent⟩ := loginEnds
        obtain ⟨s, -, sent⟩ := answered.sent
        refine ⟨⟨answered.viewing, trivial⟩, fun answer last heard => ?_⟩
        cases heard with
        | print =>
            refine ⟨⟨[], ?_, rfl⟩, ?_, ?_, silent, answered.linked, ?_, by simp [sent]⟩
            · simp only [answered.received, answered.prompted]
              exact .start _ List.prefix_rfl
            · rw [answered.prompted]
            · exact screen_empty ▸ List.suffix_append _ _
            · rw [answered.received, eq_welcome answered.expected]
              rfl

end Programs
end OrderTracking
