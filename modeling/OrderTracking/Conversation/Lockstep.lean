import OrderTracking.Conversation.Runs

/-!
# The updater and the server

The updater in conversation with the server. What it receives is always the response to
what it sent last, whatever else the server is doing, so what it prints answers what was
typed.
-/

namespace OrderTracking
namespace Conversation

open Programs (IsLine IsLogin Notes Replies Permits Hears Stops welcome)

/-! ## The invariant -/

/-- The updater will do no more than it ensures. -/
structure InLockstep (conversation : Conversation Unit) : Prop where
  channeled : Channeled (fun _ => True) conversation
  lines : ∀ s ∈ conversation.sent, IsLine s
  login : ∀ s, conversation.sent.head? = some s → IsLogin .updater conversation.typed s
  loggedIn : 1 < conversation.sent.length → conversation.received.head? = some welcome
  ensures : Ensured Permits Replies Stops conversation

variable {conversation later : Conversation Unit} {link : Link}
variable {kind : Message → Prop} {taken pending replies : List Bytes}

/-- The session of an updater is none of a display, so its replies are short. -/
theorem Channel.updates
    (channel : Channel kind conversation link taken pending replies)
    (login : ∀ s, conversation.sent.head? = some s → IsLogin .updater conversation.typed s) :
    taken = [] ∧ replies = [] ∧ conversation.turns = [] ∨
      (∃ raw, taken = [raw] ∧ conversation.turns = [] ∧ (replies = [] ∨
        ∃ response, Client.Judges raw response ∧ replies = [response])) ∨
      ∃ running, Updates running taken replies conversation.turns := by
  obtain ⟨sent, history, -, -⟩ := channel
  generalize isTurns : conversation.turns = turns at history
  cases history with
  | nothing => exact Or.inl ⟨rfl, rfl, rfl⟩
  | denied raw _ expected => exact Or.inr (Or.inl ⟨raw, rfl, rfl, expected⟩)
  | updater running _ _ _ updates => exact Or.inr (Or.inr ⟨running, updates⟩)
  | display _ _ displays =>
      obtain ⟨raw, msgs, encoded, granted, -⟩ := displays
      have isLogin := login raw (by rw [sent]; rfl)
      cases clientMode_of_isLogin (by simp) isLogin granted

theorem Channel.short
    (channel : Channel kind conversation link taken pending replies)
    (login : ∀ s, conversation.sent.head? = some s → IsLogin .updater conversation.typed s) :
    ∀ reply ∈ replies, reply.length ≤ 9998 := by
  rcases channel.updates login with
    ⟨-, rfl, -⟩ | ⟨raw, -, -, rfl | ⟨response, judges, rfl⟩⟩ | ⟨running, updates⟩
  · simp
  · simp
  · intro reply member
    rw [List.mem_singleton.mp member]
    exact short_of_loginResponses response judges.1
  · exact updates.short

/-- When the only response that is due is received, it answers the last string. -/
theorem Updates.responds
    {running : Bool}
    {turns : List Updater.Processed}
    (updates : Updates running taken replies turns)
    {first s : Bytes}
    {received more : List Bytes}
    (isReplies : replies = first :: (received ++ s :: more))
    (due : (taken ++ pending).length = received.length + 2) :
    ∃ raw, (taken ++ pending).getLast? = some raw ∧ Programs.Responds raw s := by
  obtain ⟨raw, _, granted, made, disciplined⟩ := updates
  obtain ⟨rfl, isResponses⟩ := List.cons.inj isReplies
  have few := length_responsesOf_le made
  have counted := congrArg List.length isResponses
  rw [List.length_append, List.length_cons] at counted
  rw [List.length_append, List.length_cons, List.length_map] at due
  -- so nothing is pending, and every turn has its response
  obtain rfl : pending = [] := List.length_eq_zero_iff.mp (by omega)
  rw [List.length_nil] at due
  obtain ⟨init, last, rfl⟩ : ∃ init last, turns = init ++ [last] := by
    rcases List.eq_nil_or_concat turns with rfl | ⟨init, last, rfl⟩
    · simp at counted
    · exact ⟨init, last, by simp⟩
  have initFew := length_responsesOf_le fun turn member =>
    made turn (List.mem_append_left [last] member)
  have one := (made last (by simp)).length_responses_le
  have split : responsesOf (init ++ [last]) = responsesOf init ++ last.responses := by
    simp [responsesOf]
  rw [split, List.length_append] at counted
  rw [List.length_append, List.length_singleton] at due few
  obtain rfl : more = [] := List.length_eq_zero_iff.mp (by omega)
  rw [split] at isResponses
  obtain ⟨response, isOne⟩ := List.length_eq_one_iff.mp
    (show last.responses.length = 1 by rw [List.length_nil] at counted; omega)
  rw [isOne] at isResponses
  obtain ⟨-, isLast⟩ := List.append_inj' isResponses rfl
  obtain rfl := List.singleton_inj.mp isLast
  obtain ⟨ends, outcome⟩ := (made last (by simp)).turn_of_responses isOne
  refine ⟨last.raw, ?_, last.before, ends, _, outcome, rfl⟩
  rw [List.append_nil, List.map_append, List.map_singleton, ← List.cons_append,
    List.getLast?_concat]

/-- What is received is what the updater expects. -/
theorem InLockstep.reply
    (inLockstep : InLockstep conversation)
    (linked : conversation.link = some link)
    (due : conversation.sent.length = conversation.received.length + 1)
    {infd rest : Framing.Input}
    {s : Bytes}
    (delivers : Framing.available infd = link.unread)
    (ran : Framing.receive.run ⟨infd, []⟩ = .ok () ⟨rest, s⟩) :
    Replies (notes conversation) s := by
  obtain ⟨taken, pending, replies, channel⟩ := inLockstep.channeled.linked link linked
  have short := channel.short inLockstep.login
  obtain ⟨⟨more, isReplies, -⟩, -⟩ := (channel.reads short).receive short delivers ran
  rw [List.append_assoc, List.singleton_append] at isReplies
  have updates := channel.updates inLockstep.login
  have sent := channel.sent
  simp only [Replies, notes]
  generalize conversation.received = received at *
  cases received with
  | nil =>
      rcases updates with ⟨-, rfl, -⟩ | ⟨raw, -, -, rfl | ⟨response, judges, rfl⟩⟩ |
        ⟨running, updates⟩
      · cases isReplies
      · cases isReplies
      · cases isReplies
        exact judges.1
      · obtain ⟨raw, turns, granted, made, disciplined⟩ := updates
        cases isReplies
        exact List.mem_cons_self
  | cons first received =>
      rcases updates with ⟨-, rfl, -⟩ | ⟨raw, -, -, rfl | ⟨response, judges, rfl⟩⟩ |
        ⟨running, updates⟩
      · cases isReplies
      · cases isReplies
      · have counted := congrArg List.length isReplies
        simp at counted
      · rw [sent]
        rw [sent] at due
        exact updates.responds isReplies (by simpa using due)

/-- What can be read are whole frames. -/
theorem InLockstep.readsFrames
    (inLockstep : InLockstep conversation) :
    ReadsFrames conversation := by
  intro link infd rest s exception linked unbroken delivers ran
  obtain ⟨taken, pending, replies, channel⟩ := inLockstep.channeled.linked link linked
  exact channel.readsFrames (channel.short inLockstep.login) unbroken delivers ran

/-- The calls of the updater get answers as expected. -/
theorem InLockstep.hears
    (inLockstep : InLockstep conversation)
    {call : Programs.Call}
    {answer : Programs.Answer call}
    (permits : Permits call (notes conversation))
    (answered : Answered call conversation answer later) :
    Hears Replies call (notes conversation) answer (notes later) := by
  apply hears_of_answered answered
  · exact fun _ => inLockstep.readsFrames
  · rintro link infd rest s rfl linked delivers ran
    exact inLockstep.reply linked permits.2.2 delivers ran

/-- What a program ensures includes that it is in step. -/
theorem InLockstep.inStep
    (inLockstep : InLockstep conversation) :
    Programs.InStep (notes conversation) := by
  refine inLockstep.ensures.always (fun call notes permits => permits.1) ?_
  rintro (_ | exit) notes stops
  · exact Programs.Ready.inStep stops
  · exact stops.1

theorem InLockstep.outer
    (inLockstep : InLockstep conversation)
    (step : Outer conversation later) :
    InLockstep later := by
  have channeled := inLockstep.channeled.outer step
  have ensures := inLockstep.ensures.outer step
  obtain ⟨-, lines, login, loggedIn, -⟩ := inLockstep
  cases step with
  | _ => exact ⟨channeled, lines, login, loggedIn, ensures⟩

/-- Every step keeps the updater in step with its session. -/
theorem InLockstep.inner
    (inLockstep : InLockstep conversation)
    (step : Inner Programs.updater conversation later) :
    InLockstep later := by
  have channeled := inLockstep.channeled.inner inLockstep.lines
    (fun _ _ _ _ _ _ _ => trivial) step
  have ensures := inLockstep.ensures.inner Programs.ensures_loop Programs.stops_killed
    inLockstep.hears step
  have typed : later.typed = conversation.typed := Step.typed (Or.inr step)
  obtain ⟨⟨more, isReceived⟩, sent⟩ := inLockstep.ensures.sent_received step
  refine ⟨channeled, ?_, ?_, ?_, ensures⟩
  · intro s member
    rcases sent with same | ⟨last, permits, isSent⟩
    · exact inLockstep.lines s (same ▸ member)
    · rcases List.mem_append.mp (isSent ▸ member) with earlier | new
      · exact inLockstep.lines s earlier
      · rw [List.mem_singleton.mp new]
        exact permits.2.2.1
  · intro s head
    rw [typed]
    rcases sent with same | ⟨last, permits, isSent⟩
    · exact inLockstep.login s (same ▸ head)
    · rw [isSent] at head
      cases before : conversation.sent with
      | nil =>
          rw [before] at head
          cases head
          rcases permits.2.2.2 with ⟨-, isLogin⟩ | ready
          · exact isLogin
          · obtain ⟨others, isCons⟩ := ready.cons
            have same := ready.all
            rw [isCons, show (notes conversation).sent = [] from before] at same
            cases same
      | cons first more =>
          rw [before] at head
          exact inLockstep.login s (before ▸ head)
  · intro several
    have loggedIn : conversation.received.head? = some welcome := by
      rcases sent with same | ⟨last, permits, isSent⟩
      · exact inLockstep.loggedIn (same ▸ several)
      · rcases permits.2.2.2 with ⟨fresh, -⟩ | ready
        · rw [isSent, show conversation.sent = [] from fresh.sent] at several
          exact absurd several (lt_irrefl 1)
        · exact ready.loggedIn
    obtain ⟨rest, isCons⟩ := List.head?_eq_some_iff.mp loggedIn
    rw [← isReceived, isCons]
    rfl

theorem InLockstep.step
    (inLockstep : InLockstep conversation)
    (step : Step Programs.updater conversation later) :
    InLockstep later :=
  step.elim inLockstep.outer inLockstep.inner

theorem InLockstep.of_reachable
    {server : Server}
    (reachable : Reachable Programs.updater server conversation) :
    InLockstep conversation := by
  refine reachable.induction (fun cin => ?_) InLockstep.step
  refine ⟨⟨fun _ => ⟨rfl, rfl, rfl⟩, fun link linked => (by cases linked)⟩, ?_, ?_, ?_, ?_⟩
  · exact fun s member => (by cases member)
  · exact fun s head => (by cases head)
  · exact fun several => (by cases several)
  · exact Programs.ensures_start ⟨List.nil_prefix, rfl, rfl, rfl⟩ rfl rfl rfl

/-! ## Results -/

/-- What the updater has received after the login are responses of turns, and what the
turns were made of was sent after the login. -/
theorem InLockstep.exchanges
    (inLockstep : InLockstep conversation) :
    ∃ running, Updater.Disciplined running
        (conversation.turns.map Updater.Processed.raw) conversation.turns
        (responsesOf conversation.turns) ∧
      conversation.turns.map Updater.Processed.raw <+: conversation.sent.tail ∧
      conversation.received.tail <+: responsesOf conversation.turns := by
  have nothing : Updater.Disciplined true [] [] [] := .running [] [] [] Updater.served_nil
  cases linked : conversation.link with
  | none =>
      obtain ⟨sent, received, turns⟩ := inLockstep.channeled.unlinked linked
      rw [sent, received, turns]
      exact ⟨true, nothing, List.prefix_rfl, List.prefix_rfl⟩
  | some link =>
      obtain ⟨taken, pending, replies, channel⟩ := inLockstep.channeled.linked link linked
      have short := channel.short inLockstep.login
      obtain ⟨⟨unread, isReplies, -⟩, -⟩ := channel.reads short
      have sent := channel.sent
      rcases channel.updates inLockstep.login with ⟨rfl, rfl, turns⟩ |
        ⟨raw, rfl, turns, few⟩ | ⟨running, updates⟩
      · obtain ⟨received, -⟩ := List.append_eq_nil_iff.mp isReplies.symm
        rw [turns, received]
        exact ⟨true, nothing, List.nil_prefix, List.prefix_rfl⟩
      · have atMost : conversation.received.length ≤ 1 := by
          have counted := congrArg List.length isReplies
          rw [List.length_append] at counted
          rcases few with rfl | ⟨response, -, rfl⟩ <;> simp at counted <;> omega
        have received : conversation.received.tail = [] := by
          rw [← List.length_eq_zero_iff, List.length_tail]
          omega
        rw [turns, received]
        exact ⟨true, nothing, List.nil_prefix, List.prefix_rfl⟩
      · generalize conversation.turns = turns at updates ⊢
        obtain ⟨raw, _, granted, made, disciplined⟩ := updates
        refine ⟨running, disciplined, ?_, ?_⟩
        · rw [sent, List.cons_append, List.tail_cons]
          exact List.prefix_append _ _
        · cases received : conversation.received with
          | nil => exact List.nil_prefix
          | cons first rest =>
              rw [received] at isReplies
              obtain ⟨-, isResponses⟩ := List.cons.inj isReplies
              exact ⟨unread, isResponses.symm⟩

/-- However the threads of the server and the other peers go on, and whatever is typed:
the turns of the session are those on the first requests of the updater, each answered
as it was carried out, and the updater prints their responses in order, all but the last
one at any time. -/
theorem updater_inStep
    {server : Server}
    (reachable : Reachable Programs.updater server conversation) :
    ∃ running printed,
      Updater.Disciplined running (conversation.turns.map Updater.Processed.raw)
        conversation.turns (responsesOf conversation.turns) ∧
      conversation.turns.map Updater.Processed.raw <+: conversation.sent.tail ∧
      Programs.Transcript conversation.cout printed ∧
      printed <+: responsesOf conversation.turns ∧
      conversation.sent.tail.length ≤ printed.length + 1 := by
  have inLockstep := InLockstep.of_reachable reachable
  obtain ⟨running, disciplined, requests, responses⟩ := inLockstep.exchanges
  obtain ⟨-, printed, transcript, isPrinted, due⟩ := inLockstep.inStep
  refine ⟨running, printed, disciplined, requests, transcript,
    isPrinted.trans responses, ?_⟩
  simp only [notes, List.length_tail] at due
  rw [List.length_tail]
  omega

theorem updater_inStep_tea :
    ∃ (s : Bytes) (conversation : Conversation Unit),
      conversation.sent = [s, (Updater.orderTea .new (by decide)).print] ∧
      conversation.received = [welcome, Updater.textOf .ok createdTea] ∧
      conversation.cout = Programs.prompts ++ ascii "> " ++
        (ascii "Success: " ++ createdTea ++ ascii "\n") ∧
      ∃ running printed,
        Updater.Disciplined running (conversation.turns.map Updater.Processed.raw)
          conversation.turns (responsesOf conversation.turns) ∧
        conversation.turns.map Updater.Processed.raw <+: conversation.sent.tail ∧
        Programs.Transcript conversation.cout printed ∧
        printed <+: responsesOf conversation.turns ∧
        conversation.sent.tail.length ≤ printed.length + 1 := by
  obtain ⟨s, conversation, steps, -, -, printed, -, sent, received⟩ := exists_ordered []
  exact ⟨s, { conversation with talk := .result (.inl ()) }, sent, received, printed,
    updater_inStep (.of_inner steps)⟩

/-- The first response judges the first string that was sent. -/
theorem InLockstep.judges
    (inLockstep : InLockstep conversation)
    {response : Bytes}
    (first : conversation.received.head? = some response) :
    ∃ s, conversation.sent.head? = some s ∧
      (response = welcome ↔
        Client.IsGranted .updater s ∨ Client.IsGranted .display s) ∧
      (response ≠ welcome → conversation.turns = []) := by
  obtain ⟨rest, isReceived⟩ := List.head?_eq_some_iff.mp first
  cases linked : conversation.link with
  | none =>
      obtain ⟨-, received, -⟩ := inLockstep.channeled.unlinked linked
      rw [received] at first
      cases first
  | some link =>
      obtain ⟨taken, pending, replies, channel⟩ := inLockstep.channeled.linked link linked
      obtain ⟨⟨unread, isReplies, -⟩, -⟩ := channel.reads (channel.short inLockstep.login)
      rw [isReceived] at isReplies
      have sent := channel.sent
      rcases channel.updates inLockstep.login with ⟨-, rfl, -⟩ |
        ⟨raw, rfl, turns, rfl | ⟨only, judges, rfl⟩⟩ | ⟨running, updates⟩
      · cases isReplies
      · cases isReplies
      · obtain ⟨rfl, -⟩ := List.cons.inj isReplies
        refine ⟨raw, ?_, judges.2, fun _ => turns⟩
        rw [sent]
        rfl
      · generalize conversation.turns = turns at updates ⊢
        obtain ⟨raw, _, granted, made, disciplined⟩ := updates
        obtain ⟨rfl, -⟩ := List.cons.inj isReplies
        refine ⟨raw, ?_, iff_of_true rfl (Or.inl granted), absurd rfl⟩
        rw [sent]
        rfl

/-- After any other response than the welcome no more is sent. -/
theorem InLockstep.sent_of_denied
    (inLockstep : InLockstep conversation)
    {response s : Bytes}
    (first : conversation.received.head? = some response)
    (denied : response ≠ welcome)
    (head : conversation.sent.head? = some s) :
    conversation.sent = [s] := by
  obtain ⟨others, isSent⟩ := List.head?_eq_some_iff.mp head
  have few : ¬ 1 < conversation.sent.length := by
    intro several
    rw [inLockstep.loggedIn several] at first
    exact denied (Option.some.inj first).symm
  rw [isSent, List.length_cons] at few
  rw [isSent, List.length_eq_zero_iff.mp (show others.length = 0 by omega)]

/-- The updater gets past its login just when the username and the password, the first two
lines that were typed, are in the database; otherwise its session makes no turn. -/
theorem updater_loggedIn
    {server : Server}
    {cin : Bytes}
    (run : Relation.ReflTransGen (Step Programs.updater)
      (initial Programs.updater server cin) conversation)
    {response : Bytes}
    (first : conversation.received.head? = some response) :
    ∃ username password s, Programs.Types cin username password ∧
      (Wire.encode (.ofMode .login .updater (username ++ ascii "/" ++ password))).run [] =
        .ok () s ∧
      conversation.sent.head? = some s ∧
      (response = welcome ↔
        username ++ ascii "/" ++ password ∈ PasswordDB.credentials) ∧
      (response ≠ welcome → conversation.sent = [s] ∧ conversation.turns = []) := by
  have inLockstep := InLockstep.of_reachable ⟨cin, run⟩
  obtain ⟨s, head, judges, turns⟩ := inLockstep.judges first
  obtain ⟨username, password, types, encodes⟩ := inLockstep.login s head
  rw [typed_of_run run] at types
  have granted : ∀ {mode}, Client.IsGranted mode s ↔ _ := fun {mode} =>
    isGranted_login_iff (by simp) encodes
  refine ⟨username, password, s, types, encodes, head, ?_, fun denied =>
    ⟨inLockstep.sent_of_denied first denied head, turns denied⟩⟩
  rw [judges, granted, granted]
  simp

theorem updater_loggedIn_alice :
    ∃ conversation : Conversation Unit, conversation.received.head? = some welcome ∧
      ∃ username password s,
        Programs.Types (Programs.typing (teaLines ++ [])) username password ∧
        (Wire.encode (.ofMode .login .updater
          (username ++ ascii "/" ++ password))).run [] = .ok () s ∧
        conversation.sent.head? = some s ∧
        (welcome = welcome ↔
          username ++ ascii "/" ++ password ∈ PasswordDB.credentials) ∧
        (welcome ≠ welcome → conversation.sent = [s] ∧ conversation.turns = []) := by
  obtain ⟨s, conversation, steps, -, -, -, -, -, received⟩ := exists_ordered []
  have first : conversation.received.head? = some welcome := by
    rw [received]
    rfl
  exact ⟨{ conversation with talk := .result (.inl ()) }, first,
    updater_loggedIn (steps_of_inner steps) first⟩

end Conversation
end OrderTracking
