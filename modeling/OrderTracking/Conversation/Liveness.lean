import OrderTracking.Conversation.Lockstep
import OrderTracking.Library.Fairness

/-!
# The updater gets to its end

The updater and its session never wait for each other: as long as the updater has not
exited, it, its session or the connection can make a step. And they make finitely many,
since each turn of the loop reads a line, each string is taken once and what is in
flight is delivered once. So whatever is typed, the updater exits.
-/

namespace OrderTracking
namespace Conversation

open Framing (frame available)
open Programs (Hears Replies Permits Stops)

variable {conversation later : Conversation Unit} {link : Link}
variable {kind : Message → Prop} {taken pending replies : List Bytes}

/-! ## Steps of the session -/

theorem meetsEnd_of_receive
    {client next : Client}
    (failed : Client.receive.run client = .error (.ioException "file ended early") next) :
    Code.MeetsEnd (Framing.receive.run ⟨client.infd, []⟩) := by
  rw [EStateM.run, Client.receive] at failed
  cases returned : Framing.receive.run ⟨client.infd, []⟩ with
  | ok value receiver =>
      rw [returned] at failed
      cases failed
  | error exception receiver =>
      rw [returned] at failed
      cases failed
      exact ⟨receiver, rfl⟩

/-- `login` ends without meeting the end of the input when there is a string. -/
theorem exists_login_step
    {self : ClientPtr}
    {server : Server}
    {client origin : Client}
    {serial : Nat}
    (sated : ¬ Code.MeetsEnd (Framing.receive.run ⟨client.infd, []⟩)) :
    ∃ final next, Session.Step self server ⟨client, .login, origin, serial⟩ final next ∧
      ¬ MetEnd next := by
  cases ran : Client.login.run client with
  | ok value next =>
      refine ⟨_, _, .login _ _ _ _ _ ran, fun ended => ?_⟩
      by_cases updater : next.mode = .updater <;> simp [MetEnd, updater] at ended
  | error exception next =>
      refine ⟨_, _, .loginFailed _ _ _ _ _ _ ran, fun ended => ?_⟩
      have isEnd : exception = .ioException "file ended early" := by
        simpa [MetEnd] using ended
      have exchange := Client.login_exchange client
      rw [ran] at exchange
      cases exchange with
      | unreceived _ _ failed => exact sated (meetsEnd_of_receive (isEnd ▸ failed))
      | denied _ _ raw rest responses received expected wrote notEnd => exact notEnd isEnd

theorem exists_turn_step
    {self : ClientPtr}
    {server : Server}
    {client origin : Client}
    {serial : Nat}
    (sated : ¬ Code.MeetsEnd (Framing.receive.run ⟨client.infd, []⟩)) :
    ∃ final next, Session.Step self server ⟨client, .updater, origin, serial⟩ final next ∧
      ¬ MetEnd next := by
  cases ran : Client.updateChat.run (server, client) with
  | ok ends final =>
      refine ⟨_, _, .turn _ _ _ _ _ _ _ ran, fun ended => ?_⟩
      cases ends <;> simp [MetEnd] at ended
  | error exception final =>
      refine ⟨_, _, .turnFailed _ _ _ _ _ _ _ ran, fun ended => ?_⟩
      have isEnd : exception = .ioException "file ended early" := by
        simpa [MetEnd] using ended
      have exchange := Client.updateChat_exchange server client
      rw [ran] at exchange
      cases exchange with
      | unreceived _ _ failed => exact sated (meetsEnd_of_receive (isEnd ▸ failed))
      | failed _ _ raw rest received wrote notEnd => exact notEnd isEnd

/-! ## No deadlock -/

/-- A session that is fed a string can take it, or something is still in flight. -/
theorem Channel.exists_step_of_pending
    (linked : conversation.link = some link)
    {self : ClientPtr}
    (accepted : link.far = .client self)
    (opened : link.line = .opened)
    {session : Session}
    (live : conversation.system.clients self = some session)
    (listens : session.phase = .login ∨ session.phase = .updater)
    (feeds : Feeds link session.client.infd pending)
    (waiting : pending ≠ []) :
    ∃ later, Inner Programs.updater conversation later := by
  by_cases delivered : link.inFlight = []
  · obtain ⟨string, more, rfl⟩ := List.exists_cons_of_ne_nil waiting
    have whole := feeds.whole opened
    rw [delivered, List.append_nil, List.flatMap_cons] at whole
    have sated := Framing.receive_sated_of_frame whole
    obtain ⟨client, phase, origin, serial⟩ := session
    rcases listens with rfl | rfl
    · obtain ⟨final, next, step, notEnd⟩ := exists_login_step sated
      exact ⟨_, .session self _ next final link _ linked accepted live step
        fun ended => absurd ended notEnd⟩
    · obtain ⟨final, next, step, notEnd⟩ := exists_turn_step sated
      exact ⟨_, .session self _ next final link _ linked accepted live step
        fun ended => absurd ended notEnd⟩
  · exact ⟨_, .deliver link.inFlight [] delivered link _ linked (List.append_nil _).symm⟩

/-- A running updater session has answered everything it took. -/
theorem Updates.length_eq
    {turns : List Updater.Processed}
    (updates : Updates true taken replies turns) :
    taken.length = replies.length := by
  obtain ⟨raw, _, granted, made, disciplined⟩ := updates
  generalize responsesOf turns = responses at disciplined
  cases disciplined with
  | running _ _ _ served =>
      rw [List.length_cons, List.length_cons, List.length_map, served.answers.length_eq]

/-- When the updater waits and has read everything, its session can make a step. -/
theorem InLockstep.exists_session_step
    (inLockstep : InLockstep conversation)
    (linked : conversation.link = some link)
    {self : ClientPtr}
    (accepted : link.far = .client self)
    (opened : link.line = .opened)
    (due : conversation.sent.length = conversation.received.length + 1)
    (channel : Channel kind conversation link taken pending replies)
    (read : replies = conversation.received) :
    ∃ later, Inner Programs.updater conversation later := by
  obtain ⟨session, isSession, attached⟩ := channel.attached (accepted ▸ Far.noConfusion)
  rw [accepted] at isSession
  have live : conversation.system.clients self = some session := isSession
  have sent := congrArg List.length channel.sent
  rw [List.length_append, due, ← read] at sent
  have progress := attached.progress
  have feeds := attached.feeds
  cases phase : session.phase with
  | accepted =>
      obtain ⟨client, _, origin, serial⟩ := session
      obtain rfl : _ = Phase.accepted := phase
      exact ⟨_, .session self _ _ _ link _ linked accepted live (.spawn client origin serial _)
        fun ended => by cases ended⟩
  | login =>
      rw [phase] at progress feeds
      obtain ⟨rfl, -, -⟩ := progress
      refine Channel.exists_step_of_pending linked accepted opened live (Or.inl phase)
        (feeds trivial) ?_
      rintro rfl
      cases sent
  | updater =>
      rw [phase] at progress feeds
      have answered := Updates.length_eq progress
      refine Channel.exists_step_of_pending linked accepted opened live (Or.inr phase)
        (feeds trivial) ?_
      rintro rfl
      rw [List.length_nil] at sent
      omega
  | closing how =>
      obtain ⟨client, _, origin, serial⟩ := session
      obtain rfl : _ = Phase.closing how := phase
      obtain ⟨final, ran⟩ := exists_unregister self client conversation.system.server
      exact ⟨_, .session self _ _ _ link _ linked accepted live (.unregister how _ _ _ _ _ ran)
        fun ended => by cases ended⟩
  | unregistered how =>
      exact ⟨_, .destroyed self session how link _ linked accepted live phase⟩
  | _ =>
      rw [phase] at progress
      obtain ⟨⟨raw, msgs, encoded, granted, -⟩, -⟩ := progress
      have isLogin := inLockstep.login raw (by rw [channel.sent]; rfl)
      cases clientMode_of_isLogin (by simp) isLogin granted

/-- A response that was written can be received. -/
theorem Channel.exists_received
    (channel : Channel kind conversation link taken pending replies)
    (linked : conversation.link = some link)
    (far : link.far ≠ .gone)
    (opened : link.line = .opened)
    (short : ∀ reply ∈ replies, reply.length ≤ 9998)
    {s : Bytes}
    {more : List Bytes}
    (isReplies : replies = conversation.received ++ s :: more) :
    ∃ answer later, Answered .receive conversation answer later := by
  obtain ⟨session, isSession, attached⟩ := channel.attached far
  have out := (channel.reads short).out session isSession
  have unread : link.unread = frame s ++ more.flatMap frame := by
    rw [attached.whole (Or.inr opened), isReplies, List.flatMap_append,
      List.flatMap_cons] at out
    exact (List.append_cancel_left out).symm
  exact ⟨_, _, .receivable linked (short s (by rw [isReplies]; simp)) unread⟩

/-- As long as the updater has not exited, a step is possible. -/
theorem InLockstep.progresses
    (inLockstep : InLockstep conversation)
    (free : ∃ self, conversation.system.clients self = none)
    (running : ∀ exit, conversation.talk ≠ .result (.inr exit)) :
    ∃ later, Inner Programs.updater conversation later := by
  cases asks : conversation.talk with
  | result stop =>
      cases stop with
      | inl state => exact ⟨_, .loop state conversation asks⟩
      | inr exit => exact absurd asks (running exit)
  | ask call next =>
      have isCall : ∀ {answer later}, Answered call conversation answer later →
          ∃ later, Inner Programs.updater conversation later := fun answered =>
        ⟨_, .call call next _ _ _ asks answered⟩
      obtain ⟨permits, -⟩ := inLockstep.ensures.call asks
      cases call with
      | getline => exact isCall (.getline conversation)
      | print text => exact isCall (.print text conversation)
      | printError text => exact isCall (.printError text conversation)
      | connect => exact isCall (.unconnected [] conversation .nothing)
      | close =>
          by_cases isOpen : ∃ link, conversation.link = some link ∧ link.line = .opened
          · obtain ⟨link, linked, opened⟩ := isOpen
            exact isCall (.close 0 link conversation linked opened)
          · refine isCall (.notOpen conversation fun link linked opened => ?_)
            exact isOpen ⟨link, linked, opened⟩
      | send s =>
          obtain ⟨link, linked⟩ := Option.isSome_iff_exists.mp permits.2.1
          exact isCall (.sent s link conversation linked)
      | receive =>
          obtain ⟨link, linked⟩ := Option.isSome_iff_exists.mp permits.2.1
          by_cases broken : link.Broken
          · exact isCall (.receiveBroken link conversation linked broken)
          obtain ⟨far, isOpen⟩ := not_or.mp broken
          have opened := not_not.mp isOpen
          obtain ⟨taken, pending, replies, channel⟩ := inLockstep.channeled.linked link linked
          have short := channel.short inLockstep.login
          obtain ⟨⟨unread, isReplies, -⟩, -⟩ := channel.reads short
          cases unread with
          | nil =>
              cases isFar : link.far with
              | pending infd room =>
                  obtain ⟨self, isFree⟩ := free
                  exact ⟨_, .accept self infd room link _ linked isFar isFree⟩
              | client self =>
                  exact inLockstep.exists_session_step linked isFar opened permits.2.2 channel
                    (isReplies.trans (List.append_nil _))
              | gone => exact absurd isFar far
          | cons s more =>
              obtain ⟨answer, later, answered⟩ :=
                channel.exists_received linked far opened short isReplies
              exact isCall answered

/-! ## What is left to be done on the connection -/

/-- What a session may still do: take the strings that were delivered, and end. -/
def weight (session : Session) : Nat :=
  match session.phase with
  | .accepted => (available session.client.infd).length + 4
  | .login => (available session.client.infd).length + 3
  | .updater => (available session.client.infd).length + 2
  | .closing _ => 1
  | _ => 0

/-- A connection may still be accepted. -/
def unaccepted : Far → Nat
  | .pending _ _ => 1
  | .client _ | .gone => 0

/-- What may still happen on the connection: deliveries, that it is accepted, and what the
session does. -/
def remaining (conversation : Conversation Unit) : Nat :=
  match conversation.link with
  | none => 0
  | some link =>
      2 * link.inFlight.length + unaccepted link.far +
        (farSession conversation.system.clients link.far).elim 0 (weight · + 1)

/-- What is delivered adds to what is available at most. -/
theorem length_available_deliver_le
    (infd : Framing.Input)
    {bytes : Bytes}
    (nonempty : bytes ≠ []) :
    (available (infd ++ [.chunk bytes nonempty])).length ≤
      (available infd).length + bytes.length := by
  induction infd with
  | nil => simp [available]
  | cons delivery rest inductionHypothesis =>
      cases delivery with
      | failure => simp [available]
      | chunk other isNonempty =>
          simp only [List.cons_append, available, List.length_append]
          omega

theorem weight_deliver_le
    (session : Session)
    {bytes : Bytes}
    (nonempty : bytes ≠ []) :
    weight (session.deliver (.chunk bytes nonempty)) ≤ weight session + bytes.length := by
  have longer := length_available_deliver_le session.client.infd nonempty
  obtain ⟨client, phase, origin, serial⟩ := session
  cases phase <;> simp only [weight, Session.deliver, Client.deliver] at longer ⊢ <;> omega

theorem weight_reset
    (session : Session)
    (room : Nat) :
    weight ((session.deliver .failure).limit room) = weight session := by
  obtain ⟨client, phase, origin, serial⟩ := session
  cases phase <;>
    simp [weight, Session.deliver, Client.deliver, Session.limit,
      Framing.available_append_failure]

theorem length_available_rest_lt
    {infd rest : Framing.Input}
    {s : Bytes}
    (received : Framing.receive.run ⟨infd, []⟩ = .ok () ⟨rest, s⟩) :
    (available rest).length < (available infd).length := by
  obtain ⟨-, framed⟩ := Framing.framed_of_receive received
  rw [framed, List.length_append, Framing.frame_eq, List.length_append, List.length_append,
    List.length_singleton]
  omega

/-- A session that is none of a display gets lighter with every step. -/
theorem weight_step
    {self : ClientPtr}
    {server final : Server}
    {session next : Session}
    (step : Session.Step self server session final next)
    {turns : List Updater.Processed}
    (progress : Progress kind session.phase taken replies turns)
    (noDisplay : ¬ Displays kind taken replies) :
    weight next < weight session := by
  cases step with
  | spawn => exact Nat.lt_succ_self _
  | spawnFailed =>
      simp only [weight]
      omega
  | login client next origin serial _ ran =>
      have exchange := Client.login_exchange client
      rw [ran] at exchange
      cases exchange with
      | granted _ raw rest received granted proper left writes =>
          have shorter := length_available_rest_lt received
          subst left
          by_cases updater : next.mode = .updater
          · simp only [updater, if_true, weight]
            omega
          · simp only [updater, if_false, weight]
            omega
  | loginFailed =>
      simp only [weight]
      omega
  | turn ends client next origin serial _ _ ran =>
      have exchange := Client.updateChat_exchange server client
      rw [ran] at exchange
      cases exchange with
      | answered _ _ raw rest turn received result left sameMode writes =>
          have shorter := length_available_rest_lt received
          subst left
          cases ends <;> simp only [weight, if_true, Bool.false_eq_true, if_false] <;> omega
  | turnFailed =>
      simp only [weight]
      omega
  | unregister => exact Nat.zero_lt_one
  | _ => exact absurd progress.1 noDisplay

theorem unaccepted_change
    (change : Session → Session)
    (far : Far) :
    unaccepted (far.change change) = unaccepted far := by
  cases far <;> rfl

/-- A change of the session at the other end. -/
theorem weight_changeSession_le
    {change : Session → Session}
    (phase : ∀ session, (change session).phase = session.phase)
    {more : Nat}
    (heavier : ∀ session, weight (change session) ≤ weight session + more)
    (link : Link) :
    (farSession (conversation.changeSession link change).system.clients
        (link.far.change change)).elim 0 (weight · + 1) ≤
      (farSession conversation.system.clients link.far).elim 0 (weight · + 1) + more := by
  cases isFar : link.far with
  | pending infd room =>
      have atMost := heavier (.accepted infd room 0)
      have isPhase := phase (.accepted infd room 0)
      simp only [Far.change, farSession, Option.elim_some]
      have same : weight (.accepted (change (.accepted infd room 0)).client.infd
          (change (.accepted infd room 0)).client.room 0) =
            weight (change (.accepted infd room 0)) := by
        rw [weight, weight, isPhase]
        rfl
      omega
  | client self =>
      rw [changeSession_of_client isFar]
      simp only [Far.change, farSession, System.modifySession, Function.update_self]
      cases live : conversation.system.clients self with
      | none => simp
      | some session =>
          have atMost := heavier session
          simp only [Option.map_some, Option.elim_some]
          omega
  | gone => exact Nat.zero_le _

/-- The surroundings add nothing to what remains, and do not concern the program. -/
theorem remaining_outer
    (step : Outer conversation later) :
    remaining later ≤ remaining conversation ∧ later.talk = conversation.talk ∧
      notes later = notes conversation := by
  cases step with
  | elsewhere other final _ different step =>
      refine ⟨?_, rfl, rfl⟩
      unfold remaining
      cases linked : conversation.link with
      | none => exact le_refl _
      | some link =>
          have same : farSession final.clients link.far =
              farSession conversation.system.clients link.far :=
            farSession_congr fun self accepted =>
              (step.modifySession (different link self linked accepted) id).1
          simp only [same, le_refl]
  | acceptFailed => exact ⟨le_refl _, rfl, rfl⟩
  | aborted infd room link _ linked pending reset =>
      refine ⟨?_, rfl, (notes_of_linked linked).symm⟩
      simp only [remaining, linked, setLink, farSession, unaccepted, Option.elim_none]
      omega
  | reset room link _ linked opened =>
      refine ⟨?_, rfl, (notes_of_linked linked).symm⟩
      have atMost := @weight_changeSession_le conversation
        (fun session => (session.deliver .failure).limit room) (fun _ => rfl) 0
        (fun session => (weight_reset session room).le) link
      simp only [remaining, linked, setLink, unaccepted_change, List.length_nil]
      omega

/-- The session of an updater is none of a display. -/
theorem Channel.noDisplay
    (channel : Channel kind conversation link taken pending replies)
    (login : ∀ s, conversation.sent.head? = some s →
      Programs.IsLogin .updater conversation.typed s) :
    ¬ Displays kind taken replies := by
  rintro ⟨raw, msgs, encoded, granted, -⟩
  have isLogin := login raw (by rw [channel.sent]; rfl)
  cases clientMode_of_isLogin (by simp) isLogin granted

/-- What a step of the program makes of its dialogue. -/
def Advances (talk : Programs.Talk (Unit ⊕ Programs.Exit)) (before : Programs.Notes)
    (later : Conversation Unit) : Prop :=
  (∃ call next answer, talk = .ask call next ∧ later.talk = next answer ∧
      Hears Replies call before answer (notes later)) ∨
    (∃ s next, talk = .ask (.send s) next ∧ later.talk = .result (.inr .killed)) ∨
    talk = .result (.inl ()) ∧ later.talk = Programs.updater.loop () ∧ notes later = before

/-- A step that is not the program's leaves less to be done on the connection; a step of
the program is a call, at which it may be killed, or another turn of its loop. -/
theorem InLockstep.inner_cases
    (inLockstep : InLockstep conversation)
    (step : Inner Programs.updater conversation later) :
    remaining later < remaining conversation ∧ later.talk = conversation.talk ∧
        notes later = notes conversation ∨
      Advances conversation.talk (notes conversation) later := by
  cases step with
  | deliver bytes rest nonempty link _ linked inFlight =>
      refine Or.inl ⟨?_, rfl, (notes_of_linked linked).symm⟩
      have positive := List.length_pos_iff.mpr nonempty
      have lighter := @List.length_append _ bytes rest
      have atMost := @weight_changeSession_le conversation
        (Session.deliver (.chunk bytes nonempty)) (fun _ => rfl) bytes.length
        (fun session => weight_deliver_le session nonempty) link
      simp only [remaining, linked, setLink, inFlight, unaccepted_change]
      omega
  | accept self infd room link _ linked pending free =>
      refine Or.inl ⟨?_, rfl, (notes_of_linked linked).symm⟩
      simp only [remaining, linked, pending, farSession, System.accept, Function.update_self,
        Option.elim_some, unaccepted, weight]
      omega
  | session self session next final link _ linked accepted live step waits =>
      refine Or.inl ⟨?_, rfl, (notes_of_linked linked).symm⟩
      obtain ⟨taken, pending, replies, channel⟩ := inLockstep.channeled.linked link linked
      obtain ⟨other, isLive, attached⟩ := channel.attached (accepted ▸ Far.noConfusion)
      rw [accepted] at isLive
      obtain rfl := Option.some.inj (live.symm.trans isLive)
      have lighter := weight_step step attached.progress (channel.noDisplay inLockstep.login)
      simp only [remaining, linked, accepted, farSession, live, Function.update_self,
        Option.elim_some]
      omega
  | destroyed self session how link _ linked accepted live destroyed =>
      refine Or.inl ⟨?_, rfl, (notes_of_linked linked).symm⟩
      simp only [remaining, linked, accepted, farSession, live, unaccepted, Option.elim_some,
        Option.elim_none]
      omega
  | call call next answer _ last asks answered =>
      obtain ⟨permits, -⟩ := inLockstep.ensures.call asks
      have heard := inLockstep.hears permits answered
      exact Or.inr (Or.inl ⟨call, next, answer, asks, rfl, heard⟩)
  | killed s next link _ asks linked broken =>
      exact Or.inr (Or.inr (Or.inl ⟨s, next, asks, rfl⟩))
  | loop state _ again => exact Or.inr (Or.inr (Or.inr ⟨again, rfl, rfl⟩))

/-! ## The end -/

/-- A turn of the loop that is not the last one has read a line. -/
theorem ensures_shorter (notes : Programs.Notes) :
    (Programs.updater.loop ()).Ensures (fun _ _ => True) (Hears Replies)
      (fun stop later => stop = .inl () → later.cin.length < notes.cin.length) notes := by
  refine ⟨trivial, fun answer later heard => ?_⟩
  cases heard with
  | print =>
      refine ⟨trivial, fun answer later heard => ?_⟩
      cases heard with
      | getline =>
          cases next : Programs.nextLine notes.cin with
          | mk line rest =>
              cases line with
              | none => exact ⟨trivial, fun answer later heard impossible => by cases impossible⟩
              | some line =>
                  have shorter := Programs.length_rest_lt next
                  refine (Programs.ensures_length_cin_le _ _).mono ?_
                  exact fun stop last atMost _ => lt_of_le_of_lt atMost shorter

/-- Its own steps come to an end, whatever happens elsewhere. -/
abbrev ComesToRest : Conversation Unit → Prop :=
  Fairness.Settles (Inner Programs.updater) Outer

/-- What the surroundings do does not concern the updater. -/
theorem InLockstep.surroundings
    (inLockstep : InLockstep conversation)
    (steps : Relation.ReflTransGen Outer conversation later) :
    InLockstep later ∧ remaining later ≤ remaining conversation ∧
      later.talk = conversation.talk ∧ notes later = notes conversation := by
  induction steps with
  | refl => exact ⟨inLockstep, le_refl _, rfl, rfl⟩
  | tail _ step inductionHypothesis =>
      obtain ⟨before, fewer, talk, same⟩ := inductionHypothesis
      obtain ⟨lessLeft, sameTalk, sameNotes⟩ := remaining_outer step
      exact ⟨before.outer step, lessLeft.trans fewer, sameTalk.trans talk,
        sameNotes.trans same⟩

/-- Between two steps of the program only finitely many others are made. The induction is
on what remains to be done on the connection. -/
theorem InLockstep.comesToRest_of_advances
    {talk : Programs.Talk (Unit ⊕ Programs.Exit)}
    {before : Programs.Notes}
    (after : ∀ later, InLockstep later → Advances talk before later → ComesToRest later)
    (inLockstep : InLockstep conversation)
    (isTalk : conversation.talk = talk)
    (isNotes : notes conversation = before) :
    ComesToRest conversation := by
  generalize isRemaining : remaining conversation = left
  induction left using Nat.strong_induction_on generalizing conversation with
  | _ left fewer =>
    refine .intro fun middle later surroundings step => ?_
    obtain ⟨still, atMost, sameTalk, sameNotes⟩ := inLockstep.surroundings surroundings
    have next := still.inner step
    rcases still.inner_cases step with ⟨less, talk, notes⟩ | advances
    · exact fewer _ (isRemaining ▸ less.trans_le atMost) next
        (talk.trans (sameTalk.trans isTalk)) (notes.trans (sameNotes.trans isNotes)) rfl
    · rw [sameTalk, isTalk, sameNotes, isNotes] at advances
      exact after later next advances

/-- An updater that has exited does no more. -/
theorem InLockstep.comesToRest_of_exit
    (inLockstep : InLockstep conversation)
    {exit : Programs.Exit}
    (exited : conversation.talk = .result (.inr exit)) :
    ComesToRest conversation := by
  refine inLockstep.comesToRest_of_advances (fun later next advances => ?_) exited rfl
  rcases advances with ⟨_, _, _, asks, -⟩ | ⟨_, _, asks, -⟩ | ⟨again, -⟩
  · cases asks
  · cases asks
  · cases again

/-- The induction is on what the loop may still read, and then on what is left of the
dialogue. -/
theorem InLockstep.comesToRest
    (inLockstep : InLockstep conversation)
    (count : Nat)
    (shorter : conversation.talk.Ensures (fun _ _ => True) (Hears Replies)
      (fun stop later => stop = .inl () → later.cin.length < count) (notes conversation)) :
    ComesToRest conversation := by
  induction count using Nat.strong_induction_on generalizing conversation with
  | _ count turns =>
    generalize isTalk : conversation.talk = talk at shorter
    induction talk generalizing conversation with
    | result stop =>
        refine inLockstep.comesToRest_of_advances (fun later next advances => ?_) isTalk rfl
        rcases advances with ⟨call, rest, answer, asks, -, -⟩ | ⟨s, rest, asks, -⟩ |
          ⟨again, talk, same⟩
        · cases asks
        · cases asks
        · refine turns _ (shorter (Dialogue.result.inj again)) next ?_
          rw [talk, same]
          exact ensures_shorter _
    | ask call rest inductionHypothesis =>
        refine inLockstep.comesToRest_of_advances (fun later next advances => ?_) isTalk rfl
        rcases advances with ⟨other, others, answer, asks, talk, heard⟩ | ⟨s, others, -, killed⟩ |
          ⟨again, -, -⟩
        · obtain ⟨rfl, same⟩ := Dialogue.ask.inj asks
          obtain rfl := eq_of_heq same
          exact inductionHypothesis answer next talk (shorter.2 answer _ heard)
        · exact next.comesToRest_of_exit killed
        · cases again

/-- Whatever is typed and whatever the server and its other clients do, every fair run
of the updater with its session ends with the exit of the updater. -/
theorem updater_terminates
    {server : Server}
    {cin : Bytes}
    {run : Nat → Conversation Unit}
    (start : run 0 = initial Programs.updater server cin)
    (isRun : Fairness.IsRun (Inner Programs.updater) Outer run)
    (fair : Fairness.Fair (Inner Programs.updater) run) :
    ∃ time exit, (run time).talk = .result (.inr exit) := by
  have reachable : ∀ time, Reachable Programs.updater server (run time) := by
    intro time
    refine ⟨cin, ?_⟩
    induction time with
    | zero => exact start ▸ .refl
    | succ time inductionHypothesis =>
        rcases isRun time with inner | outer | same
        · exact inductionHypothesis.tail (Or.inr inner)
        · exact inductionHypothesis.tail (Or.inl outer)
        · exact same ▸ inductionHypothesis
  have settles : ComesToRest (run 0) := by
    apply (InLockstep.of_reachable (reachable 0)).comesToRest ((run 0).cin.length + 1)
    refine (Programs.ensures_length_cin_le _ _).mono ?_
    exact fun stop later atMost _ => Nat.lt_succ_of_le atMost
  obtain ⟨time, stuck⟩ := settles.eventually_stuck isRun fair
  by_contra never
  apply stuck
  apply (InLockstep.of_reachable (reachable time)).progresses (reachable time).exists_free
  exact fun exit exited => never ⟨time, exit, exited⟩

theorem updater_terminates_tea :
    ∃ run : Nat → Conversation Unit,
      run 0 = initial Programs.updater .initial
        (Programs.typing (teaLines ++ [ascii "quit"])) ∧
      Fairness.IsRun (Inner Programs.updater) Outer run ∧
      Fairness.Fair (Inner Programs.updater) run ∧
      (∃ time, (run time).received = [Programs.welcome, Updater.textOf .ok createdTea,
        Updater.textOf .ok (ascii "goodbye")]) ∧
      ∃ time exit, (run time).talk = .result (.inr exit) := by
  obtain ⟨s, quit, session, steps, exited, linked, live, closing, -, -, received⟩ := exists_quit
  obtain ⟨final, goesOn, same, isGone⟩ :=
    @exists_goesOn_destroyed _ Programs.updater quit _ linked 3 rfl session live _ closing
  have exitedStill : final.talk = .result (.inr (.status 0)) := same.talk.trans exited
  have stuck : ¬ ∃ later, Inner Programs.updater final later := by
    rintro ⟨later, step⟩
    cases step with
    | deliver bytes rest nonempty link _ isLinked inFlight =>
        obtain rfl := Option.some.inj (isLinked.symm.trans isGone)
        exact nonempty (List.append_eq_nil_iff.mp inFlight.symm).1
    | accept self infd room link _ isLinked pending =>
        obtain rfl := Option.some.inj (isLinked.symm.trans isGone)
        cases pending
    | session self session next server link _ isLinked accepted =>
        obtain rfl := Option.some.inj (isLinked.symm.trans isGone)
        cases accepted
    | destroyed self session how link _ isLinked accepted =>
        obtain rfl := Option.some.inj (isLinked.symm.trans isGone)
        cases accepted
    | call call next answer _ later asks => cases exitedStill.symm.trans asks
    | killed bytes next link _ asks => cases exitedStill.symm.trans asks
    | loop state _ again => cases exitedStill.symm.trans again
  have whole := steps.trans (goesOn.run same)
  obtain ⟨run, start, isRun, fair, last, isFinal⟩ :=
    @Fairness.exists_fair_run _ _ Outer _ _ whole stuck
  refine ⟨run, start, isRun, fair, ⟨last, ?_⟩, updater_terminates start isRun fair⟩
  rw [isFinal, same.received, received]

end Conversation
end OrderTracking
