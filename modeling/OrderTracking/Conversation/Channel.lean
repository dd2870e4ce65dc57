import OrderTracking.Conversation.Progress
import OrderTracking.Conversation.Threads

/-!
# The channel between a program and its session

No string is lost, repeated or split on a connection: the session takes the strings the
program has sent in order, and the program receives the strings the session has written
in order. All this is over sockets that deliver bytes in any pieces.
-/

namespace OrderTracking
namespace Conversation

open Framing (frame available)

variable {σ : Type} {kind : Message → Prop}

/-! ## The invariant -/

/-- What was and what will be delivered to a session are the frames of the strings it
has not taken, or the beginning of them after a reset. -/
structure Feeds (link : Link) (infd : Framing.Input) (pending : List Bytes) : Prop where
  delivered : available infd ++ link.inFlight <+: pending.flatMap frame
  whole : link.line = .opened → available infd ++ link.inFlight = pending.flatMap frame
  continues : link.line ≠ .reset → Framing.Continues infd
  lost : link.line = .reset → link.inFlight = []

/-- The session at the other end: how far it has come, what it has written and what it
is fed with. -/
structure Attached (kind : Message → Prop) (link : Link) (session : Session)
    (taken pending replies : List Bytes) (turns : List Updater.Processed) : Prop where
  progress : Progress kind session.phase taken replies turns
  written : session.client.out <+: replies.flatMap frame
  whole : session.phase.Open ∨ link.line = .opened →
    session.client.out = replies.flatMap frame
  unlimited : link.line = .opened → session.client.room = none
  feeds : session.phase.Open → Feeds link session.client.infd pending

/-- The session at the other end, if there is one. That of a pending connection is the one
the server loop would create for it. -/
def farSession (clients : ClientPtr → Option Session) : Far → Option Session
  | .pending infd room => some (.accepted infd room 0)
  | .client self => clients self
  | .gone => none

/-- What the program has received and can still read, when all replies fit into their
frames. -/
structure Reads (link : Link) (clients : ClientPtr → Option Session)
    (replies received : List Bytes) : Prop where
  inOrder : ∃ rest, replies = received ++ rest ∧ link.unread <+: rest.flatMap frame
  out : ∀ session, farSession clients link.far = some session →
    session.client.out = received.flatMap frame ++ link.unread

/-- The strings sent on a connection are taken in order, and the replies are received
in order. -/
structure Channel (kind : Message → Prop) (conversation : Conversation σ) (link : Link)
    (taken pending replies : List Bytes) : Prop where
  sent : conversation.sent = taken ++ pending
  history : History kind taken replies conversation.turns
  attached : link.far ≠ .gone → ∃ session,
    farSession conversation.system.clients link.far = some session ∧
      Attached kind link session taken pending replies conversation.turns
  reads : (∀ reply ∈ replies, reply.length ≤ 9998) →
    Reads link conversation.system.clients replies conversation.received

/-- Before there is a connection nothing is sent, and then there is a channel. -/
structure Channeled (kind : Message → Prop) (conversation : Conversation σ) : Prop where
  unlinked : conversation.link = none →
    conversation.sent = [] ∧ conversation.received = [] ∧ conversation.turns = []
  linked : ∀ link, conversation.link = some link →
    ∃ taken pending replies, Channel kind conversation link taken pending replies

variable {conversation later : Conversation σ} {link : Link}
variable {taken pending replies : List Bytes}

/-! ## The strings a session takes -/

/-- The string that is received is the next one that was sent. -/
theorem Feeds.next
    {infd rest : Framing.Input}
    (feeds : Feeds link infd pending)
    (lines : ∀ s ∈ pending, Programs.IsLine s)
    {raw : Bytes}
    (received : Framing.receive.run ⟨infd, []⟩ = .ok () ⟨rest, raw⟩) :
    ∃ more, pending = raw :: more ∧ Feeds link rest more := by
  obtain ⟨isShort, framed⟩ := Framing.framed_of_receive received
  have begins : available infd ++ link.inFlight =
      frame raw ++ (available rest ++ link.inFlight) := by
    rw [framed, List.append_assoc]
  have first : ∀ string more, pending = string :: more → string.length ≤ 9998 := by
    intro string more isCons
    by_contra long
    have whole := (List.prefix_append _ link.inFlight).trans feeds.delivered
    rw [isCons, List.flatMap_cons] at whole
    exact Framing.receive_overlong (lines string (by simp [isCons])) (not_le.mp long) whole
      received
  obtain ⟨more, isCons, delivered, whole⟩ :=
    Framing.take_frame isShort begins feeds.delivered first
  exact ⟨more, isCons, delivered, fun opened => whole (feeds.whole opened),
    fun notReset => (feeds.continues notReset).rest received, feeds.lost⟩

theorem Feeds.relink
    {infd : Framing.Input}
    (feeds : Feeds link infd pending)
    {next : Link}
    (inFlight : next.inFlight = link.inFlight)
    (line : next.line = link.line) :
    Feeds next infd pending :=
  ⟨inFlight ▸ feeds.delivered, by rw [inFlight, line]; exact feeds.whole,
    line ▸ feeds.continues, by rw [inFlight, line]; exact feeds.lost⟩

/-- A step of the session. -/
theorem Attached.session
    {session next : Session}
    {turns : List Updater.Processed}
    (attached : Attached kind link session taken pending replies turns)
    (sends : Sends kind session)
    (lines : ∀ s ∈ pending, Programs.IsLine s)
    {server final : Server}
    {self : ClientPtr}
    (step : Session.Step self server session final next)
    (relinked : Link)
    (inFlight : relinked.inFlight = link.inFlight)
    (line : relinked.line = link.line) :
    ∃ more rest given, pending = more ++ rest ∧
      Attached kind relinked next (taken ++ more) rest (replies ++ given)
        (turns ++ turnOf session server final) ∧
      session.client.out <+: next.client.out ∧
      (∀ response ∈ given, session.phase.Open) := by
  obtain ⟨more, given, moves, progress⟩ := attached.progress.step step sends
  have grows := step.grows
  have written : next.client.out <+: (replies ++ given).flatMap frame := by
    rw [List.flatMap_append]
    by_cases isOpen : session.phase.Open
    · exact attached.whole (Or.inl isOpen) ▸ moves.wrote.soFar
    · have soFar := moves.wrote.soFar
      rw [(moves.finished isOpen).2, List.flatMap_nil, List.append_nil] at soFar
      rw [(moves.finished isOpen).2, List.flatMap_nil, List.append_nil]
      exact soFar.trans attached.written
  have extended : session.client.out <+: next.client.out :=
    List.prefix_of_prefix_length_le (List.prefix_append _ _) moves.wrote.soFar grows.longer
  have whole : next.phase.Open ∨ relinked.line = .opened →
      next.client.out = (replies ++ given).flatMap frame := by
    rw [List.flatMap_append]
    rintro (isOpen | opened)
    · have wasOpen : session.phase.Open := by
        cases step <;> first | exact isOpen | trivial
      rw [moves.whole isOpen, attached.whole (Or.inl wasOpen)]
    · have opened : link.line = .opened := line ▸ opened
      rw [moves.wrote.whole (attached.unlimited opened), attached.whole (Or.inr opened)]
  have unlimited : relinked.line = .opened → next.client.room = none := fun opened =>
    grows.unlimited (attached.unlimited (line ▸ opened))
  have answers : ∀ response ∈ given, session.phase.Open := by
    intro response member
    by_contra notOpen
    rw [(moves.finished notOpen).2] at member
    cases member
  rcases moves.input with ⟨rfl, same⟩ | ⟨raw, rest, rfl, received, left⟩
  · refine ⟨[], pending, given, rfl, ⟨progress, written, whole, unlimited, ?_⟩, extended,
      answers⟩
    intro isOpen
    have wasOpen : session.phase.Open := by
      cases step <;> first | exact isOpen | trivial
    rw [same isOpen]
    exact (attached.feeds wasOpen).relink inFlight line
  · have wasOpen : session.phase.Open := by
      by_contra notOpen
      cases (moves.finished notOpen).1
    obtain ⟨remaining, rfl, feeds⟩ := (attached.feeds wasOpen).next lines received
    refine ⟨[raw], remaining, given, rfl, ⟨progress, written, whole, unlimited, ?_⟩,
      extended, answers⟩
    intro isOpen
    rw [left isOpen]
    exact feeds.relink inFlight line

/-! ## Steps -/

/-- Only the client at the other end matters. -/
theorem farSession_congr
    {clients others : ClientPtr → Option Session}
    {far : Far}
    (same : ∀ self, far = .client self → others self = clients self) :
    farSession others far = farSession clients far := by
  cases far with
  | pending => rfl
  | client self => exact same self rfl
  | gone => rfl

/-- What does not concern the connection. -/
theorem Channel.of_eq
    (channel : Channel kind conversation link taken pending replies)
    (sent : later.sent = conversation.sent)
    (received : later.received = conversation.received)
    (turns : later.turns = conversation.turns)
    (same : ∀ self, link.far = .client self →
      later.system.clients self = conversation.system.clients self) :
    Channel kind later link taken pending replies where
  sent := sent.trans channel.sent
  history := turns ▸ channel.history
  attached := by
    intro present
    obtain ⟨session, live, attached⟩ := channel.attached present
    exact ⟨session, (farSession_congr same).trans live, turns ▸ attached⟩
  reads := by
    intro short
    obtain ⟨inOrder, out⟩ := channel.reads short
    rw [received]
    refine ⟨inOrder, fun session live => ?_⟩
    rw [farSession_congr same] at live
    exact out session live

/-- What a change of its socket makes of the session at the other end. -/
theorem farSession_changeSession
    {change : Session → Session}
    (out : ∀ session, (change session).client.out = session.client.out)
    (phase : ∀ session, (change session).phase = session.phase)
    {changed : Option Session}
    (isChanged : farSession (conversation.changeSession link change).system.clients
      (link.far.change change) = changed) :
    (∀ session, farSession conversation.system.clients link.far = some session →
      ∃ next, changed = some next ∧ next.phase = session.phase ∧
        next.client.out = session.client.out ∧
        next.client.infd = (change session).client.infd ∧
        next.client.room = (change session).client.room) ∧
    ∀ next, changed = some next →
      ∃ session, farSession conversation.system.clients link.far = some session ∧
        next.client.out = session.client.out := by
  subst isChanged
  cases isFar : link.far with
  | pending infd room =>
      constructor
      · rintro _ ⟨⟩
        exact ⟨_, rfl, rfl, rfl, rfl, rfl⟩
      · rintro _ ⟨⟩
        exact ⟨_, rfl, rfl⟩
  | client self =>
      rw [changeSession_of_client isFar]
      simp only [farSession, Far.change, System.modifySession, Function.update_self]
      constructor
      · intro session live
        rw [live]
        exact ⟨_, rfl, phase session, out session, rfl, rfl⟩
      · intro next isNext
        obtain ⟨session, live, rfl⟩ := Option.map_eq_some_iff.mp isNext
        exact ⟨session, live, out session⟩
  | gone =>
      constructor
      · rintro _ ⟨⟩
      · rintro _ ⟨⟩

/-- A change of the socket of the session, and of the connection accordingly. -/
theorem Channel.changeSession
    (channel : Channel kind conversation link taken pending replies)
    {change : Session → Session}
    (next : Link)
    (far : next.far = link.far.change change)
    (unread : next.unread = link.unread)
    (line : next.line = .opened → link.line = .opened)
    (out : ∀ session, (change session).client.out = session.client.out)
    (phase : ∀ session, (change session).phase = session.phase)
    (room : next.line = .opened → ∀ session,
      (change session).client.room = session.client.room)
    (feeds : ∀ session, Feeds link session.client.infd pending →
      Feeds next (change session).client.infd pending) :
    Channel kind ((conversation.changeSession link change).setLink next) next taken pending
      replies := by
  obtain ⟨changes, changed⟩ :=
    @farSession_changeSession _ conversation link change out phase _ rfl
  refine ⟨channel.sent, channel.history, ?_, ?_⟩
  · intro present
    have wasPresent : link.far ≠ .gone := by
      intro gone
      rw [far, gone] at present
      exact present rfl
    obtain ⟨session, live, attached⟩ := channel.attached wasPresent
    obtain ⟨after, isLive, samePhase, sameOut, sameInfd, sameRoom⟩ := changes session live
    refine ⟨after, far ▸ isLive, ?_, ?_, ?_, ?_, ?_⟩
    · rw [samePhase]
      exact attached.progress
    · rw [sameOut]
      exact attached.written
    · rw [sameOut, samePhase]
      exact fun holds => attached.whole (holds.imp id line)
    · intro opened
      rw [sameRoom, room opened]
      exact attached.unlimited (line opened)
    · rw [samePhase, sameInfd]
      exact fun isOpen => feeds session (attached.feeds isOpen)
  · intro short
    obtain ⟨inOrder, written⟩ := channel.reads short
    refine ⟨unread ▸ inOrder, fun after isLive => ?_⟩
    rw [far] at isLive
    obtain ⟨session, live, sameOut⟩ := changed after isLive
    rw [sameOut, unread]
    exact written session live

theorem Channel.deliver
    (channel : Channel kind conversation link taken pending replies)
    {bytes rest : Bytes}
    (nonempty : bytes ≠ [])
    (inFlight : link.inFlight = bytes ++ rest) :
    Channel kind ((conversation.changeSession link
      (Session.deliver (.chunk bytes nonempty))).setLink
        { link with
          far := link.far.change (Session.deliver (.chunk bytes nonempty))
          inFlight := rest })
      { link with
        far := link.far.change (Session.deliver (.chunk bytes nonempty))
        inFlight := rest } taken pending replies := by
  refine channel.changeSession { link with far := _, inFlight := rest } rfl rfl id
    (fun _ => rfl) (fun _ => rfl) (fun _ _ => rfl) fun session feeds => ?_
  have notReset : link.line ≠ .reset := by
    intro reset
    rw [feeds.lost reset] at inFlight
    exact nonempty (List.append_eq_nil_iff.mp inFlight.symm).1
  have moved : available (session.client.infd ++ [.chunk bytes nonempty]) ++ rest =
      available session.client.infd ++ link.inFlight := by
    rw [feeds.continues notReset, inFlight, available, available, List.append_nil,
      List.append_assoc]
  exact ⟨moved ▸ feeds.delivered, fun opened => moved.trans (feeds.whole opened),
    fun notReset => (feeds.continues notReset).deliver nonempty,
    fun reset => absurd reset notReset⟩

theorem Channel.reset
    (channel : Channel kind conversation link taken pending replies)
    (room : Nat) :
    Channel kind ((conversation.changeSession link
      fun session => (session.deliver .failure).limit room).setLink
        { link with
          far := link.far.change fun session => (session.deliver .failure).limit room
          inFlight := []
          line := .reset })
      { link with
        far := link.far.change fun session => (session.deliver .failure).limit room
        inFlight := []
        line := .reset } taken pending replies := by
  refine channel.changeSession { link with far := _, inFlight := [], line := .reset } rfl
    rfl Line.noConfusion (fun _ => rfl) (fun _ => rfl) Line.noConfusion
    fun session feeds => ?_
  refine ⟨?_, Line.noConfusion, fun notReset => absurd rfl notReset, fun _ => rfl⟩
  change available (session.client.infd ++ [.failure]) ++ [] <+: _
  rw [Framing.available_append_failure, List.append_nil]
  exact (List.prefix_append _ _).trans feeds.delivered

theorem Channel.close
    (channel : Channel kind conversation link taken pending replies)
    (opened : link.line = .opened)
    (room : Nat) :
    Channel kind ((conversation.changeSession link (Session.limit room)).setLink
      { link with far := link.far.change (Session.limit room), line := .closed })
      { link with far := link.far.change (Session.limit room), line := .closed }
      taken pending replies := by
  refine channel.changeSession { link with far := _, line := .closed } rfl rfl
    Line.noConfusion (fun _ => rfl) (fun _ => rfl) Line.noConfusion fun session feeds => ?_
  exact ⟨feeds.delivered, Line.noConfusion,
    fun _ => feeds.continues (opened ▸ Line.noConfusion), Line.noConfusion⟩

/-- The pending connection is accepted. -/
theorem Channel.accept
    (channel : Channel kind conversation link taken pending replies)
    {self : ClientPtr}
    {infd : Framing.Input}
    {room : Option Nat}
    (isPending : link.far = .pending infd room)
    (sent : later.sent = conversation.sent)
    (received : later.received = conversation.received)
    (turns : later.turns = conversation.turns)
    {serial : Nat}
    (live : later.system.clients self = some (.accepted infd room serial)) :
    Channel kind later { link with far := .client self } taken pending replies := by
  have isSession : farSession conversation.system.clients link.far =
      some (.accepted infd room 0) := by
    rw [isPending]
    rfl
  refine ⟨sent.trans channel.sent, turns ▸ channel.history, fun _ => ?_, fun short => ?_⟩
  · obtain ⟨session, isLive, attached⟩ := channel.attached (isPending ▸ Far.noConfusion)
    obtain rfl := Option.some.inj (isSession.symm.trans isLive)
    exact ⟨_, live, turns ▸ attached.progress, attached.written, attached.whole,
      attached.unlimited, fun isOpen => (attached.feeds isOpen).relink rfl rfl⟩
  · obtain ⟨inOrder, out⟩ := channel.reads short
    rw [received]
    refine ⟨inOrder, fun session isLive => ?_⟩
    obtain rfl := Option.some.inj (live.symm.trans isLive)
    exact out (.accepted infd room 0) isSession

/-- The other end is gone. -/
theorem Channel.gone
    (channel : Channel kind conversation link taken pending replies)
    (sent : later.sent = conversation.sent)
    (received : later.received = conversation.received)
    (turns : later.turns = conversation.turns) :
    Channel kind later { link with far := .gone } taken pending replies := by
  refine ⟨sent.trans channel.sent, turns ▸ channel.history, fun present => absurd rfl present,
    fun short => ⟨?_, fun session impossible => by cases impossible⟩⟩
  rw [received]
  exact (channel.reads short).inOrder

/-- A step of the session: what it writes can be read after what it has written. -/
theorem Channel.session
    (channel : Channel kind conversation link taken pending replies)
    (lines : ∀ s ∈ conversation.sent, Programs.IsLine s)
    {self : ClientPtr}
    (accepted : link.far = .client self)
    {session next : Session}
    {final : Server}
    (live : conversation.system.clients self = some session)
    (sends : Sends kind session)
    (step : Session.Step self conversation.system.server session final next)
    {relinked : Link}
    (isRelinked : relinked = { link with
      unread := link.unread ++ next.client.out.drop session.client.out.length })
    (sent : later.sent = conversation.sent)
    (received : later.received = conversation.received)
    (turns : later.turns =
      conversation.turns ++ turnOf session conversation.system.server final)
    (isNext : later.system.clients self = some next) :
    ∃ taken pending replies, Channel kind later relinked taken pending replies := by
  have isSession : farSession conversation.system.clients link.far = some session := by
    rw [accepted]
    exact live
  have far : relinked.far = .client self := by rw [isRelinked, accepted]
  have isLater : farSession later.system.clients relinked.far = some next := by
    rw [far]
    exact isNext
  obtain ⟨other, isLive, attached⟩ := channel.attached (accepted ▸ Far.noConfusion)
  obtain rfl := Option.some.inj (isSession.symm.trans isLive)
  have pendingLines : ∀ s ∈ pending, Programs.IsLine s := fun s member =>
    lines s (channel.sent ▸ List.mem_append_right taken member)
  obtain ⟨more, rest, given, rfl, attached, extended, -⟩ := attached.session sends pendingLines step
    relinked (by rw [isRelinked]) (by rw [isRelinked])
  refine ⟨taken ++ more, rest, replies ++ given, ?_, ?_, ?_, ?_⟩
  · rw [sent, channel.sent, List.append_assoc]
  · rw [turns]
    exact attached.progress.history
  · exact fun _ => ⟨next, isLater, turns ▸ attached⟩
  · intro short
    obtain ⟨⟨unread, isReplies, -⟩, written⟩ := channel.reads fun reply member =>
      short reply (List.mem_append_left given member)
    have before := written session isSession
    have out : next.client.out = later.received.flatMap frame ++ relinked.unread := by
      obtain ⟨tail, isOut⟩ := extended
      rw [isRelinked, received, ← isOut, List.drop_left, ← List.append_assoc, ← before]
    refine ⟨⟨unread ++ given, ?_, ?_⟩, ?_⟩
    · rw [isReplies, received, List.append_assoc]
    · have soFar := attached.written
      rwa [out, isReplies, received, List.append_assoc, List.flatMap_append,
        List.prefix_append_right_inj] at soFar
    · intro session isSession
      rw [isLater] at isSession
      exact Option.some.inj isSession ▸ out

/-- A string is sent. -/
theorem Channel.send
    (channel : Channel kind conversation link taken pending replies)
    (s : Bytes)
    {next : Link}
    (isNext : next = { link with
      inFlight := if link.line = .opened then link.inFlight ++ frame s else link.inFlight })
    (sent : later.sent = conversation.sent ++ [s])
    (received : later.received = conversation.received)
    (turns : later.turns = conversation.turns)
    (system : later.system = conversation.system) :
    Channel kind later next taken (pending ++ [s]) replies := by
  have far : next.far = link.far := by rw [isNext]
  have line : next.line = link.line := by rw [isNext]
  have unread : next.unread = link.unread := by rw [isNext]
  have feeds : ∀ infd, Feeds link infd pending → Feeds next infd (pending ++ [s]) := by
    intro infd feeds
    have frames : (pending ++ [s]).flatMap frame = pending.flatMap frame ++ frame s := by simp
    by_cases opened : link.line = .opened
    · have whole := feeds.whole opened
      have inFlight : next.inFlight = link.inFlight ++ frame s := by
        rw [isNext, if_pos opened]
      have all : available infd ++ next.inFlight = (pending ++ [s]).flatMap frame := by
        rw [inFlight, ← List.append_assoc, whole, frames]
      refine ⟨all ▸ List.prefix_rfl, fun _ => all, line ▸ feeds.continues, ?_⟩
      rw [line, opened]
      exact Line.noConfusion
    · have inFlight : next.inFlight = link.inFlight := by rw [isNext, if_neg opened]
      refine ⟨?_, fun isOpened => absurd (line ▸ isOpened) opened, line ▸ feeds.continues, ?_⟩
      · rw [inFlight, frames]
        exact feeds.delivered.trans (List.prefix_append _ _)
      · rw [line, inFlight]
        exact feeds.lost
  refine ⟨?_, turns ▸ channel.history, ?_, ?_⟩
  · rw [sent, channel.sent, List.append_assoc]
  · intro present
    obtain ⟨session, live, attached⟩ := channel.attached (far ▸ present)
    refine ⟨session, by rw [system, far, live], turns ▸ attached.progress, attached.written,
      line ▸ attached.whole, line ▸ attached.unlimited, ?_⟩
    exact fun isOpen => feeds _ (attached.feeds isOpen)
  · intro short
    obtain ⟨inOrder, out⟩ := channel.reads short
    rw [received, system]
    refine ⟨unread ▸ inOrder, ?_⟩
    rw [far, unread]
    exact out

/-- What was read and received. -/
theorem Channel.relink
    (channel : Channel kind conversation link taken pending replies)
    {next : Link}
    {unread : Bytes}
    (isNext : next = { link with unread := unread })
    (sent : later.sent = conversation.sent)
    (turns : later.turns = conversation.turns)
    (system : later.system = conversation.system)
    (reads : (∀ reply ∈ replies, reply.length ≤ 9998) →
      Reads next conversation.system.clients replies later.received) :
    Channel kind later next taken pending replies where
  sent := sent.trans channel.sent
  history := turns ▸ channel.history
  attached := by
    subst isNext
    intro present
    obtain ⟨session, live, attached⟩ := channel.attached present
    exact ⟨session, system ▸ live, turns ▸ attached.progress, attached.written,
      attached.whole, attached.unlimited, fun isOpen => (attached.feeds isOpen).relink rfl rfl⟩
  reads := system ▸ reads

/-- A string is received. -/
theorem Reads.receive
    {clients : ClientPtr → Option Session}
    {received : List Bytes}
    (reads : Reads link clients replies received)
    (short : ∀ reply ∈ replies, reply.length ≤ 9998)
    {infd rest : Framing.Input}
    {s : Bytes}
    (delivers : available infd = link.unread)
    (ran : Framing.receive.run ⟨infd, []⟩ = .ok () ⟨rest, s⟩) :
    Reads { link with unread := available rest } clients replies (received ++ [s]) := by
  obtain ⟨⟨unread, rfl, delivered⟩, out⟩ := reads
  obtain ⟨isShort, framed⟩ := Framing.framed_of_receive ran
  have begins : link.unread = frame s ++ available rest := delivers ▸ framed
  obtain ⟨more, rfl, left, -⟩ := Framing.take_frame isShort begins delivered
    fun string more isCons => short string (by simp [isCons])
  refine ⟨⟨more, by simp, left⟩, fun session live => ?_⟩
  rw [out session live, begins]
  simp

/-- What can be read are whole frames: only their end is met. -/
theorem Reads.meetsEnd
    {clients : ClientPtr → Option Session}
    {received : List Bytes}
    (reads : Reads link clients replies received)
    (short : ∀ reply ∈ replies, reply.length ≤ 9998)
    {infd rest : Framing.Input}
    {s : Bytes}
    {exception : Exception}
    (unbroken : Framing.Unbroken infd)
    (delivers : available infd = link.unread)
    (ran : Framing.receive.run ⟨infd, []⟩ = .error exception ⟨rest, s⟩) :
    exception = .ioException "file ended early" ∧ rest = [] := by
  obtain ⟨⟨unread, rfl, delivered⟩, -⟩ := reads
  exact Framing.receive_error_of_frames unbroken
    (fun string member => short string (List.mem_append_right _ member))
    (delivers ▸ delivered) ran

/-- When nothing can be received the other end is gone. -/
theorem Reads.fail
    {clients : ClientPtr → Option Session}
    {received : List Bytes}
    (reads : Reads link clients replies received)
    (short : ∀ reply ∈ replies, reply.length ≤ 9998)
    {infd rest : Framing.Input}
    {s : Bytes}
    {exception : Exception}
    (unbroken : Framing.Unbroken infd)
    (delivers : available infd = link.unread)
    (ran : Framing.receive.run ⟨infd, []⟩ = .error exception ⟨rest, s⟩)
    (ended : exception = .ioException "file ended early" → link.far = .gone) :
    Reads { link with unread := available rest } clients replies received := by
  obtain ⟨isEnd, rfl⟩ := reads.meetsEnd short unbroken delivers ran
  obtain ⟨⟨unread, rfl, delivered⟩, out⟩ := reads
  refine ⟨⟨unread, rfl, List.nil_prefix⟩, fun session live => ?_⟩
  rw [show link.far = .gone from ended isEnd] at live
  cases live

theorem Channel.readsFrames
    (channel : Channel kind conversation link taken pending replies)
    (short : ∀ reply ∈ replies, reply.length ≤ 9998)
    {infd rest : Framing.Input}
    {s : Bytes}
    {exception : Exception}
    (unbroken : Framing.Unbroken infd)
    (delivers : available infd = link.unread)
    (ran : Framing.receive.run ⟨infd, []⟩ = .error exception ⟨rest, s⟩) :
    exception = .ioException "file ended early" :=
  ((channel.reads short).meetsEnd short unbroken delivers ran).1

/-- Whatever becomes of the channel, it is one afterwards. -/
theorem Channeled.of_linked
    (channeled : Channeled kind conversation)
    (linked : conversation.link = some link)
    {next : Link}
    (isNext : later.link = some next)
    (keeps : ∀ taken pending replies, Channel kind conversation link taken pending replies →
      ∃ taken pending replies, Channel kind later next taken pending replies) :
    Channeled kind later := by
  obtain ⟨taken, pending, replies, channel⟩ := channeled.linked link linked
  refine ⟨fun none => ?_, fun other isOther => ?_⟩
  · rw [isNext] at none
    cases none
  · rw [isNext] at isOther
    exact Option.some.inj isOther ▸ keeps taken pending replies channel

/-- What concerns neither the connection nor what was sent and received. -/
theorem Channeled.of_eq
    (channeled : Channeled kind conversation)
    (link : later.link = conversation.link)
    (sent : later.sent = conversation.sent)
    (received : later.received = conversation.received)
    (turns : later.turns = conversation.turns)
    (same : ∀ link self, conversation.link = some link → link.far = .client self →
      later.system.clients self = conversation.system.clients self) :
    Channeled kind later := by
  refine ⟨fun none => ?_, fun other isOther => ?_⟩
  · rw [sent, received, turns]
    exact channeled.unlinked (link ▸ none)
  · rw [link] at isOther
    obtain ⟨taken, pending, replies, channel⟩ := channeled.linked other isOther
    exact ⟨taken, pending, replies, channel.of_eq sent received turns
      fun self accepted => same other self isOther accepted⟩

/-- A call of the program. -/
theorem Channeled.answered
    (channeled : Channeled kind conversation)
    {call : Programs.Call}
    {answer : Programs.Answer call}
    (answered : Answered call conversation answer later) :
    Channeled kind later := by
  cases answered with
  | connected _ isUnlinked =>
      obtain ⟨sent, received, turns⟩ := channeled.unlinked isUnlinked
      refine ⟨fun impossible => (by cases impossible), ?_⟩
      rintro _ ⟨⟩
      refine ⟨[], [], [], sent, ?_, fun _ => ⟨_, rfl, ?_⟩, fun _ => ⟨⟨[], ?_, ?_⟩, ?_⟩⟩
      · rw [turns]
        exact .nothing
      · exact ⟨⟨rfl, rfl, turns⟩, List.nil_prefix, fun _ => rfl, fun _ => rfl,
          fun _ => ⟨List.nil_prefix, fun _ => rfl, fun _ => Framing.continues_nil,
            Line.noConfusion⟩⟩
      · rw [received]
        rfl
      · exact List.nil_prefix
      · rintro session ⟨⟩
        rw [received]
        rfl
  | sent s link _ linked =>
      exact channeled.of_linked linked rfl fun taken pending replies channel =>
        ⟨taken, pending ++ [s], replies, channel.send s rfl rfl rfl rfl rfl⟩
  | received s infd rest link _ linked delivers ran =>
      exact channeled.of_linked linked rfl fun taken pending replies channel =>
        ⟨taken, pending, replies, channel.relink rfl rfl rfl rfl
          fun short => (channel.reads short).receive short delivers ran⟩
  | receiveFailed exception infd rest s link _ linked unbroken delivers ran ended =>
      exact channeled.of_linked linked rfl fun taken pending replies channel =>
        ⟨taken, pending, replies, channel.relink rfl rfl rfl rfl
          fun short => (channel.reads short).fail short unbroken delivers ran ended⟩
  | close room link _ linked opened =>
      exact channeled.of_linked linked rfl fun taken pending replies channel =>
        ⟨taken, pending, replies, channel.close opened room⟩
  | getline => exact channeled.of_eq rfl rfl rfl rfl fun _ _ _ _ => rfl
  | print => exact channeled.of_eq rfl rfl rfl rfl fun _ _ _ _ => rfl
  | printError => exact channeled.of_eq rfl rfl rfl rfl fun _ _ _ _ => rfl
  | unconnected => exact channeled.of_eq rfl rfl rfl rfl fun _ _ _ _ => rfl
  | _ => exact channeled

theorem Channeled.outer
    (channeled : Channeled kind conversation)
    (step : Outer conversation later) :
    Channeled kind later := by
  cases step with
  | elsewhere other final _ different step =>
      exact channeled.of_eq rfl rfl rfl rfl fun link self linked accepted =>
        (step.modifySession (different link self linked accepted) id).1
  | acceptFailed => exact channeled
  | aborted infd room link _ linked pending reset =>
      exact channeled.of_linked linked rfl fun taken pending replies channel =>
        ⟨taken, pending, replies, channel.gone rfl rfl rfl⟩
  | reset room link _ linked opened =>
      exact channeled.of_linked linked rfl fun taken pending replies channel =>
        ⟨taken, pending, replies, channel.reset room⟩

/-- While the program only sends lines and the sessions only messages of the kind, every
step keeps the channel. -/
theorem Channeled.inner
    {program : Programs.Program σ}
    (channeled : Channeled kind conversation)
    (lines : ∀ s ∈ conversation.sent, Programs.IsLine s)
    (sends : ∀ self session, conversation.system.clients self = some session →
      Sends kind session)
    (step : Inner program conversation later) :
    Channeled kind later := by
  cases step with
  | deliver bytes rest nonempty link _ linked inFlight =>
      exact channeled.of_linked linked rfl fun taken pending replies channel =>
        ⟨taken, pending, replies, channel.deliver nonempty inFlight⟩
  | accept self infd room link _ linked isPending free =>
      exact channeled.of_linked linked rfl fun taken pending replies channel =>
        ⟨taken, pending, replies,
          channel.accept isPending rfl rfl rfl (Function.update_self ..)⟩
  | session self session next final link _ linked accepted live step waits =>
      exact channeled.of_linked linked rfl fun taken pending replies channel =>
        channel.session lines accepted live (sends _ _ live) step rfl rfl rfl rfl
          (Function.update_self ..)
  | destroyed self session how link _ linked accepted live destroyed =>
      exact channeled.of_linked linked rfl fun taken pending replies channel =>
        ⟨taken, pending, replies, channel.gone rfl rfl rfl⟩
  | call call next answer _ last asks answered =>
      exact (channeled.answered answered).of_eq rfl rfl rfl rfl fun _ _ _ _ => rfl
  | killed => exact channeled.of_eq rfl rfl rfl rfl fun _ _ _ _ => rfl
  | loop state _ again => exact channeled.of_eq rfl rfl rfl rfl fun _ _ _ _ => rfl

end Conversation
end OrderTracking
