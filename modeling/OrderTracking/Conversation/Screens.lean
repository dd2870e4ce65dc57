import OrderTracking.Conversation.Replicas
import OrderTracking.Conversation.Runs

/-!
# The display and the server

The display in conversation with the server. While ids last and every order fits into a
frame, however far the kitchen gets with it, all it receives are messages it accepts, in
the order in which its session sent them. What it shows and what is on the way to it are
the stored orders.
-/

namespace OrderTracking
namespace Conversation

open Framing (frame available)
open Programs (IsLine IsLogin Hears Tells Screens shownAfter DisplayPermits DisplayReplies
  DisplayStops Watching welcome)

variable {σ : Type} {program : Programs.Program σ}

/-! ## What a display is sent -/

/-- The message fits into a frame and comes back as one that a display accepts. -/
structure Presentable (msg : Message) : Prop where
  decodable : Decodable msg
  fits : FitsFrame msg
  shown : Display.Shown msg

theorem Presentable.tells
    {msg : Message}
    (presentable : Presentable msg)
    {s : Bytes}
    (encodes : (Wire.encode msg).run [] = .ok () s) :
    s.length ≤ 9998 ∧ Tells s msg := by
  refine ⟨presentable.fits s encodes, presentable.shown, ?_⟩
  obtain ⟨other, encoded, decodes⟩ := presentable.decodable [] .empty
  rw [encodes] at encoded
  cases encoded
  exact decodes

/-- Encodings tell the messages. -/
theorem tell_of_encodes
    {msgs : List Message}
    {encoded : List Bytes}
    (encodes : Session.Encodes msgs encoded)
    (presentable : ∀ msg ∈ msgs, Presentable msg) :
    (∀ s ∈ encoded, s.length ≤ 9998 ∧ ∃ msg, Tells s msg) ∧
      List.Forall₂ Tells encoded msgs := by
  induction encodes with
  | nil => exact ⟨by simp, .nil⟩
  | cons first _ inductionHypothesis =>
      obtain ⟨isShort, tells⟩ := (presentable _ List.mem_cons_self).tells first
      obtain ⟨each, tell⟩ := inductionHypothesis fun msg member =>
        presentable msg (List.mem_cons_of_mem _ member)
      exact ⟨List.forall_mem_cons.mpr ⟨⟨isShort, _, tells⟩, each⟩, .cons tells tell⟩

/-- Only the first string is no message. -/
theorem Channel.told
    {conversation : Conversation σ}
    {link : Link}
    {taken pending replies : List Bytes}
    (channel : Channel Presentable conversation link taken pending replies)
    (asked : ∀ s ∈ conversation.sent, IsLogin .display conversation.typed s)
    {first : Bytes}
    {rest : List Bytes}
    (isReplies : replies = first :: rest) :
    first ∈ Programs.loginResponses ∧
      ∀ s ∈ rest, s.length ≤ 9998 ∧ ∃ msg, Tells s msg := by
  obtain ⟨sent, history, -, -⟩ := channel
  generalize conversation.turns = turns at history
  cases history with
  | nothing => cases isReplies
  | denied raw _ expected =>
      rcases expected with rfl | ⟨response, judges, rfl⟩
      · cases isReplies
      · cases isReplies
        exact ⟨judges.1, by simp⟩
  | updater running _ _ _ updates =>
      obtain ⟨raw, _, granted, made, disciplined⟩ := updates
      have isLogin := asked raw (by rw [sent]; exact List.mem_cons_self)
      cases clientMode_of_isLogin (by simp) isLogin granted
  | display _ _ displays =>
      obtain ⟨raw, msgs, encoded, granted, encodes, presentable⟩ := displays
      cases isReplies
      exact ⟨List.mem_cons_self, (tell_of_encodes encodes presentable).1⟩

theorem Channel.short_of_told
    {conversation : Conversation σ}
    {link : Link}
    {taken pending replies : List Bytes}
    (channel : Channel Presentable conversation link taken pending replies)
    (asked : ∀ s ∈ conversation.sent, IsLogin .display conversation.typed s) :
    ∀ reply ∈ replies, reply.length ≤ 9998 := by
  cases replies with
  | nil => simp
  | cons first rest =>
      obtain ⟨isResponse, told⟩ := channel.told asked rfl
      exact List.forall_mem_cons.mpr
        ⟨short_of_loginResponses first isResponse, fun s member => (told s member).1⟩

/-! ## The server stays bounded -/

theorem Answered.broadcasts
    {conversation later : Conversation σ}
    {call : Programs.Call}
    {answer : Programs.Answer call}
    (answered : Answered call conversation answer later) :
    later.system.server.broadcasts = conversation.system.server.broadcasts := by
  cases answered with
  | close room link _ linked opened =>
      simp only [setLink, Conversation.changeSession]
      split <;> rfl
  | _ => rfl

/-- What was broadcast stays so. -/
theorem Step.broadcasts
    {conversation later : Conversation σ}
    (step : Step program conversation later) :
    conversation.system.server.broadcasts <+: later.system.server.broadcasts := by
  rcases step with outer | inner
  · cases outer with
    | elsewhere other final _ different step => exact step.broadcasts
    | acceptFailed => exact List.prefix_rfl
    | aborted => exact List.prefix_rfl
    | reset room link _ linked opened =>
        simp only [setLink, Conversation.changeSession]
        split <;> exact List.prefix_rfl
  · cases inner with
    | deliver bytes rest nonempty link _ linked inFlight =>
        simp only [setLink, Conversation.changeSession]
        split <;> exact List.prefix_rfl
    | session self session next final link _ linked accepted live step waits =>
        exact (System.Step.run session next final conversation.system live step).broadcasts
    | call call next answer _ last asks answered => exact answered.broadcasts ▸ List.prefix_rfl
    | _ => exact List.prefix_rfl

/-- What a session of a display has sent, and what it is about to send. -/
theorem Reachable.shows
    {conversation : Conversation σ}
    (reachable : Reachable program .initial conversation)
    (bounded : conversation.system.server.Bounded)
    {self : ClientPtr}
    {session : Session}
    (live : conversation.system.clients self = some session)
    {unsent : List Message}
    (sending : session.phase = .sending unsent) :
    ∃ sent encoded, (∀ msg ∈ sent ++ unsent, Presentable msg) ∧
      Session.Encodes sent encoded ∧
      session.client.out = (welcome :: encoded).flatMap frame ∧
      (∀ msg ∈ conversation.system.server.queues self, Display.Shown msg) ∧
      replay Display.apply ∅ (sent ++ unsent ++ conversation.system.server.queues self) =
        conversation.system.server.myOrders := by
  obtain ⟨system, threads, sameServer, sessions⟩ := reachable.exists_system
  obtain ⟨later, total, isLive⟩ := sessions self session live
  obtain ⟨sent, encoded, presents, encodes, writes, shown, upToDate⟩ :=
    (System.Replicating.of_reachable threads).shows isLive
      (show (session.foresee later total).phase = _ from sending)
  have sends := threads.sends isLive unsent sending
  rw [sameServer] at presents sends shown upToDate
  refine ⟨sent, encoded, fun msg member => ?_, encodes, writes, fun msg queued => ?_, upToDate⟩
  · have isShown := shown msg (List.mem_append_left _ member)
    rcases List.mem_append.mp member with isSent | isUnsent
    · obtain ⟨decodable, fits⟩ := presents msg isSent bounded
      exact ⟨decodable, fits, isShown⟩
    · obtain ⟨decodable, fits⟩ := sends msg isUnsent bounded
      exact ⟨decodable, fits, isShown⟩
  · exact shown msg (List.mem_append_right _ queued)

theorem Reachable.sends
    {conversation : Conversation σ}
    (reachable : Reachable program .initial conversation)
    (bounded : conversation.system.server.Bounded)
    (self : ClientPtr)
    (session : Session)
    (live : conversation.system.clients self = some session) :
    Sends Presentable session := by
  intro unsent phase msg member
  obtain ⟨sent, encoded, presentable, -⟩ := reachable.shows bounded live phase
  exact presentable msg (List.mem_append_right sent member)

/-! ## The invariant -/

/-- The display will do no more than it ensures. -/
structure InView (conversation : Conversation OrderMap) : Prop where
  channeled : Channeled Presentable conversation
  asked : ∀ s ∈ conversation.sent, IsLogin .display conversation.typed s
  ensures : Ensured DisplayPermits DisplayReplies DisplayStops conversation

variable {conversation later : Conversation OrderMap} {link : Link}
variable {taken pending replies : List Bytes}

/-- The calls of the display get answers as expected. -/
theorem InView.hears
    (inView : InView conversation)
    {call : Programs.Call}
    {answer : Programs.Answer call}
    (permits : DisplayPermits call (notes conversation))
    (answered : Answered call conversation answer later) :
    Hears DisplayReplies call (notes conversation) answer (notes later) := by
  apply hears_of_answered answered
  · rintro -
    intro link infd rest s exception linked unbroken delivers ran
    obtain ⟨taken, pending, replies, channel⟩ := inView.channeled.linked link linked
    exact channel.readsFrames (channel.short_of_told inView.asked) unbroken delivers ran
  · rintro link infd rest s rfl linked delivers ran
    obtain ⟨taken, pending, replies, channel⟩ := inView.channeled.linked link linked
    have short := channel.short_of_told inView.asked
    obtain ⟨⟨more, isReplies, -⟩, -⟩ := (channel.reads short).receive short delivers ran
    rw [List.append_assoc, List.singleton_append] at isReplies
    simp only [DisplayReplies, notes]
    generalize conversation.received = received at isReplies ⊢
    cases received with
    | nil => exact (channel.told inView.asked isReplies).1
    | cons first received =>
        obtain ⟨-, told⟩ := channel.told inView.asked isReplies
        exact (told s (by simp)).2

theorem InView.outer
    (inView : InView conversation)
    (step : Outer conversation later) :
    InView later := by
  have channeled := inView.channeled.outer step
  have ensures := inView.ensures.outer step
  cases step with
  | _ => exact ⟨channeled, inView.asked, ensures⟩

/-- While the sessions only send what can be presented, every step keeps the display in
view. -/
theorem InView.inner
    (inView : InView conversation)
    (sends : ∀ self session, conversation.system.clients self = some session →
      Sends Presentable session)
    (step : Inner Programs.display conversation later) :
    InView later := by
  have lines : ∀ s ∈ conversation.sent, IsLine s := fun s member =>
    (inView.asked s member).isLine
  have channeled := inView.channeled.inner lines sends step
  have ensures := inView.ensures.inner Programs.ensures_display_loop
    Programs.displayStops_killed inView.hears step
  have typed : later.typed = conversation.typed := Step.typed (Or.inr step)
  obtain ⟨-, sent⟩ := inView.ensures.sent_received step
  refine ⟨channeled, fun s member => ?_, ensures⟩
  rw [typed]
  rcases sent with same | ⟨last, permits, isSent⟩
  · exact inView.asked s (same ▸ member)
  · rcases List.mem_append.mp (isSent ▸ member) with earlier | new
    · exact inView.asked s earlier
    · rw [List.mem_singleton.mp new]
      exact permits.2.2.2

theorem InView.of_reachable
    (reachable : Reachable Programs.display .initial conversation)
    (bounded : conversation.system.server.Bounded) :
    InView conversation := by
  obtain ⟨cin, steps⟩ := reachable
  induction steps with
  | refl =>
      refine ⟨⟨fun _ => ⟨rfl, rfl, rfl⟩, fun link linked => ?_⟩, fun s member => ?_, ?_⟩
      · cases linked
      · cases member
      · exact Programs.ensures_display_start ⟨List.nil_prefix, rfl, rfl, rfl⟩ rfl rfl rfl
  | tail steps last inductionHypothesis =>
      have earlier := bounded.of_prefix last.broadcasts
      have inView := inductionHypothesis earlier
      exact last.elim inView.outer (inView.inner (Reachable.sends ⟨cin, steps⟩ earlier))

/-! ## Results -/

/-- What was received and what can still be read are the response to the login and the
encodings of the messages the session has sent. -/
theorem InView.delivers
    (inView : InView conversation)
    (linked : conversation.link = some link)
    {self : ClientPtr}
    (accepted : link.far = .client self)
    {session : Session}
    (live : conversation.system.clients self = some session)
    {unsent : List Message}
    (sending : session.phase = .sending unsent)
    {sent : List Message}
    {encoded : List Bytes}
    (presentable : ∀ msg ∈ sent, Presentable msg)
    (encodes : Session.Encodes sent encoded)
    (writes : session.client.out = (welcome :: encoded).flatMap frame) :
    ∃ rest, conversation.received ++ rest = welcome :: encoded ∧
      link.unread = rest.flatMap frame ∧ List.Forall₂ Tells encoded sent := by
  obtain ⟨taken, pending, replies, channel⟩ := inView.channeled.linked link linked
  obtain ⟨other, isLive, attached⟩ := channel.attached (accepted ▸ Far.noConfusion)
  rw [accepted] at isLive
  obtain rfl := Option.some.inj (live.symm.trans isLive)
  have short := channel.short_of_told inView.asked
  obtain ⟨⟨rest, isReplies, -⟩, out⟩ := channel.reads short
  obtain ⟨each, tell⟩ := tell_of_encodes encodes presentable
  have whole : session.client.out = replies.flatMap frame := by
    apply attached.whole
    rw [sending]
    exact Or.inl trivial
  have same : replies = welcome :: encoded := by
    refine Framing.flatMap_frame_inj short ?_ (whole.symm.trans writes)
    exact List.forall_mem_cons.mpr ⟨short_of_loginResponses welcome List.mem_cons_self,
      fun s member => (each s member).1⟩
  refine ⟨rest, isReplies.symm.trans same, ?_, tell⟩
  rw [out session (accepted ▸ live), isReplies, List.flatMap_append] at whole
  exact List.append_cancel_left whole

/-- The screen is behind by what is on its way. -/
theorem InView.viewing
    (inView : InView conversation) :
    Programs.Viewing (notes conversation) := by
  refine inView.ensures.always (fun call notes permits => permits.1) ?_
  rintro (orders | exit) notes stops
  · exact Watching.viewing stops
  · exact stops.1

/-- How far the display is behind. Its last screen shows the orders after the first messages
that its session has sent. The rest of them have been received and are about to be shown, or
can still be read; receiving them and what is still waiting gives the stored orders. -/
def Behind (out unread : Bytes) (waiting : List Message)
    (conversation : Conversation OrderMap) : Prop :=
  ∃ strings msgs pending later rest,
    Screens strings msgs conversation.cout ∧
    Session.Encodes (msgs ++ pending) (strings ++ later) ∧
    out = (welcome :: (strings ++ later)).flatMap frame ∧
    conversation.received ++ rest = welcome :: (strings ++ later) ∧
    conversation.received.length ≤ strings.length + 2 ∧
    unread = rest.flatMap frame ∧
    (Display.receive (pending ++ waiting)).run (shownAfter msgs) =
      .ok () conversation.system.server.myOrders

theorem InView.isBehind
    (inView : InView conversation)
    (reachable : Reachable Programs.display .initial conversation)
    (bounded : conversation.system.server.Bounded)
    (linked : conversation.link = some link)
    {self : ClientPtr}
    (accepted : link.far = .client self)
    {session : Session}
    (live : conversation.system.clients self = some session)
    {unsent : List Message}
    (sending : session.phase = .sending unsent) :
    Behind session.client.out link.unread (unsent ++ conversation.system.server.queues self)
      conversation := by
  obtain ⟨sent, encoded, presentable, encodes, writes, queued, upToDate⟩ :=
    reachable.shows bounded live sending
  have isPresentable := fun msg member => presentable msg (List.mem_append_left unsent member)
  obtain ⟨rest, received, unread, -⟩ :=
    inView.delivers linked accepted live sending isPresentable encodes writes
  obtain ⟨strings, msgs, screens, soFar, few⟩ := inView.viewing
  obtain ⟨later, rfl⟩ : strings <+: encoded := by
    refine soFar.trans ?_
    change conversation.received.tail <+: encoded
    cases isReceived : conversation.received with
    | nil => exact List.nil_prefix
    | cons first others =>
        rw [isReceived, List.cons_append] at received
        exact ⟨rest, (List.cons.inj received).2⟩
  -- the messages sent first are those of the screen
  have first := List.forall₂_take_append sent strings later encodes
  have isFirst : msgs = sent.take strings.length :=
    Programs.Tells.unique screens.tells (tell_of_encodes first fun msg member =>
      isPresentable msg (List.mem_of_mem_take member)).2
  have split : sent = msgs ++ sent.drop strings.length := by
    rw [isFirst, List.take_append_drop]
  refine ⟨strings, msgs, _, later, rest, screens, split ▸ encodes, writes, received, ?_, unread,
    ?_⟩
  · simp only [notes, List.length_tail] at few
    omega
  · rw [← List.append_assoc, Display.receive_run, ← upToDate, ← replay_append,
      ← List.append_assoc, ← List.append_assoc, ← split]
    intro msg member
    rcases List.mem_append.mp member with isSent | isQueued
    · refine (presentable msg ?_).shown
      rcases List.mem_append.mp isSent with isPending | isUnsent
      · exact List.mem_append_left _ (List.mem_of_mem_drop isPending)
      · exact List.mem_append_right _ isUnsent
    · exact queued msg isQueued

/-- At any time, the display has shown all it has received, apart from one message. While its
session sends, what it shows and what is on its way to it are the stored orders. -/
theorem display_isBehind
    (reachable : Reachable Programs.display .initial conversation)
    (bounded : conversation.system.server.Bounded) :
    Programs.Viewing (notes conversation) ∧
    ∀ link self session unsent, conversation.link = some link → link.far = .client self →
      conversation.system.clients self = some session → session.phase = .sending unsent →
      Behind session.client.out link.unread (unsent ++ conversation.system.server.queues self)
        conversation := by
  have inView := InView.of_reachable reachable bounded
  exact ⟨inView.viewing, fun link self session unsent linked accepted live sending =>
    inView.isBehind reachable bounded linked accepted live sending⟩

/-- The messages about a tea that is begun are few and short. -/
theorem bounded_of_tea
    {server : Server}
    (broadcasts : server.broadcasts =
      [.ofOrder .dispOrder (some System.storedTea),
        .ofItemStatus .dispItemUpdate 1000 1 .inProgress,
        .ofOrderStatus .dispOrderUpdate 1000 .inProgress]) :
    server.Bounded where
  few := by
    rw [Server.ordersCreated, broadcasts]
    decide
  fit := by
    intro order member
    rw [broadcasts] at member
    simp only [List.mem_cons, List.not_mem_nil, or_false] at member
    rcases member with same | same | same <;> cases same
    decide

theorem display_isBehind_tea :
    ∃ (conversation : Conversation OrderMap) (session : Session),
      conversation.link = some ⟨.client 7, [], frame System.shownTea, .opened⟩ ∧
      conversation.system.clients 7 = some session ∧
      conversation.system.server.myOrders.lookup 1000 = some System.begunTea ∧
      Programs.Viewing (notes conversation) ∧
      Behind session.client.out (frame System.shownTea)
        ([.ofItemStatus .dispItemUpdate 1000 1 .inProgress] ++
          conversation.system.server.queues 7) conversation ∧
      conversation.system.server.queues 7 =
        [.ofOrderStatus .dispOrderUpdate 1000 .inProgress] := by
  obtain ⟨behind, session, run, linked, live, sending, queued, stored, broadcasts, -⟩ :=
    exists_behind []
  obtain ⟨viewing, isBehind⟩ := display_isBehind ⟨_, run⟩ (bounded_of_tea broadcasts)
  exact ⟨{ behind with talk := .result (.inl ∅) }, session, linked, live, stored, viewing,
    isBehind _ 7 session _ linked rfl live sending, queued⟩

end Conversation
end OrderTracking
