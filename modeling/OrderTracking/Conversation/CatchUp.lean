import OrderTracking.Conversation.Screens

/-!
# Displays catch up

However far it is behind, the display and its session get by their own steps to a screen
with the stored orders: nothing that is on its way is ever stuck.
-/

namespace OrderTracking

/-- The session serves a display that has logged in. -/
def Phase.ServesDisplay : Phase → Prop
  | .registering | .copying | .sending _ => True
  | .accepted | .login | .updater | .closing _ | .unregistered _ => False

namespace Conversation

open Framing (frame)
open Programs (Tells Watching welcome)

variable {conversation : Conversation OrderMap} {link : Link}

/-! ## The session -/

/-- The session can register the display and copy the orders. -/
theorem exists_copied
    (linked : conversation.link = some link)
    {self : ClientPtr}
    (accepted : link.far = .client self)
    {session : Session}
    (live : conversation.system.clients self = some session)
    (serves : session.phase.ServesDisplay) :
    ∃ later next unsent, GoesOn Programs.display conversation later ∧
      SameProgram conversation later ∧
      later.system.server.myOrders = conversation.system.server.myOrders ∧
      later.system.server.broadcasts = conversation.system.server.broadcasts ∧
      later.link = some link ∧ later.system.clients self = some next ∧
      next.phase = .sending unsent := by
  have copies : ∀ {conversation : Conversation OrderMap} {client origin : Client} {serial : Nat},
      conversation.link = some link →
      conversation.system.clients self = some ⟨client, .copying, origin, serial⟩ →
      ∃ later next unsent, GoesOn Programs.display conversation later ∧
        SameProgram conversation later ∧
        later.system.server = conversation.system.server ∧
        later.link = some link ∧ later.system.clients self = some next ∧
        next.phase = .sending unsent := by
    intro conversation client origin serial linked live
    obtain ⟨orders, isSnapshot⟩ : ∃ orders,
        Server.IsSnapshot orders conversation.system.server :=
      ⟨_, Multiset.coe_toList _⟩
    obtain ⟨later, goesOn, same, server, isLinked, isLive⟩ :=
      @exists_goesOn_silently _ Programs.display conversation link linked self accepted _ _ live
        _ (.snapshot orders client origin serial _ isSnapshot) (fun ended => by cases ended) rfl
    exact ⟨later, _, _, goesOn, same, server, isLinked, isLive, rfl⟩
  obtain ⟨client, phase, origin, serial⟩ := session
  cases phase with
  | sending unsent =>
      exact ⟨conversation, _, unsent, fun _ => .refl, ⟨rfl, rfl, rfl, rfl, rfl, rfl, rfl⟩, rfl,
        rfl, linked, live, rfl⟩
  | copying =>
      obtain ⟨later, next, unsent, goesOn, same, server, rest⟩ := copies linked live
      exact ⟨later, next, unsent, goesOn, same, server ▸ rfl, server ▸ rfl, rest⟩
  | registering =>
      obtain ⟨middle, registers, same, registered, isLinked, isLive⟩ :=
        @exists_goesOn_silently _ Programs.display conversation link linked self accepted _ _
          live _ (.register client origin serial _ _ rfl) (fun ended => by cases ended) rfl
      obtain ⟨later, next, unsent, goesOn, stillSame, server, rest⟩ := copies isLinked isLive
      rw [registered] at server
      exact ⟨later, next, unsent, registers.trans goesOn, same.trans stillSame, server ▸ rfl,
        server ▸ rfl, rest⟩
  | _ => exact serves.elim

/-- How many steps the session takes until it has sent everything. -/
def backlog (self : ClientPtr) (unsent : List Message) (server : Server) : Nat :=
  unsent.length + 2 * (server.queues self).length

/-- While it has something to send, the session can go on sending. -/
theorem exists_sending_step
    (reachable : Reachable Programs.display .initial conversation)
    (bounded : conversation.system.server.Bounded)
    (linked : conversation.link = some link)
    {self : ClientPtr}
    (accepted : link.far = .client self)
    (opened : link.line = .opened)
    {session : Session}
    (live : conversation.system.clients self = some session)
    {unsent : List Message}
    (sending : session.phase = .sending unsent)
    (behind : 0 < backlog self unsent conversation.system.server) :
    ∃ next final rest, Session.Step self conversation.system.server session final next ∧
      next.phase = .sending rest ∧
      final.myOrders = conversation.system.server.myOrders ∧
      final.broadcasts = conversation.system.server.broadcasts ∧
      backlog self rest final < backlog self unsent conversation.system.server := by
  obtain ⟨client, phase, origin, serial⟩ := session
  obtain rfl : phase = .sending unsent := sending
  cases unsent with
  | nil =>
      cases queued : conversation.system.server.queues self with
      | nil => simp [backlog, queued] at behind
      | cons msg queue =>
          refine ⟨_, _, _, .dequeue_of_queued queued, rfl, rfl, rfl, ?_⟩
          simp [backlog, queued]
          omega
  | cons msg rest =>
      obtain ⟨taken, pending, replies, channel⟩ :=
        (InView.of_reachable reachable bounded).channeled.linked link linked
      obtain ⟨other, isLive, attached⟩ := channel.attached (accepted ▸ Far.noConfusion)
      rw [accepted] at isLive
      obtain rfl := Option.some.inj (live.symm.trans isLive)
      obtain ⟨sent, encoded, presentable, -⟩ := reachable.shows bounded live rfl
      obtain ⟨s, encodes, -⟩ := (presentable msg (by simp)).decodable [] .empty
      obtain ⟨next, step, -⟩ :=
        Session.Step.exists_send encodes (attached.unlimited opened) rest
      exact ⟨_, _, _, step, rfl, rfl, rfl, by simp [backlog]⟩

/-- The session can send everything, also what is queued for it. -/
theorem exists_drained
    (reachable : Reachable Programs.display .initial conversation)
    (bounded : conversation.system.server.Bounded)
    (linked : conversation.link = some link)
    {self : ClientPtr}
    (accepted : link.far = .client self)
    (opened : link.line = .opened)
    {session : Session}
    (live : conversation.system.clients self = some session)
    {unsent : List Message}
    (sending : session.phase = .sending unsent) :
    ∃ later next unread, GoesOn Programs.display conversation later ∧
      SameProgram conversation later ∧
      later.system.server.myOrders = conversation.system.server.myOrders ∧
      later.system.server.broadcasts = conversation.system.server.broadcasts ∧
      later.link = some { link with unread := unread } ∧
      later.system.clients self = some next ∧ next.phase = .sending [] ∧
      later.system.server.queues self = [] := by
  generalize isBacklog : backlog self unsent conversation.system.server = count
  induction count using Nat.strong_induction_on
    generalizing conversation link session unsent with
  | _ count inductionHypothesis =>
    by_cases behind : 0 < count
    · obtain ⟨next, final, rest, step, sends, orders, broadcasts, less⟩ :=
        exists_sending_step reachable bounded linked accepted opened live sending
          (isBacklog ▸ behind)
      obtain ⟨middle, goesOn, same, server, isLinked, isLive⟩ :=
        @exists_goesOn_session _ Programs.display _ _ linked _ accepted _ _ live _ step
          fun ended => by
            rw [MetEnd, sends] at ended
            cases ended
      subst server
      obtain ⟨later, last, unread, goes, stillSame, orders', broadcasts', done⟩ :=
        inductionHypothesis _ (isBacklog ▸ less) (reachable.all (goesOn.run same))
          (bounded.of_prefix (broadcasts ▸ List.prefix_rfl)) isLinked accepted opened isLive
          sends rfl
      exact ⟨later, last, unread, goesOn.trans goes, same.trans stillSame,
        orders'.trans orders, broadcasts'.trans broadcasts, done⟩
    · obtain ⟨nothing, drained⟩ :
          unsent = [] ∧ conversation.system.server.queues self = [] := by
        have isZero : unsent.length + 2 * (conversation.system.server.queues self).length =
            0 := by
          rw [← backlog]
          omega
        exact ⟨List.length_eq_zero_iff.mp (by omega), List.length_eq_zero_iff.mp (by omega)⟩
      exact ⟨conversation, session, link.unread, fun _ => .refl,
        ⟨rfl, rfl, rfl, rfl, rfl, rfl, rfl⟩, rfl, rfl, linked, live, nothing ▸ sending, drained⟩

/-! ## The display -/

/-- The display and its session can get to where everything has been sent and read. -/
theorem exists_caughtUp
    (reachable : Reachable Programs.display .initial conversation)
    (bounded : conversation.system.server.Bounded)
    (linked : conversation.link = some link)
    {self : ClientPtr}
    (accepted : link.far = .client self)
    (opened : link.line = .opened)
    {session : Session}
    (live : conversation.system.clients self = some session)
    (serves : session.phase.ServesDisplay)
    {orders : OrderMap}
    (talk : conversation.talk = .result (.inl orders)) :
    ∃ later next shown, Relation.ReflTransGen (Inner Programs.display) conversation later ∧
      later.talk = .result (.inl shown) ∧
      later.system.server.myOrders = conversation.system.server.myOrders ∧
      later.system.server.broadcasts = conversation.system.server.broadcasts ∧
      later.link = some { link with unread := [] } ∧
      later.system.clients self = some next ∧ next.phase = .sending [] ∧
      later.system.server.queues self = [] := by
  obtain ⟨copied, _, unsent, copies, same, copiedOrders, copiedBroadcasts, linked, live,
    sending⟩ := exists_copied linked accepted live serves
  have reachable := reachable.all (copies.run same)
  have bounded : copied.system.server.Bounded :=
    bounded.of_prefix (copiedBroadcasts ▸ List.prefix_rfl)
  obtain ⟨middle, next, unread, drains, stillSame, sameOrders, broadcasts, isLinked, isLive,
    sends, drained⟩ := exists_drained reachable bounded linked accepted opened live sending
  have reachable := reachable.all (drains.run stillSame)
  have bounded : middle.system.server.Bounded :=
    bounded.of_prefix (broadcasts ▸ List.prefix_rfl)
  have inView := InView.of_reachable reachable bounded
  obtain ⟨sent, encoded, presentable, encodes, writes, -⟩ :=
    reachable.shows bounded isLive sends
  rw [List.append_nil] at presentable
  obtain ⟨rest, received, isUnread, -⟩ :=
    inView.delivers isLinked accepted isLive sends presentable encodes writes
  -- the response to the login has been read, so only messages are left
  have isTalk : middle.talk = .result (.inl orders) :=
    stillSame.talk.trans (same.talk.trans talk)
  have watching : Watching orders (notes middle) := by
    have ensures := inView.ensures
    rwa [Ensured, isTalk] at ensures
  obtain ⟨others, isCons⟩ := watching.cons
  have told : ∀ s ∈ rest, s.length ≤ 9998 ∧ ∃ msg, Tells s msg := by
    rw [show middle.received = _ from isCons] at received
    obtain ⟨-, isEncoded⟩ := List.cons.inj received
    intro s member
    exact (tell_of_encodes encodes presentable).1 s
      (isEncoded ▸ List.mem_append_right others member)
  obtain ⟨shown, later, reads, system, read, -⟩ :=
    exists_read isLinked told isUnread orders
  rw [← isTalk] at reads
  have goes := (copies.trans drains).run (same.trans stillSame)
  exact ⟨{ later with talk := .result (.inl shown) }, next, shown, goes.trans reads, rfl,
    system ▸ sameOrders.trans copiedOrders, system ▸ broadcasts.trans copiedBroadcasts, read,
    system ▸ isLive, sends, system ▸ drained⟩

/-- Once everything has been sent and read, the display has the stored orders. -/
theorem InView.orders_eq
    (inView : InView conversation)
    (reachable : Reachable Programs.display .initial conversation)
    (bounded : conversation.system.server.Bounded)
    (linked : conversation.link = some link)
    {self : ClientPtr}
    (accepted : link.far = .client self)
    {session : Session}
    (live : conversation.system.clients self = some session)
    (sending : session.phase = .sending [])
    (drained : conversation.system.server.queues self = [])
    (read : link.unread = [])
    {orders : OrderMap}
    (watching : Watching orders (notes conversation)) :
    orders = conversation.system.server.myOrders := by
  obtain ⟨sent, encoded, presentable, encodes, writes, -, upToDate⟩ :=
    reachable.shows bounded live sending
  rw [List.append_nil] at presentable
  obtain ⟨rest, received, unread, tell⟩ :=
    inView.delivers linked accepted live sending presentable encodes writes
  obtain rfl := Framing.flatMap_frame_eq_nil (unread.symm.trans read)
  rw [List.append_nil] at received
  obtain ⟨msgs, screens, isShown⟩ := watching.screens
  rw [notes, received, List.tail_cons] at screens
  rw [drained, List.append_nil, List.append_nil] at upToDate
  rw [isShown, Programs.Tells.unique screens.tells tell, Programs.shownAfter, upToDate]

theorem InView.shows
    (inView : InView conversation)
    (reachable : Reachable Programs.display .initial conversation)
    (bounded : conversation.system.server.Bounded)
    (linked : conversation.link = some link)
    {self : ClientPtr}
    (accepted : link.far = .client self)
    {session : Session}
    (live : conversation.system.clients self = some session)
    (sending : session.phase = .sending [])
    (drained : conversation.system.server.queues self = [])
    (read : link.unread = [])
    {orders : OrderMap}
    (waits : conversation.talk = .result (.inl orders) ∨
      conversation.talk = Programs.display.loop orders) :
    Programs.screen conversation.system.server.myOrders <:+ conversation.cout := by
  obtain ⟨orders, watching⟩ : ∃ orders, Watching orders (notes conversation) := by
    have ensures := inView.ensures
    rcases waits with talk | talk
    · rw [Ensured, talk] at ensures
      exact ⟨orders, ensures⟩
    · -- it has logged in, since the response has been read
      obtain ⟨⟨-, -, nothing | watching⟩, -⟩ := ensures.call (talk.trans rfl)
      · obtain ⟨sent, encoded, presentable, encodes, writes, -⟩ :=
          reachable.shows bounded live sending
        rw [List.append_nil] at presentable
        obtain ⟨rest, received, unread, -⟩ :=
          inView.delivers linked accepted live sending presentable encodes writes
        obtain rfl := Framing.flatMap_frame_eq_nil (unread.symm.trans read)
        rw [show conversation.received = [] from nothing] at received
        cases received
      · exact watching
  rw [← inView.orders_eq reachable bounded linked accepted live sending drained read watching]
  exact watching.current

/-! ## Results -/

/-- Once everything has been sent and read, and the display waits for more, its last screen
shows the stored orders. -/
theorem display_shows
    (reachable : Reachable Programs.display .initial conversation)
    (bounded : conversation.system.server.Bounded)
    (linked : conversation.link = some link)
    {self : ClientPtr}
    (accepted : link.far = .client self)
    {session : Session}
    (live : conversation.system.clients self = some session)
    (sending : session.phase = .sending [])
    (drained : conversation.system.server.queues self = [])
    (read : link.unread = [])
    {orders : OrderMap}
    (waits : conversation.talk = .result (.inl orders) ∨
      conversation.talk = Programs.display.loop orders) :
    Programs.screen conversation.system.server.myOrders <:+ conversation.cout :=
  (InView.of_reachable reachable bounded).shows reachable bounded linked accepted live sending
    drained read waits

theorem display_shows_tea :
    ∃ conversation : Conversation OrderMap,
      conversation.system.server.myOrders.lookup 1000 = some System.begunTea ∧
      Programs.screen conversation.system.server.myOrders <:+ conversation.cout := by
  obtain ⟨behind, session, run, linked, live, sending, -, stored, broadcasts, -⟩ :=
    exists_behind []
  have reachable : Reachable Programs.display .initial
      { behind with talk := .result (.inl ∅) } := ⟨_, run⟩
  obtain ⟨later, next, shown, goes, talk, orders, same, isLinked, isLive, sends, drained⟩ :=
    exists_caughtUp reachable (bounded_of_tea broadcasts) linked rfl rfl live
      (sending ▸ trivial) rfl
  exact ⟨later, orders ▸ stored, display_shows (reachable.all goes)
    (bounded_of_tea (same.trans broadcasts)) isLinked rfl isLive sends drained rfl
    (Or.inl talk)⟩

/-- Whatever has happened: as long as the connection is open, the session serves the display
and the display is between two turns, both can get by their own steps to the screen of the
orders that are stored now. -/
theorem display_catchesUp
    (reachable : Reachable Programs.display .initial conversation)
    (bounded : conversation.system.server.Bounded)
    (linked : conversation.link = some link)
    {self : ClientPtr}
    (accepted : link.far = .client self)
    (opened : link.line = .opened)
    {session : Session}
    (live : conversation.system.clients self = some session)
    (serves : session.phase.ServesDisplay)
    {orders : OrderMap}
    (talk : conversation.talk = .result (.inl orders)) :
    ∃ later, Relation.ReflTransGen (Inner Programs.display) conversation later ∧
      later.system.server.myOrders = conversation.system.server.myOrders ∧
      Programs.screen conversation.system.server.myOrders <:+ later.cout := by
  obtain ⟨later, next, shown, goes, isTalk, sameOrders, broadcasts, isLinked, isLive, sends,
    drained⟩ := exists_caughtUp reachable bounded linked accepted opened live serves talk
  have reachable := reachable.all goes
  have bounded : later.system.server.Bounded :=
    bounded.of_prefix (broadcasts ▸ List.prefix_rfl)
  have shows := (InView.of_reachable reachable bounded).shows reachable bounded isLinked accepted
    isLive sends drained rfl (Or.inl isTalk)
  rw [sameOrders] at shows
  exact ⟨later, goes, sameOrders, shows⟩

theorem display_catchesUp_tea :
    ∃ conversation : Conversation OrderMap,
      conversation.link = some ⟨.client 7, [], frame System.shownTea, .opened⟩ ∧
      conversation.system.server.queues 7 =
        [.ofOrderStatus .dispOrderUpdate 1000 .inProgress] ∧
      conversation.system.server.myOrders.lookup 1000 = some System.begunTea ∧
      ∃ later, Relation.ReflTransGen (Inner Programs.display) conversation later ∧
        later.system.server.myOrders = conversation.system.server.myOrders ∧
        Programs.screen conversation.system.server.myOrders <:+ later.cout := by
  obtain ⟨behind, session, run, linked, live, sending, queued, stored, broadcasts, -⟩ :=
    exists_behind []
  exact ⟨{ behind with talk := .result (.inl ∅) }, linked, queued, stored,
    display_catchesUp ⟨_, run⟩ (bounded_of_tea broadcasts) linked rfl rfl live
      (sending ▸ trivial) rfl⟩

end Conversation
end OrderTracking
