import OrderTracking.Client.Gate
import OrderTracking.Conversation.Causal

/-!
# Conversations are runs of the server

In the model of the threads a peer is no more than the bytes it delivers, all of them
known when its connection is accepted. In a conversation they depend on what the server
sends. Still every conversation is a run of the threads: the one in which the client was
accepted with what the program turned out to write.
-/

namespace OrderTracking

/-! ## Sessions with a future -/

namespace Session

theorem foresee_nothing (session : Session) : session.foresee [] none = session := by
  obtain ⟨⟨mode, infd, out, room⟩, phase, ⟨originMode, originInfd, originOut, originRoom⟩,
    serial⟩ := session
  cases room <;> cases originRoom <;> simp [foresee, Client.foresee]

theorem foresee_deliver
    (delivery : Framing.Delivery)
    (later : Framing.Input)
    (total : Option Nat)
    (session : Session) :
    (session.deliver delivery).foresee later total =
      session.foresee (delivery :: later) total := by
  simp [deliver, foresee, Client.deliver, Client.foresee]

/-- A limit that is set later was foreseen. -/
theorem foresee_limit
    {session : Session}
    (unlimited : session.Unlimited)
    (room : Nat)
    (later : Framing.Input) :
    (session.limit room).foresee later none =
      session.foresee later (some (session.client.out.length + room)) := by
  simp [limit, foresee, Client.foresee, unlimited.client, unlimited.origin,
    unlimited.silent]

theorem Unlimited.deliver
    {session : Session}
    (unlimited : session.Unlimited)
    (delivery : Framing.Delivery) :
    (session.deliver delivery).Unlimited :=
  ⟨unlimited.client, unlimited.origin, unlimited.silent⟩

end Session

namespace System

/-! ## Changing one session -/

theorem modifySession_live
    {self : ClientPtr}
    {system : System}
    {session : Session}
    (live : system.clients self = some session)
    (change : Session → Session) :
    (system.modifySession self change).clients self = some (change session) := by
  simp [modifySession, live]

theorem modifySession_congr
    {self : ClientPtr}
    {system : System}
    {session : Session}
    (live : system.clients self = some session)
    {change other : Session → Session}
    (same : change session = other session) :
    system.modifySession self change = system.modifySession self other := by
  simp only [modifySession, live, Option.map_some, same]

theorem modifySession_modifySession
    (self : ClientPtr)
    (system : System)
    (first second : Session → Session) :
    (system.modifySession self first).modifySession self second =
      system.modifySession self (second ∘ first) := by
  simp [modifySession]

theorem Reachable.next
    {server : Server}
    {self : ClientPtr}
    {system final : System}
    (reachable : Reachable server system)
    (step : Step self system final) :
    Reachable server final :=
  reachable.tail ⟨self, step⟩

/-- A step of another client does not depend on the session. -/
theorem Step.modifySession
    {self other : ClientPtr}
    {system final : System}
    (step : Step other system final)
    (different : other ≠ self)
    (change : Session → Session) :
    final.clients self = system.clients self ∧
      Step other (system.modifySession self change) (final.modifySession self change) := by
  cases step with
  | accept infd room _ free =>
      refine ⟨by simp [System.accept, different.symm], ?_⟩
      have commutes : (system.accept other infd room).modifySession self change =
          (system.modifySession self change).accept other infd room := by
        simp only [System.modifySession, System.accept, Function.update_of_ne different.symm]
        rw [Function.update_comm different]
      rw [commutes]
      exact .accept infd room _ (by simpa [System.modifySession, different] using free)
  | run session next server _ live step =>
      refine ⟨by simp [different.symm], ?_⟩
      have ran := @Step.run other session next server (system.modifySession self change)
        (by simpa [System.modifySession, different] using live) step
      simp only [System.modifySession, Function.update_of_ne different.symm] at ran ⊢
      rwa [Function.update_comm different]
  | free session how _ live destroyed =>
      refine ⟨by simp [different.symm], ?_⟩
      have freed := @Step.free other session how (system.modifySession self change)
        (by simpa [System.modifySession, different] using live) destroyed
      simp only [System.modifySession, Function.update_of_ne different.symm] at freed ⊢
      rwa [Function.update_comm different]

end System

namespace Conversation

variable {σ : Type}

/-! ## The invariant -/

/-- What may still be delivered on a connection, and the limit of what is accepted:
anything while it is open, and just what is in flight afterwards. -/
def Expects (link : Link) (later : Framing.Input) (total : Option Nat) : Prop :=
  link.line ≠ .opened →
    Framing.Unbroken later ∧ Framing.available later = link.inFlight ∧ total = none

/-- There is a client at the other end, and its session may be looked at as if what is
delivered later were known. -/
structure Alive (server : Server) (link : Link) (client : ClientPtr)
    (conversation : Conversation σ) (session : Session) : Prop where
  linked : conversation.link = some link
  accepted : link.far = .client client
  live : conversation.system.clients client = some session
  unlimited : link.line = .opened → session.Unlimited
  foreseen : ∀ later total, Expects link later total →
    Client.Within total session.client →
      System.Reachable server
        (conversation.system.modifySession client (.foresee later total))

/-- There is no client at the other end; a pending connection has no limit while it is
open. -/
structure Apart (server : Server) (link : Link) (conversation : Conversation σ) :
    Prop where
  linked : conversation.link = some link
  noClient : ∀ self, link.far ≠ .client self
  unlimited : ∀ infd room, link.far = .pending infd room → link.line = .opened →
    room = none
  reachable : System.Reachable server conversation.system

/-- However a conversation goes on, its system is that of a run of the threads. -/
inductive Foreseen (server : Server) (conversation : Conversation σ) : Prop
  | unlinked
      (unlinked : conversation.link = none)
      (reachable : System.Reachable server conversation.system)
  | alive (link : Link) (self : ClientPtr) (session : Session)
      (alive : Alive server link self conversation session)
  | apart (link : Link)
      (apart : Apart server link conversation)

theorem Foreseen.of_linked
    {server : Server}
    {conversation : Conversation σ}
    (foreseen : Foreseen server conversation)
    {link : Link}
    (linked : conversation.link = some link) :
    (∃ self session, Alive server link self conversation session) ∨
      Apart server link conversation := by
  cases foreseen with
  | unlinked unlinked reachable =>
      rw [linked] at unlinked
      cases unlinked
  | alive other self session alive =>
      obtain rfl := Option.some.inj (linked.symm.trans alive.linked)
      exact Or.inl ⟨self, session, alive⟩
  | apart other apart =>
      obtain rfl := Option.some.inj (linked.symm.trans apart.linked)
      exact Or.inr apart

theorem Foreseen.of_client
    {server : Server}
    {conversation : Conversation σ}
    (foreseen : Foreseen server conversation)
    {link : Link}
    (linked : conversation.link = some link)
    {self : ClientPtr}
    (accepted : link.far = .client self) :
    ∃ session, Alive server link self conversation session := by
  rcases foreseen.of_linked linked with ⟨other, session, alive⟩ | apart
  · obtain rfl := Far.client.inj (accepted.symm.trans alive.accepted)
    exact ⟨session, alive⟩
  · exact absurd accepted (apart.noClient self)

theorem Foreseen.of_pending
    {server : Server}
    {conversation : Conversation σ}
    (foreseen : Foreseen server conversation)
    {link : Link}
    (linked : conversation.link = some link)
    {infd : Framing.Input}
    {room : Option Nat}
    (pending : link.far = .pending infd room) :
    Apart server link conversation := by
  rcases foreseen.of_linked linked with ⟨other, session, alive⟩ | apart
  · cases pending.symm.trans alive.accepted
  · exact apart

/-- Something can be delivered later. -/
theorem exists_expected (link : Link) :
    ∃ later, Expects link later none := by
  by_cases empty : link.inFlight = []
  · exact ⟨[], fun _ => ⟨by simp [Framing.Unbroken], empty.symm, rfl⟩⟩
  · refine ⟨[.chunk link.inFlight empty], fun _ => ⟨?_, by simp [Framing.available], rfl⟩⟩
    intro delivery member
    rw [List.mem_singleton.mp member]
    exact fun impossible => by cases impossible

/-- The end of a session's input is that of all there is to expect. -/
theorem Expects.eq_nil
    {link : Link}
    {later : Framing.Input}
    {total : Option Nat}
    (expects : Expects link later total)
    (ended : link.line ≠ .opened ∧ link.inFlight = []) :
    later = [] ∧ total = none := by
  obtain ⟨unbroken, available, none⟩ := expects ended.1
  refine ⟨?_, none⟩
  cases later with
  | nil => rfl
  | cons delivery rest =>
      cases delivery with
      | failure => exact absurd rfl (unbroken .failure List.mem_cons_self)
      | chunk bytes nonempty =>
          rw [ended.2, Framing.available, List.append_eq_nil_iff] at available
          exact absurd available.1 nonempty

theorem within_none (client : Client) : Client.Within none client := by
  intro bound impossible
  cases impossible

/-! ## Steps -/

variable {server : Server} {conversation later : Conversation σ} {link : Link}

/-- What neither connects nor concerns the connection. -/
theorem Foreseen.of_eq
    (foreseen : Foreseen server conversation)
    (system : later.system = conversation.system)
    (link : later.link = conversation.link) :
    Foreseen server later := by
  cases foreseen with
  | unlinked unlinked reachable =>
      exact .unlinked (link.trans unlinked) (system.symm ▸ reachable)
  | alive other self session before =>
      refine .alive other self session ⟨link.trans before.linked, before.accepted, ?_,
        before.unlimited, ?_⟩
      · rw [system]
        exact before.live
      · rw [system]
        exact before.foreseen
  | apart other before =>
      exact .apart other ⟨link.trans before.linked, before.noClient, before.unlimited,
        system.symm ▸ before.reachable⟩

/-- A change of nothing but the connection, which expects no more than before. -/
theorem Foreseen.relink
    (foreseen : Foreseen server conversation)
    (linked : conversation.link = some link)
    {next : Link}
    (system : later.system = conversation.system)
    (relinked : later.link = some next)
    (far : next.far = link.far)
    (line : next.line = link.line)
    (inFlight : link.line ≠ .opened → next.inFlight = link.inFlight) :
    Foreseen server later := by
  rcases foreseen.of_linked linked with ⟨self, session, before⟩ | apart
  · refine .alive next self session ⟨relinked, far.trans before.accepted, ?_, ?_, ?_⟩
    · rw [system]
      exact before.live
    · rw [line]
      exact before.unlimited
    · intro later total expects within
      rw [system]
      refine before.foreseen later total (fun closed => ?_) within
      rw [← inFlight closed]
      exact expects (line.symm ▸ closed)
  · refine .apart next ⟨relinked, ?_, ?_, system.symm ▸ apart.reachable⟩
    · rw [far]
      exact apart.noClient
    · rw [far, line]
      exact apart.unlimited

theorem noClient_change
    {far : Far}
    (noClient : ∀ self, far ≠ .client self)
    (change : Session → Session)
    (self : ClientPtr) :
    far.change change ≠ .client self := by
  cases far with
  | pending => exact Far.noConfusion
  | client other => exact absurd rfl (noClient other)
  | gone => exact Far.noConfusion

theorem changeSession_of_noClient
    (noClient : ∀ self, link.far ≠ .client self)
    (change : Session → Session) :
    conversation.changeSession link change = conversation := by
  cases isFar : link.far with
  | client self => exact absurd isFar (noClient self)
  | _ => simp only [changeSession, isFar]

theorem changeSession_of_client
    {self : ClientPtr}
    (accepted : link.far = .client self)
    (change : Session → Session) :
    conversation.changeSession link change =
      { conversation with system := conversation.system.modifySession self change } := by
  simp only [changeSession, accepted]

/-- A change of the session, which was foreseen. -/
theorem Foreseen.changeSession
    (foreseen : Foreseen server conversation)
    (linked : conversation.link = some link)
    {change : Session → Session}
    (next : Link)
    (far : next.far = link.far.change change)
    (unlimited : next.line = .opened → ∀ session : Session,
      (link.line = .opened → session.Unlimited) → (change session).Unlimited)
    (changes : ∀ (session : Session) (later : Framing.Input) (total : Option Nat),
      (link.line = .opened → session.Unlimited) →
      Expects next later total → Client.Within total (change session).client →
      ∃ earlier before, Expects link earlier before ∧
        Client.Within before session.client ∧
        (change session).foresee later total = session.foresee earlier before) :
    Foreseen server ((conversation.changeSession link change).setLink next) := by
  rcases foreseen.of_linked linked with ⟨self, session, before⟩ | apart
  · rw [changeSession_of_client before.accepted]
    have accepted : next.far = .client self := by
      rw [far, before.accepted]
      rfl
    refine .alive next self (change session) ⟨rfl, accepted, ?_, ?_, ?_⟩
    · exact System.modifySession_live before.live change
    · exact fun opened => unlimited opened session before.unlimited
    · intro later total expects within
      obtain ⟨earlier, limit, expected, bounded, same⟩ :=
        changes session later total before.unlimited expects within
      rw [setLink, System.modifySession_modifySession]
      have congr := System.modifySession_congr before.live
        (show (Session.foresee later total ∘ change) session = _ from same)
      rw [congr]
      exact before.foreseen earlier limit expected bounded
  · rw [changeSession_of_noClient apart.noClient]
    refine .apart next ⟨rfl, far ▸ noClient_change apart.noClient change, ?_, apart.reachable⟩
    intro infd room pending opened
    rw [far] at pending
    cases isFar : link.far with
    | pending before limit =>
        rw [isFar] at pending
        obtain ⟨-, rfl⟩ := Far.pending.inj pending
        refine (unlimited opened (.accepted before limit 0) fun wasOpened => ?_).client
        obtain rfl := apart.unlimited before limit isFar wasOpened
        exact ⟨rfl, rfl, rfl⟩
    | client self => exact absurd isFar (apart.noClient self)
    | gone =>
        rw [isFar] at pending
        cases pending

/-- A delivery was foreseen as what is delivered next. -/
theorem Foreseen.deliver
    (foreseen : Foreseen server conversation)
    (linked : conversation.link = some link)
    {bytes rest : Bytes}
    (nonempty : bytes ≠ [])
    (inFlight : link.inFlight = bytes ++ rest) :
    Foreseen server ((conversation.changeSession link
      (Session.deliver (.chunk bytes nonempty))).setLink
        { link with
          far := link.far.change (Session.deliver (.chunk bytes nonempty))
          inFlight := rest }) := by
  apply foreseen.changeSession linked { link with far := _, inFlight := rest } rfl
  · exact fun opened session unlimited => (unlimited opened).deliver _
  · intro session later total unlimited expects within
    refine ⟨.chunk bytes nonempty :: later, total, fun closed => ?_, within,
      Session.foresee_deliver _ _ _ _⟩
    obtain ⟨unbroken, available, none⟩ := expects closed
    refine ⟨?_, ?_, none⟩
    · intro delivery member
      rcases List.mem_cons.mp member with rfl | member
      · exact fun impossible => by cases impossible
      · exact unbroken delivery member
    · rw [Framing.available, available, inFlight]

/-- A reset was foreseen as a failure after all that was delivered. -/
theorem Foreseen.reset
    (foreseen : Foreseen server conversation)
    (linked : conversation.link = some link)
    (opened : link.line = .opened)
    (room : Nat) :
    Foreseen server ((conversation.changeSession link
      fun session => (session.deliver .failure).limit room).setLink
        { link with
          far := link.far.change fun session => (session.deliver .failure).limit room
          inFlight := []
          line := .reset }) := by
  apply foreseen.changeSession linked
    { link with far := _, inFlight := [], line := .reset } rfl
  · exact fun impossible => by cases impossible
  · intro session later total unlimited expects within
    obtain ⟨rfl, rfl⟩ := expects.eq_nil ⟨Line.noConfusion, rfl⟩
    refine ⟨[.failure], some (session.client.out.length + room),
      fun closed => absurd opened closed, ?_, ?_⟩
    · intro bound isBound
      rw [← Option.some.inj isBound]
      exact Nat.le_add_right _ _
    · rw [Session.foresee_limit ((unlimited opened).deliver _), Session.foresee_deliver]
      rfl

/-- That the program closes the connection was foreseen as a limit. -/
theorem Foreseen.close
    (foreseen : Foreseen server conversation)
    (linked : conversation.link = some link)
    (opened : link.line = .opened)
    (room : Nat) :
    Foreseen server ((conversation.changeSession link (Session.limit room)).setLink
      { link with far := link.far.change (Session.limit room), line := .closed }) := by
  apply foreseen.changeSession linked { link with far := _, line := .closed } rfl
  · exact fun impossible => by cases impossible
  · intro session later total unlimited expects within
    obtain ⟨-, -, rfl⟩ := expects Line.noConfusion
    refine ⟨later, some (session.client.out.length + room),
      fun closed => absurd opened closed, ?_,
      Session.foresee_limit (unlimited opened) room later⟩
    intro bound isBound
    rw [← Option.some.inj isBound]
    exact Nat.le_add_right _ _

/-- The client is accepted with what is delivered before and after. -/
theorem Foreseen.accept
    (foreseen : Foreseen server conversation)
    (linked : conversation.link = some link)
    {self : ClientPtr}
    {infd : Framing.Input}
    {room : Option Nat}
    (pending : link.far = .pending infd room)
    (free : conversation.system.clients self = none)
    (system : later.system = conversation.system.accept self infd room)
    (relinked : later.link = some { link with far := .client self }) :
    Foreseen server later := by
  have apart := foreseen.of_pending linked pending
  refine .alive _ self (.accepted infd room conversation.system.created)
    ⟨relinked, rfl, ?_, ?_, ?_⟩
  · rw [system]
    exact Function.update_self ..
  · intro opened
    obtain rfl := apart.unlimited infd room pending opened
    exact ⟨rfl, rfl, rfl⟩
  · intro input total expects within
    rw [system]
    cases total with
    | none =>
        have accepted := apart.reachable.next (.accept (infd ++ input) room _ free)
        cases room <;> simpa [System.accept, System.modifySession, Session.foresee, Client.foresee,
          Client.accepted] using accepted
    | some total =>
        have opened : link.line = .opened := by
          by_contra closed
          cases (expects closed).2.2
        obtain rfl := apart.unlimited infd room pending opened
        have accepted := apart.reachable.next (.accept (infd ++ input) (some total) _ free)
        simpa [System.accept, System.modifySession, Session.foresee, Client.foresee,
          Client.accepted] using accepted

/-- A step of the session is the step it makes with what is delivered later. -/
theorem Foreseen.session
    (foreseen : Foreseen server conversation)
    (linked : conversation.link = some link)
    {self : ClientPtr}
    (accepted : link.far = .client self)
    {session next : Session}
    {final : Server}
    (live : conversation.system.clients self = some session)
    (step : Session.Step self conversation.system.server session final next)
    (waits : MetEnd next → link.line ≠ .opened ∧ link.inFlight = [])
    {unread : Bytes}
    (system : later.system = { conversation.system with
      server := final
      clients := Function.update conversation.system.clients self (some next) })
    (relinked : later.link = some { link with unread := unread }) :
    Foreseen server later := by
  obtain ⟨earlier, before⟩ := foreseen.of_client linked accepted
  obtain rfl := Option.some.inj (live.symm.trans before.live)
  refine .alive { link with unread := unread } self next ⟨relinked, accepted, ?_, ?_, ?_⟩
  · rw [system]
    exact Function.update_self ..
  · exact fun opened => (before.unlimited opened).grows step.grows step.origin
  · intro later total expects within
    have foreseenStep : Session.Step self conversation.system.server
        (session.foresee later total) final (next.foresee later total) := by
      by_cases ended : MetEnd next
      · obtain ⟨rfl, rfl⟩ := Expects.eq_nil expects (waits ended)
        rw [Session.foresee_nothing, Session.foresee_nothing]
        exact step
      · exact step.foresee ended within
    have reachable := before.foreseen later total expects (within.mono step.grows)
    have ran := reachable.next (.run _ _ _ _
      (System.modifySession_live before.live _) foreseenStep)
    simpa [system, System.modifySession] using ran

/-- When the client is destroyed nothing is delivered any more. -/
theorem Foreseen.destroyed
    (foreseen : Foreseen server conversation)
    (linked : conversation.link = some link)
    {self : ClientPtr}
    (accepted : link.far = .client self)
    {session : Session}
    {how : End}
    (live : conversation.system.clients self = some session)
    (destroyed : session.phase = .unregistered how)
    (system : later.system = { conversation.system with
      clients := Function.update conversation.system.clients self none })
    (relinked : later.link = some { link with far := .gone }) :
    Foreseen server later := by
  obtain ⟨earlier, before⟩ := foreseen.of_client linked accepted
  obtain rfl := Option.some.inj (live.symm.trans before.live)
  obtain ⟨input, expects⟩ := exists_expected link
  have reachable := before.foreseen input none expects (within_none _)
  have freed := reachable.next (.free _ how _
    (System.modifySession_live before.live _) destroyed)
  refine .apart _ ⟨relinked, fun _ => Far.noConfusion, fun _ _ => Far.noConfusion, ?_⟩
  simpa [system, System.modifySession] using freed

theorem Foreseen.answered
    (foreseen : Foreseen server conversation)
    {call : Programs.Call}
    {answer : Programs.Answer call}
    (answered : Answered call conversation answer later) :
    Foreseen server later := by
  cases answered with
  | connected _ unlinked =>
      cases foreseen with
      | unlinked _ reachable =>
          refine .apart _ ⟨rfl, fun _ => Far.noConfusion, ?_, reachable⟩
          rintro _ _ ⟨⟩ -
          rfl
      | alive link self session alive =>
          rw [alive.linked] at unlinked
          cases unlinked
      | apart link apart =>
          rw [apart.linked] at unlinked
          cases unlinked
  | sent s link _ linked =>
      exact foreseen.relink linked rfl rfl rfl rfl fun closed => by simp [closed]
  | received s infd rest link _ linked =>
      exact foreseen.relink linked rfl rfl rfl rfl fun _ => rfl
  | receiveFailed exception infd rest s link _ linked =>
      exact foreseen.relink linked rfl rfl rfl rfl fun _ => rfl
  | close room link _ linked opened => exact foreseen.close linked opened room
  | getline => exact foreseen.of_eq rfl rfl
  | print => exact foreseen.of_eq rfl rfl
  | printError => exact foreseen.of_eq rfl rfl
  | unconnected => exact foreseen.of_eq rfl rfl
  | _ => exact foreseen

theorem Foreseen.outer
    (foreseen : Foreseen server conversation)
    (step : Outer conversation later) :
    Foreseen server later := by
  cases step with
  | elsewhere other final _ different step =>
      cases foreseen with
      | unlinked unlinked reachable =>
          exact .unlinked unlinked (reachable.next step)
      | alive link self session before =>
          have otherwise := different link self before.linked before.accepted
          refine .alive link self session
            ⟨before.linked, before.accepted, ?_, before.unlimited, ?_⟩
          · exact (step.modifySession otherwise id).1.trans before.live
          · intro later total expects within
            exact (before.foreseen later total expects within).next
              (step.modifySession otherwise _).2
      | apart link apart =>
          exact .apart link ⟨apart.linked, apart.noClient, apart.unlimited,
            apart.reachable.next step⟩
  | acceptFailed => exact foreseen
  | aborted infd room link _ linked pending reset =>
      have apart := foreseen.of_pending linked pending
      exact .apart _ ⟨rfl, fun _ => Far.noConfusion, fun _ _ => Far.noConfusion,
        apart.reachable⟩
  | reset room link _ linked opened => exact foreseen.reset linked opened room

theorem Foreseen.inner
    {program : Programs.Program σ}
    (foreseen : Foreseen server conversation)
    (step : Inner program conversation later) :
    Foreseen server later := by
  cases step with
  | deliver bytes rest nonempty link _ linked inFlight =>
      exact foreseen.deliver linked nonempty inFlight
  | accept self infd room link _ linked pending free =>
      exact foreseen.accept linked pending free rfl rfl
  | session self session next final link _ linked accepted live step waits =>
      exact foreseen.session linked accepted live step waits rfl rfl
  | destroyed self session how link _ linked accepted live destroyed =>
      exact foreseen.destroyed linked accepted live destroyed rfl rfl
  | call call next answer _ last asks answered =>
      exact (foreseen.answered answered).of_eq rfl rfl
  | killed => exact foreseen.of_eq rfl rfl
  | loop state _ again => exact foreseen.of_eq rfl rfl

/-- What every conversation keeps. -/
theorem Foreseen.of_reachable
    {program : Programs.Program σ}
    (reachable : Reachable program server conversation) :
    Foreseen server conversation :=
  reachable.induction (fun _ => .unlinked rfl .refl) fun foreseen step =>
    step.elim foreseen.outer foreseen.inner

/-- The system of a conversation, as if what is delivered later to the client at the other
end were known. -/
def foresee (later : Framing.Input) (total : Option Nat) (conversation : Conversation σ) :
    System :=
  match conversation.link with
  | some ⟨.client self, _, _, _⟩ =>
      conversation.system.modifySession self (.foresee later total)
  | _ => conversation.system

theorem foresee_of_client
    (linked : conversation.link = some link)
    {self : ClientPtr}
    (accepted : link.far = .client self)
    (input : Framing.Input)
    (total : Option Nat) :
    conversation.foresee input total =
      conversation.system.modifySession self (.foresee input total) := by
  obtain ⟨far, inFlight, unread, line⟩ := link
  obtain rfl : far = .client self := accepted
  simp only [foresee, linked]

theorem foresee_of_noClient
    (noClient : ∀ link self, conversation.link = some link → link.far ≠ .client self)
    (input : Framing.Input)
    (total : Option Nat) :
    conversation.foresee input total = conversation.system := by
  unfold foresee
  split
  · next self inFlight unread line linked => exact absurd rfl (noClient _ self linked)
  · rfl

theorem Foreseen.isRun
    {conversation : Conversation σ}
    (foreseen : Foreseen server conversation) :
    ∃ later total, System.Reachable server (conversation.foresee later total) := by
  cases foreseen with
  | unlinked unlinked threads =>
      refine ⟨[], none, ?_⟩
      rw [foresee_of_noClient]
      · exact threads
      · intro link self linked
        rw [unlinked] at linked
        cases linked
  | alive link self session alive =>
      obtain ⟨later, expects⟩ := exists_expected link
      refine ⟨later, none, ?_⟩
      rw [foresee_of_client alive.linked alive.accepted]
      exact alive.foreseen later none expects (within_none _)
  | apart link apart =>
      refine ⟨[], none, ?_⟩
      rw [foresee_of_noClient]
      · exact apart.reachable
      · intro other self linked
        rw [apart.linked, Option.some.injEq] at linked
        exact linked ▸ apart.noClient self

/-- The server and the sessions of a conversation are those of a run of the threads, apart
from what their peers will deliver and accept. -/
theorem Reachable.exists_system
    {program : Programs.Program σ}
    {conversation : Conversation σ}
    (reachable : Reachable program server conversation) :
    ∃ system, System.Reachable server system ∧
      system.server = conversation.system.server ∧
      ∀ self session, conversation.system.clients self = some session →
        ∃ later total, system.clients self = some (session.foresee later total) := by
  obtain ⟨later, total, threads⟩ := (Foreseen.of_reachable reachable).isRun
  refine ⟨_, threads, ?_, fun self session live => ?_⟩
  · unfold foresee
    split <;> rfl
  · have still : ∃ later total, conversation.system.clients self =
        some (session.foresee later total) :=
      ⟨[], none, by rw [Session.foresee_nothing, live]⟩
    unfold foresee
    split
    · next other inFlight unread line linked =>
      by_cases own : self = other
      · subst own
        exact ⟨later, total, System.modifySession_live live _⟩
      · simpa [System.modifySession, own] using still
    · exact still

/-- The server loop always finds a free address for the next client. -/
theorem Reachable.exists_free
    {program : Programs.Program σ}
    {conversation : Conversation σ}
    (reachable : Reachable program server conversation) :
    ∃ self, conversation.system.clients self = none := by
  obtain ⟨system, threads, -, sessions⟩ := reachable.exists_system
  obtain ⟨self, free⟩ := System.exists_free threads
  refine ⟨self, Option.eq_none_iff_forall_ne_some.mpr fun session live => ?_⟩
  obtain ⟨later, total, isLive⟩ := sessions self session live
  cases free.symm.trans isLive

end Conversation
end OrderTracking
