import OrderTracking.Conversation.Channel
import OrderTracking.Programs.Lockstep
import OrderTracking.Wire.Mistaken

/-!
# Programs in conversation

What a program ensures whatever it hears holds while it runs, when what it can receive on
its connection are the replies it expects. Responses fit into frames, and a program is
logged in just when what was typed is in the database.
-/

namespace OrderTracking
namespace Conversation

open Programs (IsLine IsLogin Notes Talk Call Answer Hears Exit welcome)

/-! ## The length of responses -/

theorem length_textOf
    (type : MessageType)
    (str : Bytes) :
    (Updater.textOf type str).length =
      (Wire.messageTypeToStr type).length + 1 + str.length := by
  simp [Updater.textOf, List.intercalate]
  omega

/-- Every response of a turn fits into a frame. -/
theorem short_of_turn
    {raw : Bytes}
    {server : Server}
    {ends : Bool}
    {session : Updater.Session}
    (turn : Updater.Turn raw server (.ok ends session)) :
    ∀ response ∈ session.sent, response.length ≤ 9998 := by
  have refusalsShort : ∀ what ∈ Updater.refusals,
      (Updater.textOf .error (ascii what)).length ≤ 9998 := by
    decide +kernel
  intro response member
  cases turn with
  | quit =>
      rw [List.mem_singleton.mp member]
      decide +kernel
  | refused req what decodes calls known =>
      rw [List.mem_singleton.mp member]
      exact refusalsShort what known
  | created req order =>
      have digits := Cxx.length_toString_le server.nextOrderId
      have fixed : (Wire.messageTypeToStr .ok).length + 1 +
          (ascii "Created order id ").length = 20 := by
        decide +kernel
      rw [List.mem_singleton.mp member, length_textOf, List.length_append]
      omega
  | itemUpdated =>
      rw [List.mem_singleton.mp member]
      decide +kernel
  | delivered =>
      rw [List.mem_singleton.mp member]
      decide +kernel

theorem short_of_loginResponses :
    ∀ response ∈ Programs.loginResponses, response.length ≤ 9998 := by
  decide +kernel

theorem Updates.short
    {running : Bool}
    {taken replies : List Bytes}
    {turns : List Updater.Processed}
    (updates : Updates running taken replies turns) :
    ∀ reply ∈ replies, reply.length ≤ 9998 := by
  obtain ⟨raw, _, granted, made, disciplined⟩ := updates
  intro reply member
  rcases List.mem_cons.mp member with rfl | member
  · exact short_of_loginResponses welcome List.mem_cons_self
  · obtain ⟨turn, isTurn, response⟩ := List.mem_flatMap.mp member
    obtain ⟨one, isOne⟩ := List.length_eq_one_iff.mp (le_antisymm
      (made turn isTurn).length_responses_le (List.length_pos_of_mem response))
    obtain ⟨ends, outcome⟩ := (made turn isTurn).turn_of_responses isOne
    exact short_of_turn outcome reply (isOne ▸ response)

/-! ## The login -/

/-- A program is logged in just when what was typed is in the database. -/
theorem isGranted_login_iff
    {mode other : ClientMode}
    (valid : mode ≠ .invalid)
    {cred s : Bytes}
    (encodes : (Wire.encode (.ofMode .login mode cred)).run [] = .ok () s) :
    Client.IsGranted other s ↔ other = mode ∧ cred ∈ PasswordDB.credentials := by
  constructor
  · rintro ⟨req, decodes, -, isMode, known⟩
    obtain rfl := Wire.neverMistaken_login mode cred [] .empty s req encodes decodes
    exact ⟨isMode.symm, known⟩
  · rintro ⟨rfl, known⟩
    have plain : ∀ cred ∈ PasswordDB.credentials, Wire.Lacks [Wire.pipe] cred := by
      decide +kernel
    have decodes := Wire.decode_print (.login other valid cred (plain cred known)) .empty
    rw [Wire.encode_login] at encodes
    cases encodes
    exact ⟨_, decodes, rfl, rfl, known⟩

theorem clientMode_of_isLogin
    {mode other : ClientMode}
    (valid : mode ≠ .invalid)
    {typed s : Bytes}
    (isLogin : IsLogin mode typed s)
    (granted : Client.IsGranted other s) :
    other = mode := by
  obtain ⟨username, password, -, encodes⟩ := isLogin
  exact ((isGranted_login_iff valid encodes).mp granted).1

/-! ## What a program ensures -/

/-- What the program has done so far. -/
def notes {σ : Type} (conversation : Conversation σ) : Notes where
  typed := conversation.typed
  cin := conversation.cin
  cout := conversation.cout
  cerr := conversation.cerr
  linked := conversation.link.isSome
  sent := conversation.sent
  received := conversation.received

theorem notes_of_linked
    {σ : Type}
    {conversation : Conversation σ}
    {link : Link}
    (linked : conversation.link = some link) :
    notes conversation = ⟨conversation.typed, conversation.cin, conversation.cout,
      conversation.cerr, true, conversation.sent, conversation.received⟩ := by
  rw [notes, linked]
  rfl

section Rules

variable {σ : Type} {program : Programs.Program σ}
variable {permits : Call → Notes → Prop} {replies : Notes → Bytes → Prop}
variable {stops : σ ⊕ Exit → Notes → Prop}
variable {conversation later : Conversation σ}

/-- What can be read are whole frames, if anything is missing, the other end is gone. -/
def ReadsFrames (conversation : Conversation σ) : Prop :=
  ∀ {link infd rest s exception}, conversation.link = some link →
    Framing.Unbroken infd → Framing.available infd = link.unread →
    Framing.receive.run ⟨infd, []⟩ = .error exception ⟨rest, s⟩ →
      exception = .ioException "file ended early"

/-- The calls of a program get answers as expected, when what it can receive is. -/
theorem hears_of_answered
    {call : Call}
    {answer : Answer call}
    (answered : Answered call conversation answer later)
    (frames : call = .receive → ReadsFrames conversation)
    (expected : ∀ {link infd rest s}, call = .receive → conversation.link = some link →
      Framing.available infd = link.unread →
      Framing.receive.run ⟨infd, []⟩ = .ok () ⟨rest, s⟩ →
        replies (notes conversation) s) :
    Hears replies call (notes conversation) answer (notes later) := by
  cases answered with
  | getline => exact .getline (notes conversation)
  | print text => exact .print text (notes conversation)
  | printError text => exact .printError text (notes conversation)
  | connected => exact .connected (notes conversation)
  | unconnected text _ prints => exact .unconnected text (notes conversation) prints
  | sent s link _ linked =>
      have heard : Hears replies _ _ _ _ := .sent s (notes conversation)
      rw [notes_of_linked linked] at heard ⊢
      exact heard
  | sendFailed s => exact .sendFailed s (notes conversation)
  | received s infd rest link _ linked delivers ran =>
      have heard := Hears.received s (notes conversation) (expected rfl linked delivers ran)
      rw [notes_of_linked linked] at heard ⊢
      exact heard
  | receiveFailed exception infd rest s link _ linked unbroken delivers ran =>
      obtain rfl := frames rfl linked unbroken delivers ran
      have heard : Hears replies _ _ _ _ := .receiveFailed _ (notes conversation) .ended
      rw [notes_of_linked linked] at heard ⊢
      exact heard
  | receiveBroken => exact .receiveFailed _ (notes conversation) .failed
  | notOpen => exact .close (notes conversation)
  | close room link _ linked opened =>
      have heard : Hears replies _ _ _ _ := .close (notes conversation)
      rw [notes_of_linked linked] at heard ⊢
      exact heard

/-- The program will do no more than it ensures. -/
abbrev Ensured (permits : Call → Notes → Prop) (replies : Notes → Bytes → Prop)
    (stops : σ ⊕ Exit → Notes → Prop) (conversation : Conversation σ) : Prop :=
  conversation.talk.Ensures permits (Hears replies) stops (notes conversation)

/-- A call is permitted, and what it leaves is ensured. -/
theorem Ensured.call
    (ensured : Ensured permits replies stops conversation)
    {call : Call}
    {next : Answer call → Talk (σ ⊕ Exit)}
    (asks : conversation.talk = .ask call next) :
    permits call (notes conversation) ∧
      ∀ answer later, Hears replies call (notes conversation) answer later →
        (next answer).Ensures permits (Hears replies) stops later := by
  rwa [Ensured, asks] at ensured

/-- What happens elsewhere does not concern the program. -/
theorem notes_outer
    (step : Outer conversation later) :
    later.talk = conversation.talk ∧ notes later = notes conversation := by
  cases step with
  | elsewhere => exact ⟨rfl, rfl⟩
  | acceptFailed => exact ⟨rfl, rfl⟩
  | aborted infd room link _ linked => exact ⟨rfl, (notes_of_linked linked).symm⟩
  | reset room link _ linked opened => exact ⟨rfl, (notes_of_linked linked).symm⟩

/-- What holds at every call and at every stop holds at any time. -/
theorem Ensured.always
    (ensured : Ensured permits replies stops conversation)
    {property : Notes → Prop}
    (atCalls : ∀ call notes, permits call notes → property notes)
    (atStops : ∀ stop notes, stops stop notes → property notes) :
    property (notes conversation) := by
  unfold Ensured at ensured
  generalize conversation.talk = talk at ensured
  cases talk with
  | ask call next => exact atCalls call _ ensured.1
  | result stop => exact atStops stop _ ensured

theorem Ensured.outer
    (ensured : Ensured permits replies stops conversation)
    (step : Outer conversation later) :
    Ensured permits replies stops later := by
  obtain ⟨talk, same⟩ := notes_outer step
  rw [Ensured, talk, same]
  exact ensured

/-- While the calls get answers as expected, every step keeps what is ensured. -/
theorem Ensured.inner
    (ensured : Ensured permits replies stops conversation)
    (loops : ∀ {state notes}, stops (.inl state) notes →
      (program.loop state).Ensures permits (Hears replies) stops notes)
    (kills : ∀ {s notes}, permits (.send s) notes → stops (.inr .killed) notes)
    (hears : ∀ {call answer later}, permits call (notes conversation) →
      Answered call conversation answer later →
        Hears replies call (notes conversation) answer (notes later))
    (step : Inner program conversation later) :
    Ensured permits replies stops later := by
  cases step with
  | deliver bytes rest nonempty link _ linked inFlight =>
      rw [Ensured, notes_of_linked linked] at ensured
      exact ensured
  | accept self infd room link _ linked pending free =>
      rw [Ensured, notes_of_linked linked] at ensured
      exact ensured
  | session self session next final link _ linked accepted live step waits =>
      rw [Ensured, notes_of_linked linked] at ensured
      exact ensured
  | destroyed self session how link _ linked accepted live destroyed =>
      rw [Ensured, notes_of_linked linked] at ensured
      exact ensured
  | call call next answer _ last asks answered =>
      obtain ⟨permitted, ensures⟩ := ensured.call asks
      exact ensures answer (notes last) (hears permitted answered)
  | killed s next link _ asks linked broken => exact kills (ensured.call asks).1
  | loop state _ again =>
      rw [Ensured, again] at ensured
      exact loops ensured

/-! ### What was sent and received -/

/-- A call receives no less, and sends no more than its string. -/
theorem Answered.sent_received
    {call : Call}
    {answer : Answer call}
    (answered : Answered call conversation answer later) :
    conversation.received <+: later.received ∧
      (later.sent = conversation.sent ∨
        ∃ s, call = .send s ∧ later.sent = conversation.sent ++ [s]) := by
  cases answered with
  | sent s link _ linked => exact ⟨List.prefix_rfl, Or.inr ⟨s, rfl, rfl⟩⟩
  | received s infd rest link _ linked => exact ⟨List.prefix_append _ _, Or.inl rfl⟩
  | _ => exact ⟨List.prefix_rfl, Or.inl rfl⟩

/-- What a step adds to the strings that were sent is permitted. -/
theorem Ensured.sent_received
    (ensured : Ensured permits replies stops conversation)
    (step : Inner program conversation later) :
    conversation.received <+: later.received ∧
      (later.sent = conversation.sent ∨
        ∃ s, permits (.send s) (notes conversation) ∧
          later.sent = conversation.sent ++ [s]) := by
  cases step with
  | call call next answer _ last asks answered =>
      obtain ⟨received, same | ⟨s, rfl, sent⟩⟩ := answered.sent_received
      · exact ⟨received, Or.inl same⟩
      · exact ⟨received, Or.inr ⟨s, (ensured.call asks).1, sent⟩⟩
  | _ => exact ⟨List.prefix_rfl, Or.inl rfl⟩

end Rules

/-- What was typed is known from the start. -/
theorem Step.typed
    {σ : Type}
    {program : Programs.Program σ}
    {conversation later : Conversation σ}
    (step : Step program conversation later) :
    later.typed = conversation.typed := by
  rcases step with outer | inner
  · cases outer <;> rfl
  · cases inner with
    | call call next answer _ last asks answered => cases answered <;> rfl
    | _ => rfl

theorem typed_of_run
    {σ : Type}
    {program : Programs.Program σ}
    {server : Server}
    {cin : Bytes}
    {conversation : Conversation σ}
    (run : Relation.ReflTransGen (Step program) (initial program server cin) conversation) :
    conversation.typed = cin := by
  induction run with
  | refl => rfl
  | tail _ step inductionHypothesis => exact step.typed.trans inductionHypothesis

/-- What was written can be received. -/
theorem Answered.receivable
    {σ : Type}
    {conversation : Conversation σ}
    {link : Link}
    (linked : conversation.link = some link)
    {s more : Bytes}
    (isShort : s.length ≤ 9998)
    (unread : link.unread = Framing.frame s ++ more) :
    Answered .receive conversation (.ok s)
      { conversation with
        link := some { link with unread := more }
        received := conversation.received ++ [s] } := by
  have nonempty : link.unread ≠ [] := by
    rw [unread]
    simp [Framing.frame]
  have delivers : Framing.available [.chunk link.unread nonempty] = link.unread :=
    List.append_nil _
  obtain ⟨rest, returned, rfl⟩ := Framing.receive_frame isShort
    (show Framing.available (Framing.Receiver.mk [.chunk link.unread nonempty] []).infd = _ from
      delivers.trans unread)
  exact .received s _ rest link conversation linked delivers returned

end Conversation
end OrderTracking
