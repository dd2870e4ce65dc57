import OrderTracking.Client.Spec
import OrderTracking.Client.System
import OrderTracking.Conversation.Defs

/-!
# What is not delivered yet

What a function does that does not meet the end of its input is the same whatever is
delivered later, and whatever the peer stops accepting later. So a session may be
looked at as if all its input and the limit of its output had been known from the
start, although they depend on what it sends.
-/

namespace OrderTracking

/-! ## Clients -/

namespace Client

/-- The client as if what is delivered later were known, and how many bytes the peer
accepts in total, if that is limited. -/
def foresee (later : Framing.Input) (total : Option Nat) (client : Client) : Client :=
  { client with
    infd := client.infd ++ later
    room :=
      match client.room with
      | some room => some room
      | none => total.map (· - client.out.length) }

/-- The peer has accepted no more than it does in total. -/
def Within (total : Option Nat) (client : Client) : Prop :=
  ∀ bound ∈ total, client.out.length ≤ bound

/-- The output grows, and stays unlimited if it was. -/
structure Grows (client next : Client) : Prop where
  longer : client.out.length ≤ next.out.length
  unlimited : client.room = none → next.room = none

theorem Grows.refl (client : Client) : Grows client client :=
  ⟨le_refl _, id⟩

theorem Grows.trans
    {client next last : Client}
    (first : Grows client next)
    (second : Grows next last) :
    Grows client last :=
  ⟨first.longer.trans second.longer, second.unlimited ∘ first.unlimited⟩

theorem Within.mono
    {total : Option Nat}
    {client next : Client}
    (within : Within total next)
    (grows : Grows client next) :
    Within total client :=
  fun bound isTotal => grows.longer.trans (within bound isTotal)

/-- The code does the same whatever is delivered later and whenever the peer stops
accepting, unless it meets the end or writes more than is accepted. -/
structure Causal (code : Code Client α) : Prop where
  grows : ∀ client, Grows client (Code.stateOf (code.run client))
  run : ∀ (client : Client) later total, ¬ Code.MeetsEnd (code.run client) →
    Within total (Code.stateOf (code.run client)) →
      code.run (client.foresee later total) =
        Code.mapState (foresee later total) (code.run client)

theorem Causal.pure (value : α) : Causal (Pure.pure value) where
  grows := Grows.refl
  run := fun _ _ _ _ _ => rfl

theorem Causal.throw (exception : Exception) : Causal (throw exception : Code Client α) where
  grows := Grows.refl
  run := fun _ _ _ _ _ => rfl

theorem Causal.bind
    {first : Code Client α}
    {next : α → Code Client β}
    (causal : Causal first)
    (nextCausal : ∀ value, Causal (next value)) :
    Causal (first >>= next) where
  grows := by
    intro client
    have grows := causal.grows client
    rw [EStateM.run_bind]
    cases ran : first.run client with
    | error exception middle =>
        rw [ran] at grows
        exact grows
    | ok value middle =>
        rw [ran] at grows
        exact grows.trans ((nextCausal value).grows middle)
  run := by
    intro client later total enough within
    rw [EStateM.run_bind] at enough within ⊢
    rw [EStateM.run_bind]
    have same := causal.run client later total
    cases ran : first.run client with
    | error exception middle =>
        rw [ran] at enough within same
        have notEnd : ¬ Code.MeetsEnd (.error exception middle : EStateM.Result _ _ α) := by
          rintro ⟨state, ended⟩
          cases ended
          exact enough ⟨_, rfl⟩
        rw [same notEnd within]
        rfl
    | ok value middle =>
        rw [ran] at enough within same
        rw [same (Code.not_meetsEnd_ok value middle)
          (within.mono ((nextCausal value).grows middle))]
        exact (nextCausal value).run middle later total enough within

theorem causal_receive : Causal receive where
  grows := by
    intro client
    rw [EStateM.run, receive]
    cases Framing.receive.run ⟨client.infd, []⟩ <;> exact ⟨le_refl _, id⟩
  run := by
    intro client later total enough within
    have notEnd : ¬ Code.MeetsEnd (Framing.receive.run ⟨client.infd, []⟩) := by
      rintro ⟨receiver, ended⟩
      refine enough ⟨{ client with infd := receiver.infd }, ?_⟩
      rw [EStateM.run, receive, ended]
    have same := Framing.causal_receive ⟨client.infd, []⟩ later notEnd
    have reads : (client.foresee later total).infd = client.infd ++ later := rfl
    rw [EStateM.run, EStateM.run, receive, receive, reads]
    simp only [Framing.Receiver.append] at same
    rw [same]
    cases Framing.receive.run ⟨client.infd, []⟩ <;> rfl

theorem causal_decode (raw : Bytes) : Causal (decode raw) where
  grows := by
    intro client
    rw [EStateM.run, decode]
    cases (Wire.decode raw).run .empty <;> exact Grows.refl client
  run := by
    intro client later total _ _
    rw [EStateM.run, EStateM.run, decode, decode]
    cases (Wire.decode raw).run .empty <;> rfl

/-- A write that the peer accepts is accepted under any later limit. -/
theorem causal_send (s : Bytes) : Causal (send s) where
  grows := by
    intro client
    rw [EStateM.run]
    unfold send
    cases limit : client.room with
    | none => exact ⟨by simp [Code.stateOf], fun _ => rfl⟩
    | some room =>
        dsimp only
        split
        · exact ⟨by simp [Code.stateOf], fun none => by rw [limit] at none; cases none⟩
        · exact ⟨by simp [Code.stateOf], fun none => by rw [limit] at none; cases none⟩
  run := by
    intro client later total _ within
    rw [EStateM.run] at within
    rw [EStateM.run, EStateM.run]
    unfold send at within ⊢
    cases limit : client.room with
    | some room =>
        simp only [foresee, limit]
        split <;> simp [Code.mapState, foresee]
    | none =>
        cases total with
        | none => simp [Code.mapState, foresee, limit]
        | some bound =>
            simp only [limit, Code.stateOf] at within
            have fits := within bound rfl
            rw [List.length_append] at fits
            have accepted : (Framing.frame s).length ≤ bound - client.out.length := by omega
            simp only [foresee, limit, Option.map_some, accepted, if_true, Code.mapState,
              List.length_append]
            congr 3
            omega

theorem causal_sendMsg (msg : Message) : Causal (sendMsg msg) := by
  cases encoded : (Wire.encode msg).run [] with
  | ok value out =>
      have same : sendMsg msg = send out := by
        funext client
        exact sendMsg_run encoded client
      rw [same]
      exact causal_send out
  | error exception out =>
      have same : sendMsg msg = throw exception := by
        funext client
        rw [sendMsg, encoded]
        rfl
      rw [same]
      exact Causal.throw exception

theorem causal_forM_send (strings : List Bytes) : Causal (strings.forM send) := by
  induction strings with
  | nil => exact Causal.pure ()
  | cons s strings inductionHypothesis =>
      exact (causal_send s).bind fun _ => inductionHypothesis

theorem causal_login : Causal login := by
  unfold login
  refine causal_receive.bind fun raw => (causal_decode raw).bind fun req => ?_
  split
  · exact Causal.throw _
  · split
    · exact (causal_sendMsg _).bind fun _ => Causal.throw _
    · refine Causal.bind ⟨fun _ => ⟨le_refl _, id⟩, fun _ _ _ _ _ => rfl⟩
        fun _ => ?_
      split
      · exact (causal_sendMsg _).bind fun _ => Causal.throw _
      · exact causal_sendMsg _

/-! ## Turns -/

/-- The client of a turn as if what is delivered later were known. -/
def foreseeTurn (later : Framing.Input) (total : Option Nat) (state : Server × Client) :
    Server × Client :=
  (state.1, state.2.foresee later total)

/-- `Causal` for code that also acts on the server. -/
structure CausalTurn (turn : Client → EStateM.Result Exception (Server × Client) Bool) :
    Prop where
  grows : ∀ client, Grows client (Code.stateOf (turn client)).2
  run : ∀ client later total, ¬ Code.MeetsEnd (turn client) →
    Within total (Code.stateOf (turn client)).2 →
      turn (client.foresee later total) =
        Code.mapState (foreseeTurn later total) (turn client)

/-- What a turn of `update_chat` does with its responses once the server has changed. -/
def respond (server : Server) (responses : List Bytes) (ending : Except Exception Bool)
    (client : Client) : EStateM.Result Exception (Server × Client) Bool :=
  match (responses.forM send).run client with
  | .error failure client => .error failure (server, client)
  | .ok _ client =>
      match ending with
      | .error exception => .error exception (server, client)
      | .ok ends => .ok ends (server, client)

theorem causalTurn_respond
    (server : Server)
    (responses : List Bytes)
    (ending : Except Exception Bool) :
    CausalTurn (respond server responses ending) where
  grows := by
    intro client
    have grows := (causal_forM_send responses).grows client
    unfold respond
    cases ran : (responses.forM send).run client with
    | error failure next =>
        rw [ran] at grows
        exact grows
    | ok value next =>
        rw [ran] at grows
        cases ending <;> exact grows
  run := by
    intro client later total enough within
    have same := (causal_forM_send responses).run client later total
    unfold respond at enough within ⊢
    cases ran : (responses.forM send).run client with
    | error failure next =>
        rw [ran] at enough within same
        have notEnd : ¬ Code.MeetsEnd (.error failure next :
            EStateM.Result Exception Client PUnit) := by
          rintro ⟨state, ended⟩
          cases ended
          exact enough ⟨_, rfl⟩
        rw [same notEnd within]
        rfl
    | ok value next =>
        rw [ran] at within same
        have notEnd := Code.not_meetsEnd_ok value next
        cases ending with
        | error exception =>
            rw [same notEnd within]
            rfl
        | ok ends =>
            rw [same notEnd within]
            rfl

/-- A turn receives a string, changes the server and responds. -/
theorem updateChat_run_eq
    (server : Server)
    (client : Client) :
    updateChat.run (server, client) =
      match receive.run client with
      | .error exception client => .error exception (server, client)
      | .ok raw client =>
          match (Updater.updateChat raw).run ⟨server, []⟩ with
          | .error exception turn => respond turn.server turn.sent (.error exception) client
          | .ok ends turn => respond turn.server turn.sent (.ok ends) client := rfl

theorem causalTurn_updateChat (server : Server) :
    CausalTurn fun client => updateChat.run (server, client) := by
  have answers : ∀ raw, CausalTurn fun client =>
      match (Updater.updateChat raw).run ⟨server, []⟩ with
      | .error exception turn => respond turn.server turn.sent (.error exception) client
      | .ok ends turn => respond turn.server turn.sent (.ok ends) client := by
    intro raw
    cases (Updater.updateChat raw).run ⟨server, []⟩ with
    | error exception turn => exact causalTurn_respond ..
    | ok ends turn => exact causalTurn_respond ..
  constructor
  · intro client
    have grows := causal_receive.grows client
    rw [updateChat_run_eq]
    cases received : receive.run client with
    | error exception next =>
        rw [received] at grows
        exact grows
    | ok raw next =>
        rw [received] at grows
        exact grows.trans ((answers raw).grows next)
  · intro client later total enough within
    have same := causal_receive.run client later total
    rw [updateChat_run_eq] at enough within ⊢
    rw [updateChat_run_eq]
    cases received : receive.run client with
    | error exception next =>
        rw [received] at enough within same
        have notEnd : ¬ Code.MeetsEnd (.error exception next :
            EStateM.Result Exception Client Bytes) := by
          rintro ⟨state, ended⟩
          cases ended
          exact enough ⟨_, rfl⟩
        rw [same notEnd within]
        rfl
    | ok raw next =>
        rw [received] at enough within same
        rw [same (Code.not_meetsEnd_ok raw next) (within.mono ((answers raw).grows next))]
        exact (answers raw).run next later total enough within

end Client

/-! ## Sessions -/

namespace Session

/-- The session as if what is delivered later were known. -/
def foresee (later : Framing.Input) (total : Option Nat) (session : Session) : Session :=
  { session with
    client := session.client.foresee later total
    origin := session.origin.foresee later total }

/-- A session that has not met the end of its input would have made the same step with
what is delivered later. -/
theorem Step.foresee
    {self : ClientPtr}
    {server final : Server}
    {session next : Session}
    (step : Step self server session final next)
    (notEnd : ¬ Conversation.MetEnd next)
    {later : Framing.Input}
    {total : Option Nat}
    (within : Client.Within total next.client) :
    Step self server (session.foresee later total) final (next.foresee later total) := by
  cases step with
  | spawn => exact .spawn ..
  | spawnFailed => exact .spawnFailed ..
  | login client next origin serial _ ran =>
      have same := Client.causal_login.run client later total
      rw [ran] at same
      have loggedIn := same (by rintro ⟨state, ended⟩; cases ended) within
      exact .login _ _ _ _ _ loggedIn
  | loginFailed exception client next origin serial _ ran =>
      have same := Client.causal_login.run client later total
      rw [ran] at same
      have failed := same (by rintro ⟨state, ended⟩; cases ended; exact notEnd rfl) within
      exact .loginFailed _ _ _ _ _ _ failed
  | turn ends client next origin serial _ _ ran =>
      have same := (Client.causalTurn_updateChat server).run client later total
      simp only [ran] at same
      have turned := same (by rintro ⟨state, ended⟩; cases ended) within
      exact .turn _ _ _ _ _ _ _ turned
  | turnFailed exception client next origin serial _ _ ran =>
      have same := (Client.causalTurn_updateChat server).run client later total
      simp only [ran] at same
      have failed := same (by rintro ⟨state, ended⟩; cases ended; exact notEnd rfl) within
      exact .turnFailed _ _ _ _ _ _ _ failed
  | register client origin serial _ _ ran => exact .register _ _ _ _ _ ran
  | snapshot orders client origin serial _ copied => exact .snapshot _ _ _ _ _ copied
  | send msg unsent client next origin serial _ ran =>
      have same := (Client.causal_sendMsg msg).run client later total
      rw [ran] at same
      have sent := same (by rintro ⟨state, ended⟩; cases ended) within
      exact .send _ _ _ _ _ _ _ sent
  | sendFailed exception msg unsent client next origin serial _ ran =>
      have same := (Client.causal_sendMsg msg).run client later total
      rw [ran] at same
      have failed := same (by rintro ⟨state, ended⟩; cases ended; exact notEnd rfl) within
      exact .sendFailed _ _ _ _ _ _ _ _ failed
  | dequeue msg client origin serial _ _ ran => exact .dequeue _ _ _ _ _ _ ran
  | timeout => exact .timeout ..
  | unregister how client origin serial _ _ ran => exact .unregister _ _ _ _ _ _ ran

/-- The peer has accepted everything so far, and may go on doing so. -/
structure Unlimited (session : Session) : Prop where
  client : session.client.room = none
  origin : session.origin.room = none
  silent : session.origin.out = []

theorem Unlimited.grows
    {session next : Session}
    (unlimited : session.Unlimited)
    (grows : Client.Grows session.client next.client)
    (same : next.origin = session.origin) :
    next.Unlimited :=
  ⟨grows.unlimited unlimited.client, same ▸ unlimited.origin, same ▸ unlimited.silent⟩

/-- The output of a session grows with every step. -/
theorem Step.grows
    {self : ClientPtr}
    {server final : Server}
    {session next : Session}
    (step : Step self server session final next) :
    Client.Grows session.client next.client := by
  cases step with
  | login client next origin serial _ ran =>
      have grows := Client.causal_login.grows client
      rwa [ran] at grows
  | loginFailed exception client next origin serial _ ran =>
      have grows := Client.causal_login.grows client
      rwa [ran] at grows
  | turn ends client next origin serial _ _ ran =>
      have grows := (Client.causalTurn_updateChat server).grows client
      rwa [ran] at grows
  | turnFailed exception client next origin serial _ _ ran =>
      have grows := (Client.causalTurn_updateChat server).grows client
      rwa [ran] at grows
  | send msg unsent client next origin serial _ ran =>
      have grows := (Client.causal_sendMsg msg).grows client
      rwa [ran] at grows
  | sendFailed exception msg unsent client next origin serial _ ran =>
      have grows := (Client.causal_sendMsg msg).grows client
      rwa [ran] at grows
  | _ => exact .refl _

end Session
end OrderTracking
