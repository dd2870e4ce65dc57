import OrderTracking.Client.Defs

/-!
# Writing to a socket

The loop of `rio_writen`, which `IO::send` calls. A call of `write` may accept only a part
of the bytes, it may be interrupted, and it may fail. Clients are modelled without this
loop, by the number of bytes the peer still accepts: that they write the same, and fail at
the same point, is proved here.
-/

namespace OrderTracking
namespace Writing

/-- What one or more calls of `write` obtain: bytes are accepted, or a call returns no
positive number, with `errno` equal to `EINTR` or not. -/
inductive Write
  | accepted (count : Nat) (positive : 0 < count)
  | interrupted
  | failed

/-- A socket: what its calls of `write` obtain, after which everything is accepted, and the
bytes written to it. -/
structure Socket where
  writes : List Write
  out : Bytes

/-- The loop of `rio_writen`, with what is left of the buffer. Returns whether everything
was written. -/
def rioWritenLoop : List Write → Bytes → Bytes → Bool × Socket
  | [], bufp, out => (true, ⟨[], out ++ bufp⟩)
  | write :: writes, bufp, out =>
      if bufp = [] then (true, ⟨write :: writes, out⟩)
      else match write with
        | .interrupted => rioWritenLoop writes bufp out
        | .failed => (false, ⟨writes, out⟩)
        | .accepted count _ =>
            -- what is accepted beyond the end of the buffer is left for the next string
            if more : bufp.length < count then
              (true, ⟨.accepted (count - bufp.length) (Nat.sub_pos_of_lt more) :: writes,
                out ++ bufp⟩)
            else rioWritenLoop writes (bufp.drop count) (out ++ bufp.take count)

/-- `rio_writen`. -/
def rioWriten (usrbuf : Bytes) : Code Socket Int := fun socket =>
  match rioWritenLoop socket.writes usrbuf socket.out with
  | (true, final) => .ok usrbuf.length final
  | (false, final) => .ok (-1) final

/-- `IO::send`. -/
def send (s : Bytes) : Code Socket Unit := do
  let myFrame := Framing.frame s
  let written ← rioWriten myFrame
  if written ≠ myFrame.length then
    throw (.ioException "written frame size does not match expected frame size")
  else pure ()

/-! ## The loop -/

/-- The number of bytes that are accepted before a call fails. -/
def room : List Write → Option Nat
  | [] => none
  | .interrupted :: writes => room writes
  | .failed :: _ => some 0
  | .accepted count _ :: writes => (room writes).map (count + ·)

/-- How the loop ends. -/
inductive Written (writes : List Write) (bufp out : Bytes) : Bool × Socket → Prop
  | unlimited (later : List Write)
      (before : room writes = none)
      (after : room later = none) :
      Written writes bufp out (true, ⟨later, out ++ bufp⟩)
  | fits (later : List Write) (left : Nat)
      (before : room writes = some (bufp.length + left))
      (after : room later = some left) :
      Written writes bufp out (true, ⟨later, out ++ bufp⟩)
  | stopped (later : List Write) (accepted : Nat)
      (before : room writes = some accepted)
      (short : accepted < bufp.length) :
      Written writes bufp out (false, ⟨later, out ++ bufp.take accepted⟩)

theorem written_nothing
    (writes : List Write)
    (out : Bytes) :
    Written writes [] out (true, ⟨writes, out ++ []⟩) := by
  cases isRoom : room writes with
  | none => exact .unlimited writes isRoom isRoom
  | some left => exact .fits writes left (by rw [isRoom, List.length_nil, Nat.zero_add]) isRoom

/-- A buffer that ends within what is accepted. -/
theorem written_accepted
    {count : Nat}
    {positive : 0 < count}
    {bufp : Bytes}
    (more : bufp.length < count)
    (writes : List Write)
    (out : Bytes) :
    Written (.accepted count positive :: writes) bufp out
      (true, ⟨.accepted (count - bufp.length) (Nat.sub_pos_of_lt more) :: writes,
        out ++ bufp⟩) := by
  cases isRoom : room writes with
  | none => exact .unlimited _ (by simp [room, isRoom]) (by simp [room, isRoom])
  | some left =>
      refine .fits _ (count - bufp.length + left) ?_ (by simp [room, isRoom])
      simp only [room, isRoom, Option.map_some, Option.some.injEq]
      omega

/-- An interrupted call changes nothing. -/
theorem Written.after_interrupted
    {writes : List Write}
    {bufp out : Bytes}
    {result : Bool × Socket}
    (written : Written writes bufp out result) :
    Written (.interrupted :: writes) bufp out result := by
  cases written with
  | unlimited later before after => exact .unlimited later before after
  | fits later left before after => exact .fits later left before after
  | stopped later accepted before short => exact .stopped later accepted before short

/-- A part of the buffer is accepted, and the loop goes on with the rest. -/
theorem Written.after_part
    {count : Nat}
    {positive : 0 < count}
    {writes : List Write}
    {bufp out : Bytes}
    (enough : count ≤ bufp.length)
    {result : Bool × Socket}
    (written : Written writes (bufp.drop count) (out ++ bufp.take count) result) :
    Written (.accepted count positive :: writes) bufp out result := by
  have whole : out ++ bufp.take count ++ bufp.drop count = out ++ bufp := by
    rw [List.append_assoc, List.take_append_drop]
  have length : (bufp.drop count).length = bufp.length - count := List.length_drop
  cases written with
  | unlimited later before after =>
      rw [whole]
      exact .unlimited later (by simp [room, before]) after
  | fits later left before after =>
      rw [whole]
      refine .fits later left ?_ after
      simp only [room, before, Option.map_some, Option.some.injEq, length]
      omega
  | stopped later accepted before short =>
      have split : out ++ bufp.take count ++ (bufp.drop count).take accepted =
          out ++ bufp.take (count + accepted) := by
        rw [List.append_assoc, List.take_add]
      rw [split]
      refine .stopped later (count + accepted) (by simp [room, before]) ?_
      omega

theorem rioWritenLoop_written
    (writes : List Write)
    (bufp out : Bytes) :
    Written writes bufp out (rioWritenLoop writes bufp out) := by
  induction writes generalizing bufp out with
  | nil => exact .unlimited [] rfl rfl
  | cons write writes inductionHypothesis =>
      unfold rioWritenLoop
      by_cases empty : bufp = []
      · subst empty
        simpa using written_nothing (write :: writes) out
      · have positive := List.length_pos_of_ne_nil empty
        rw [if_neg empty]
        cases write with
        | interrupted => exact (inductionHypothesis bufp out).after_interrupted
        | failed =>
            have stopped := @Written.stopped (.failed :: writes) bufp out writes 0 rfl positive
            simpa using stopped
        | accepted count isPositive =>
            dsimp only
            split
            · exact written_accepted ‹_› writes out
            · exact (inductionHypothesis _ _).after_part (Nat.le_of_not_lt ‹_›)

/-! ## Clients -/

/-- A client with this socket, as it is modelled without the loop. -/
def on (client : Client) (socket : Socket) : Client :=
  { client with
    out := socket.out
    room := room socket.writes }

/-- What `IO::send` throws when not everything was written. -/
abbrev unwritten : Exception :=
  .ioException "written frame size does not match expected frame size"

/-- Both return and have written everything, and the client is still as the socket is, or
both throw the `IOException` and have written the same part of it. -/
inductive SameSends (client : Client) (whole : Bytes) :
    EStateM.Result Exception Socket Unit → EStateM.Result Exception Client Unit → Prop
  | returned (socket : Socket) (wrote : socket.out = whole) :
      SameSends client whole (.ok () socket) (.ok () (on client socket))
  | threw (socket : Socket) (next : Client)
      (wrote : socket.out <+: whole) (same : next.out = socket.out)
      (infd : next.infd = client.infd) (mode : next.mode = client.mode) :
      SameSends client whole (.error unwritten socket) (.error unwritten next)

theorem send_run_of_written
    {s : Bytes}
    {socket final : Socket}
    (looped : rioWritenLoop socket.writes (Framing.frame s) socket.out = (true, final)) :
    (send s).run socket = .ok () final := by
  have ran : (rioWriten (Framing.frame s)).run socket =
      .ok ((Framing.frame s).length : Int) final := by
    rw [EStateM.run, rioWriten, looped]
  rw [send, EStateM.run_bind, ran]
  simp

theorem send_run_of_stopped
    {s : Bytes}
    {socket final : Socket}
    (looped : rioWritenLoop socket.writes (Framing.frame s) socket.out = (false, final)) :
    (send s).run socket = .error unwritten final := by
  have ran : (rioWriten (Framing.frame s)).run socket = .ok (-1) final := by
    rw [EStateM.run, rioWriten, looped]
  have different : (-1 : Int) ≠ (Framing.frame s).length := by omega
  rw [send, EStateM.run_bind, ran]
  dsimp only
  rw [if_pos different]
  rfl

theorem sameSends_send
    (client : Client)
    (s : Bytes)
    (socket : Socket) :
    SameSends client (socket.out ++ Framing.frame s) ((send s).run socket)
      ((Client.send s).run (on client socket)) := by
  have written := rioWritenLoop_written socket.writes (Framing.frame s) socket.out
  change SameSends client _ _ (Client.send s (on client socket))
  unfold Client.send
  generalize looped : rioWritenLoop socket.writes (Framing.frame s) socket.out = result
    at written
  cases written with
  | unlimited later before after =>
      have isRoom : (on client socket).room = none := before
      have same := @SameSends.returned client _ ⟨later, socket.out ++ Framing.frame s⟩ rfl
      rw [on, after] at same
      rw [send_run_of_written looped, isRoom]
      exact same
  | fits later left before after =>
      have isRoom : (on client socket).room = _ := before
      have same := @SameSends.returned client _ ⟨later, socket.out ++ Framing.frame s⟩ rfl
      rw [on, after] at same
      rw [send_run_of_written looped, isRoom]
      dsimp only
      rw [if_pos (Nat.le_add_right _ _), Nat.add_sub_cancel_left]
      exact same
  | stopped later accepted before short =>
      have isRoom : (on client socket).room = _ := before
      rw [send_run_of_stopped looped, isRoom]
      dsimp only
      rw [if_neg (Nat.not_le_of_lt short)]
      have part := (List.prefix_append_right_inj socket.out).mpr
        (List.take_prefix accepted (Framing.frame s))
      exact .threw _ _ part rfl rfl rfl

/-- However the calls of `write` divide the bytes, are interrupted or fail, any number of
strings is sent as it is modelled without them. -/
theorem sends_through_writes
    (client : Client)
    (strs : List Bytes)
    (socket : Socket) :
    SameSends client (socket.out ++ strs.flatMap Framing.frame)
      ((strs.forM send).run socket) ((strs.forM Client.send).run (on client socket)) := by
  induction strs generalizing socket with
  | nil => exact .returned socket (List.append_nil _).symm
  | cons s strs inductionHypothesis =>
      have first := sameSends_send client s socket
      change SameSends client _ ((send s >>= fun _ => strs.forM send).run socket)
        ((Client.send s >>= fun _ => strs.forM Client.send).run (on client socket))
      rw [EStateM.run_bind, EStateM.run_bind, List.flatMap_cons, ← List.append_assoc]
      generalize (send s).run socket = result at first
      generalize (Client.send s).run (on client socket) = other at first
      cases first with
      | returned final wrote =>
          rw [← wrote]
          exact inductionHypothesis final
      | threw final next wrote same infd mode =>
          exact .threw final next (wrote.trans (List.prefix_append _ _)) same infd mode

/-- Five bytes of a frame are accepted before a call fails. -/
example :
    ((send (ascii "QUIT")).run
      ⟨[.accepted 3 (by decide), .interrupted, .accepted 2 (by decide), .failed], []⟩) =
    .error (.ioException "written frame size does not match expected frame size")
      ⟨[], ascii "0005Q"⟩ := by
  rfl

end Writing
end OrderTracking
