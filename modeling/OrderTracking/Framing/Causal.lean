import OrderTracking.Framing.Exact

/-!
# Receiving while more is delivered

What `IO::receive` does that does not meet the end of the file is the same whatever is
delivered later. So frames that arrive in any pieces are received one after the other,
and a connection that only carries frames fails at its end alone.
-/

namespace OrderTracking

/-! ## Results -/

/-- Change the state a result leaves. -/
def Code.mapState (change : σ → σ) :
    EStateM.Result Exception σ α → EStateM.Result Exception σ α
  | .ok value state => .ok value (change state)
  | .error exception state => .error exception (change state)

/-- The state a result leaves. -/
def Code.stateOf : EStateM.Result Exception σ α → σ
  | .ok _ state => state
  | .error _ state => state

/-- The end of the input was met. -/
def Code.MeetsEnd (result : EStateM.Result Exception σ α) : Prop :=
  ∃ state, result = .error (.ioException "file ended early") state

theorem Code.not_meetsEnd_ok
    (value : α)
    (state : σ) :
    ¬ Code.MeetsEnd (.ok value state) := by
  rintro ⟨other, ended⟩
  cases ended

/-! ## Receiving -/

namespace Framing

theorem read_append
    {infd : Input}
    (nonempty : infd ≠ [])
    (count : Nat)
    (later : Input) :
    read count (infd ++ later) = ((read count infd).1, (read count infd).2 ++ later) := by
  cases infd with
  | nil => exact absurd rfl nonempty
  | cons delivery rest =>
      cases delivery with
      | failure => rfl
      | chunk bytes isNonempty =>
          simp only [List.cons_append, read]
          split <;> rfl

theorem putToBufferLoop_append
    (byteSize : Nat)
    (buf : Bytes)
    (infd later : Input)
    (enough : ¬ Code.MeetsEnd (putToBufferLoop byteSize buf infd)) :
    putToBufferLoop byteSize buf (infd ++ later) =
      Code.mapState (· ++ later) (putToBufferLoop byteSize buf infd) := by
  fun_induction putToBufferLoop byteSize buf infd with
  | case1 buf infd unfinished rest ended => exact absurd ⟨rest, rfl⟩ enough
  | case2 buf infd unfinished rest failed =>
      have nonempty : infd ≠ [] := by
        rintro rfl
        cases failed
      rw [putToBufferLoop, if_pos unfinished, read_append nonempty, failed]
      rfl
  | case3 buf infd unfinished byte bytes rest got inductionHypothesis =>
      have nonempty : infd ≠ [] := by
        rintro rfl
        cases got
      rw [putToBufferLoop, if_pos unfinished, read_append nonempty, got]
      exact inductionHypothesis enough
  | case4 buf infd finished =>
      rw [putToBufferLoop, if_neg finished]
      rfl

/-- More deliveries for a receiver. -/
def Receiver.append (later : Input) (receiver : Receiver) : Receiver :=
  { receiver with infd := receiver.infd ++ later }

/-- The code does the same whatever is delivered later, unless it meets the end. -/
def Causal (code : Code Receiver α) : Prop :=
  ∀ receiver later, ¬ Code.MeetsEnd (code.run receiver) →
    code.run (receiver.append later) =
      Code.mapState (Receiver.append later) (code.run receiver)

theorem Causal.pure (value : α) : Causal (Pure.pure value) :=
  fun _ _ _ => rfl

theorem Causal.throw (exception : Exception) : Causal (throw exception : Code Receiver α) :=
  fun _ _ _ => rfl

theorem Causal.bind
    {first : Code Receiver α}
    {next : α → Code Receiver β}
    (causal : Causal first)
    (nextCausal : ∀ value, Causal (next value)) :
    Causal (first >>= next) := by
  intro receiver later enough
  rw [EStateM.run_bind] at enough ⊢
  rw [EStateM.run_bind]
  cases ran : first.run receiver with
  | error exception middle =>
      rw [ran] at enough
      have notEnd : ¬ Code.MeetsEnd (first.run receiver) := by
        rintro ⟨state, ended⟩
        rw [ran] at ended
        cases ended
        exact enough ⟨_, rfl⟩
      rw [causal receiver later notEnd, ran]
      rfl
  | ok value middle =>
      rw [ran] at enough
      rw [causal receiver later (ran ▸ Code.not_meetsEnd_ok value middle), ran]
      exact nextCausal value middle later enough

theorem causal_putToBuffer (byteSize : Nat) : Causal (putToBuffer byteSize) := by
  intro receiver later enough
  have loopEnough : ¬ Code.MeetsEnd (putToBufferLoop byteSize [] receiver.infd) := by
    rintro ⟨rest, ended⟩
    refine enough ⟨{ receiver with infd := rest }, ?_⟩
    rw [EStateM.run, putToBuffer, ended]
  have loop := putToBufferLoop_append byteSize [] receiver.infd later loopEnough
  rw [EStateM.run, EStateM.run, putToBuffer, putToBuffer, Receiver.append]
  simp only [loop]
  cases putToBufferLoop byteSize [] receiver.infd <;> rfl

theorem causal_lift (result : Except Exception α) :
    Causal (liftM result : Code Receiver α) := by
  cases result with
  | error exception => exact Causal.throw exception
  | ok value => exact Causal.pure value

/-- `receive` does not depend on what is delivered later. -/
theorem causal_receive : Causal receive := by
  unfold receive
  refine (causal_putToBuffer 4).bind fun message => ?_
  split
  · exact Causal.throw _
  · refine (causal_lift _).bind fun myLength => ?_
    split
    · exact Causal.throw _
    · unfold receiveString
      refine (causal_putToBuffer _).bind fun message1 => ?_
      split
      · exact Causal.throw _
      · exact (causal_lift _).bind fun s _ _ _ => rfl

/-! ## What follows what was delivered -/

/-- The input ends without a failure. -/
def Unbroken (infd : Input) : Prop :=
  ∀ delivery ∈ infd, delivery ≠ .failure

/-- Whatever is delivered later can be read after what has been delivered. -/
def Continues (infd : Input) : Prop :=
  ∀ later, available (infd ++ later) = available infd ++ available later

theorem continues_nil : Continues [] :=
  fun _ => rfl

theorem Continues.deliver
    {infd : Input}
    (continues : Continues infd)
    {bytes : Bytes}
    (nonempty : bytes ≠ []) :
    Continues (infd ++ [.chunk bytes nonempty]) := by
  intro later
  rw [List.append_assoc, continues, continues, List.append_assoc]
  simp [available]

/-- Receiving does not skip a failure. -/
theorem Continues.rest
    {infd rest : Input}
    (continues : Continues infd)
    {s : Bytes}
    (returned : receive.run ⟨infd, []⟩ = .ok () ⟨rest, s⟩) :
    Continues rest := by
  intro later
  have enough : ¬ Code.MeetsEnd (receive.run ⟨infd, []⟩) := by
    rw [returned]
    exact Code.not_meetsEnd_ok _ _
  have same := causal_receive ⟨infd, []⟩ later enough
  rw [returned] at same
  obtain ⟨-, before⟩ := framed_of_receive returned
  obtain ⟨-, after⟩ := framed_of_receive
    (show receive.run ⟨infd ++ later, []⟩ = .ok () ⟨rest ++ later, s⟩ from same)
  rw [continues, before, List.append_assoc] at after
  exact (List.append_cancel_left after).symm

/-- A failure is not seen before what has been delivered earlier. -/
theorem available_append_failure (infd : Input) :
    available (infd ++ [.failure]) = available infd := by
  induction infd with
  | nil => rfl
  | cons delivery rest inductionHypothesis =>
      cases delivery with
      | failure => rfl
      | chunk bytes nonempty => rw [List.cons_append, available, inductionHypothesis, available]

theorem Unbroken.continues
    {infd : Input}
    (unbroken : Unbroken infd) :
    Continues infd := by
  intro later
  induction infd with
  | nil => rfl
  | cons delivery rest inductionHypothesis =>
      have restUnbroken : Unbroken rest := fun other member =>
        unbroken other (List.mem_cons_of_mem delivery member)
      cases delivery with
      | failure => exact absurd rfl (unbroken .failure List.mem_cons_self)
      | chunk bytes nonempty =>
          rw [List.cons_append, available, available, inductionHypothesis restUnbroken,
            List.append_assoc]

theorem Unbroken.eq_nil
    {infd : Input}
    (unbroken : Unbroken infd)
    (nothing : available infd = []) :
    infd = [] := by
  cases infd with
  | nil => rfl
  | cons delivery rest =>
      cases delivery with
      | failure => exact absurd rfl (unbroken .failure List.mem_cons_self)
      | chunk bytes nonempty => exact absurd (List.append_eq_nil_iff.mp nothing).1 nonempty

/-! ## The end of the file -/

theorem read_empty
    {count : Nat}
    (positive : 0 < count)
    {infd rest : Input}
    (ended : read count infd = (some [], rest)) :
    rest = [] := by
  cases infd with
  | nil => exact (Prod.mk.inj ended).2.symm
  | cons delivery more =>
      cases delivery with
      | failure => cases (Prod.mk.inj ended).1
      | chunk bytes nonempty =>
          rw [read] at ended
          split at ended
          · have empty := Option.some.inj (Prod.mk.inj ended).1
            rw [List.take_eq_nil_iff] at empty
            rcases empty with zero | isNil
            · omega
            · exact absurd isNil nonempty
          · exact absurd (Option.some.inj (Prod.mk.inj ended).1) nonempty

theorem putToBufferLoop_ended
    {byteSize : Nat}
    {buf : Bytes}
    {infd rest : Input}
    (ended : putToBufferLoop byteSize buf infd =
      .error (.ioException "file ended early") rest) :
    rest = [] := by
  fun_induction putToBufferLoop byteSize buf infd with
  | case1 buf infd unfinished left got =>
      cases ended
      exact read_empty (Nat.sub_pos_of_lt unfinished) got
  | case2 buf infd unfinished left failed =>
      simp at ended
  | case3 buf infd unfinished byte bytes left got inductionHypothesis =>
      exact inductionHypothesis ended
  | case4 buf infd finished => cases ended

/-- The code meets the end of the file only after everything was read. -/
def EndsLast (code : Code Receiver α) : Prop :=
  ∀ receiver final, code.run receiver = .error (.ioException "file ended early") final →
    final.infd = []

theorem EndsLast.pure (value : α) : EndsLast (Pure.pure value) :=
  fun _ _ impossible => (by cases impossible)

theorem EndsLast.throw
    {exception : Exception}
    (other : exception ≠ .ioException "file ended early") :
    EndsLast (throw exception : Code Receiver α) := by
  intro receiver final ended
  exact absurd (EStateM.Result.error.inj ended).1 other

theorem EndsLast.bind
    {first : Code Receiver α}
    {next : α → Code Receiver β}
    (ends : EndsLast first)
    (nextEnds : ∀ value, EndsLast (next value)) :
    EndsLast (first >>= next) := by
  intro receiver final ended
  rw [EStateM.run_bind] at ended
  cases ran : first.run receiver with
  | error exception middle =>
      rw [ran] at ended
      cases ended
      exact ends receiver _ ran
  | ok value middle =>
      rw [ran] at ended
      exact nextEnds value middle final ended

theorem endsLast_putToBuffer (byteSize : Nat) : EndsLast (putToBuffer byteSize) := by
  intro receiver final ended
  rw [EStateM.run, putToBuffer] at ended
  cases ran : putToBufferLoop byteSize [] receiver.infd with
  | ok buf rest =>
      rw [ran] at ended
      cases ended
  | error exception rest =>
      rw [ran] at ended
      cases ended
      exact putToBufferLoop_ended ran

theorem endsLast_lift
    {result : Except Exception α}
    (other : result ≠ .error (.ioException "file ended early")) :
    EndsLast (liftM result : Code Receiver α) := by
  cases result with
  | error exception => exact EndsLast.throw fun same => other (same ▸ rfl)
  | ok value => exact EndsLast.pure value

/-- `std::stoi` throws its own exceptions. -/
theorem stoi_ne_ioException
    (s : Bytes)
    (what : String) :
    Cxx.stoi s ≠ .error (.ioException what) := by
  have value : ∀ number, Cxx.intOfValue number ≠ .error (.ioException what) := by
    intro number
    unfold Cxx.intOfValue
    split <;> simp
  have leading : ∀ rest (read : Nat → Except Exception Int32),
      (∀ number, read number ≠ .error (.ioException what)) →
        (Cxx.leadingNumber rest >>= read) ≠ .error (.ioException what) := by
    intro rest read none
    unfold Cxx.leadingNumber
    dsimp only
    split
    · simp [bind, Except.bind]
    · exact none _
  unfold Cxx.stoi
  dsimp only
  split
  · exact leading _ _ fun number => value _
  · split
    · exact leading _ _ fun number => value _
    · exact leading _ _ fun number => value _

theorem endsLast_receive : EndsLast receive := by
  unfold receive
  refine (endsLast_putToBuffer 4).bind fun message => ?_
  split
  · exact EndsLast.throw (by simp)
  · refine (endsLast_lift (stoi_ne_ioException _ _)).bind fun myLength => ?_
    split
    · exact EndsLast.throw (by simp)
    · unfold receiveString
      refine (endsLast_putToBuffer _).bind fun message1 => ?_
      split
      · exact EndsLast.throw (by simp)
      · have thrown : Cxx.substr message1 0 (myLength - 1).toInt.toNat ≠
            .error (.ioException "file ended early") := by
          simp [Cxx.substr]
        refine (endsLast_lift thrown).bind fun s => ?_
        exact fun _ _ impossible => by cases impossible

/-- The code does not meet the end of the file. -/
def Sated (code : Code Receiver α) : Prop :=
  ∀ receiver, ¬ Code.MeetsEnd (code.run receiver)

theorem Sated.throw
    {exception : Exception}
    (other : exception ≠ .ioException "file ended early") :
    Sated (throw exception : Code Receiver α) := by
  rintro receiver ⟨final, ended⟩
  exact other (EStateM.Result.error.inj ended).1

theorem not_meetsEnd_bind
    {first : Code Receiver α}
    {next : α → Code Receiver β}
    {receiver middle : Receiver}
    {value : α}
    (ran : first.run receiver = .ok value middle)
    (sated : ¬ Code.MeetsEnd ((next value).run middle)) :
    ¬ Code.MeetsEnd ((first >>= next).run receiver) := by
  rwa [EStateM.run_bind, ran]

theorem putToBuffer_of_enough
    {byteSize : Nat}
    {receiver : Receiver}
    (enough : byteSize ≤ (available receiver.infd).length) :
    ∃ taken rest, taken.length = byteSize ∧
      available receiver.infd = taken ++ available rest ∧
      (putToBuffer byteSize).run receiver = .ok taken ⟨rest, receiver.s⟩ := by
  rcases putToBuffer_cases byteSize receiver with filled | ⟨short, -⟩
  · exact filled
  · omega

theorem receiveString_sated
    {myLength : Int32}
    {receiver : Receiver}
    (enough : myLength.toInt.toNat ≤ (available receiver.infd).length) :
    ¬ Code.MeetsEnd ((receiveString myLength).run receiver) := by
  obtain ⟨taken, rest, -, -, filled⟩ := putToBuffer_of_enough enough
  refine not_meetsEnd_bind filled ?_
  split
  · exact Sated.throw (by simp) _
  · rintro ⟨final, ended⟩
    rw [EStateM.run_bind] at ended
    cases cut : Cxx.substr taken 0 (myLength - 1).toInt.toNat with
    | ok s =>
        rw [cut] at ended
        cases ended
    | error exception =>
        rw [cut] at ended
        simp [Cxx.substr] at cut

/-- Four digits never announce more than this. -/
theorem receive_sated
    {receiver : Receiver}
    (enough : 10003 ≤ (available receiver.infd).length) :
    ¬ Code.MeetsEnd (receive.run receiver) := by
  obtain ⟨message, rest, four, delivered, filled⟩ :=
    putToBuffer_of_enough (show 4 ≤ (available receiver.infd).length by omega)
  by_cases digits : ∀ byte ∈ message, Decimal.IsDigit byte
  · have small := Decimal.value_lt digits
    rw [four] at small
    rw [eq_header four digits] at filled
    rw [receive_of_header small filled]
    split
    · exact Sated.throw (by simp) ⟨rest, receiver.s⟩
    · apply receiveString_sated
      rw [toInt_ofInt_length small, Int.toNat_natCast]
      rw [delivered, List.length_append, four] at enough
      dsimp only
      omega
  · refine not_meetsEnd_bind filled ?_
    have invalid : (!ensureValidString message) = true := by
      rw [Bool.not_eq_true', ← Bool.not_eq_true, ensureValidString_iff]
      exact digits
    rw [if_pos invalid]
    exact Sated.throw (by simp) _

/-- A whole frame is enough, even of a string that is too long. -/
theorem receive_sated_of_frame
    {infd : Input}
    {s tail : Bytes}
    (framed : available infd = frame s ++ tail) :
    ¬ Code.MeetsEnd (receive.run ⟨infd, []⟩) := by
  by_cases isShort : s.length ≤ 9998
  · obtain ⟨rest, returned, -⟩ := receive_frame isShort
      (show available (Receiver.mk infd []).infd = _ from framed)
    rw [returned]
    exact Code.not_meetsEnd_ok _ _
  · apply receive_sated
    change 10003 ≤ (available infd).length
    have wide : 5 ≤ (header (s.length + 1)).length := by
      have digits := @Decimal.length_numeral_le_iff (s.length + 1) 4 (by decide)
      rw [header, List.length_leftpad]
      omega
    rw [framed, frame_eq, List.length_append, List.length_append, List.length_append,
      List.length_singleton]
    omega

/-! ## Frames one after the other -/

/-- A frame at the beginning of frames is the first of them. -/
theorem take_frame
    {strings : List Bytes}
    {bytes left s : Bytes}
    (isShort : s.length ≤ 9998)
    (begins : bytes = frame s ++ left)
    (delivered : bytes <+: strings.flatMap frame)
    (first : ∀ string more, strings = string :: more → string.length ≤ 9998) :
    ∃ more, strings = s :: more ∧ left <+: more.flatMap frame ∧
      (bytes = strings.flatMap frame → left = more.flatMap frame) := by
  subst begins
  cases strings with
  | nil =>
      have empty := List.prefix_nil.mp delivered
      simp [frame] at empty
  | cons string more =>
      obtain ⟨tail, whole⟩ := delivered
      rw [List.flatMap_cons, List.append_assoc] at whole
      obtain ⟨rfl, rest⟩ := frame_append_inj isShort (first string more rfl) whole
      refine ⟨more, rfl, ⟨tail, rest⟩, fun same => ?_⟩
      rw [List.flatMap_cons] at same
      exact List.append_cancel_left same

theorem flatMap_frame_eq_nil
    {strings : List Bytes}
    (nothing : strings.flatMap frame = []) :
    strings = [] := by
  cases strings with
  | nil => rfl
  | cons string more => simp [frame] at nothing

/-- Frames can be told apart. -/
theorem flatMap_frame_inj
    {left right : List Bytes}
    (short : ∀ s ∈ left, s.length ≤ 9998)
    (otherShort : ∀ s ∈ right, s.length ≤ 9998)
    (same : left.flatMap frame = right.flatMap frame) :
    left = right := by
  induction left generalizing right with
  | nil => exact (flatMap_frame_eq_nil same.symm).symm
  | cons string left inductionHypothesis =>
      cases right with
      | nil => exact flatMap_frame_eq_nil same
      | cons other right =>
          rw [List.flatMap_cons, List.flatMap_cons] at same
          obtain ⟨first, rest⟩ := List.forall_mem_cons.mp short
          obtain ⟨otherFirst, otherRest⟩ := List.forall_mem_cons.mp otherShort
          obtain ⟨rfl, frames⟩ := frame_append_inj first otherFirst same
          rw [inductionHypothesis rest otherRest frames]

/-- A connection that delivers frames, and fails to deliver one, has ended within it. -/
theorem receive_error_of_frames
    {infd rest : Input}
    (unbroken : Unbroken infd)
    {strings : List Bytes}
    (short : ∀ string ∈ strings, string.length ≤ 9998)
    (delivered : available infd <+: strings.flatMap frame)
    {exception : Exception}
    {s : Bytes}
    (failed : receive.run ⟨infd, []⟩ = .error exception ⟨rest, s⟩) :
    exception = .ioException "file ended early" ∧ rest = [] := by
  by_cases ended : Code.MeetsEnd (receive.run ⟨infd, []⟩)
  · obtain ⟨state, isEnd⟩ := ended
    rw [failed] at isEnd
    cases isEnd
    exact ⟨rfl, endsLast_receive _ _ failed⟩
  · exfalso
    obtain ⟨tail, whole⟩ := delivered
    -- with what is missing nothing would change, but then there are whole frames
    obtain ⟨later, isLater⟩ : ∃ later, available later = tail := by
      by_cases nothing : tail = []
      · exact ⟨[], nothing.symm⟩
      · exact ⟨[.chunk tail nothing], List.append_nil _⟩
    have same := causal_receive ⟨infd, []⟩ later ended
    rw [failed] at same
    have frames : available (infd ++ later) = strings.flatMap frame := by
      rw [unbroken.continues, isLater, whole]
    cases strings with
    | nil =>
        rw [List.flatMap_nil, List.append_eq_nil_iff] at whole
        rw [unbroken.eq_nil whole.1] at ended
        have atEnd : receive.run ⟨[], []⟩ = .error (.ioException "file ended early") ⟨[], []⟩ := by
          unfold receive
          rw [EStateM.run_bind, EStateM.run, putToBuffer, putToBufferLoop]
          rfl
        exact ended ⟨_, atEnd⟩
    | cons string more =>
        obtain ⟨final, returned, -⟩ := receive_frame (short string List.mem_cons_self)
          (show available (Receiver.mk (infd ++ later) []).infd = _ from frames)
        rw [show receive.run ⟨infd ++ later, []⟩ = _ from same] at returned
        cases returned

end Framing
end OrderTracking
