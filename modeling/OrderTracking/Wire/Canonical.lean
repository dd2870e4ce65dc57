import OrderTracking.Wire.RoundTrip

/-!
# The language of the decoder

The decoder accepts the sentences of the grammar and rejects every other string
with `InvalidMessage`, leaving its output parameter alone. Encoding what it read
gives the canonical form of the sentence, as long as an `int` can count the items
of the order.
-/

namespace OrderTracking
namespace Wire

/-- The decoder succeeds on the sentences and on nothing else. -/
theorem decode_succeeds_iff
    (s : Bytes)
    (msg : Message) :
    (∃ decoded, (decode s).run msg = .ok () decoded) ↔
      ∃ sentence : Sentence, sentence.print = s := by
  constructor
  · rintro ⟨decoded, accepted⟩
    obtain ⟨sentence, printed, -⟩ := decode_eq_ok accepted
    exact ⟨sentence, printed⟩
  · rintro ⟨sentence, rfl⟩
    exact ⟨sentence.meaning, decode_print sentence msg⟩

/-- A string that is not a sentence is rejected with `InvalidMessage`. -/
theorem decode_rejects
    {s : Bytes}
    (notSentence : ¬ ∃ sentence : Sentence, sentence.print = s)
    (msg : Message) :
    ∃ what, (decode s).run msg = .error (.invalidMessage what) msg := by
  rcases decode_reads_or_rejects s msg with ⟨sentence, printed, -⟩ | rejected
  · exact absurd ⟨sentence, printed⟩ notSentence
  · exact rejected

/-- Encoding what was read from a sentence gives its canonical form. -/
theorem encode_decoded
    {msg decoded : Message}
    (sentence : Sentence)
    (accepted : (decode sentence.print).run msg = .ok () decoded)
    (countable : Countable decoded)
    (out : Bytes) :
    (encode decoded).run out = .ok () sentence.canonical.print := by
  rw [decode_print] at accepted
  cases accepted
  exact encode_meaning sentence countable out

/-- Decoding accepts exactly the grammar, throws nothing but `InvalidMessage`
and never touches its output parameter then; encoding what was decoded removes
leading zeros and nothing else, and decodes to the same message. -/
theorem decode_accepts_grammar
    (s : Bytes)
    (msg : Message) :
    ((∃ decoded, (decode s).run msg = .ok () decoded) ↔
      ∃ sentence : Sentence, sentence.print = s) ∧
    ((¬ ∃ sentence : Sentence, sentence.print = s) →
      ∃ what, (decode s).run msg = .error (.invalidMessage what) msg) ∧
    ∀ decoded, (decode s).run msg = .ok () decoded → Countable decoded →
      ∀ sentence : Sentence, sentence.print = s →
        ∀ out, (encode decoded).run out = .ok () sentence.canonical.print ∧
          ∀ other, (decode sentence.canonical.print).run other = .ok () decoded := by
  refine ⟨decode_succeeds_iff s msg, fun notSentence => decode_rejects notSentence msg,
    ?_⟩
  rintro decoded accepted countable sentence rfl out
  refine ⟨encode_decoded sentence accepted countable out, fun other => ?_⟩
  rw [decode_print] at accepted
  cases accepted
  rw [decode_print, Sentence.meaning_canonical]

/-- The sentence that orders so many teas. -/
def teasSentence (count : Nat) (positive : 0 < count) : Sentence :=
  let one := Numeral.ofPositive 1 one_valid
  .order .orderNew isOrder_orderNew
    { id := one
      status := .new
      valid := orderNew_valid
      items := List.replicate count
        { orderId := one, id := one, status := .new, valid := itemNew_valid,
          desc := ascii "tea", plain := lacks_tea, qty := one }
      nonempty := by
        rw [← List.length_pos_iff, List.length_replicate]
        exact positive }

/-- The sentence that orders `2 ^ 31` teas is decoded, but encoding the result
does not give its canonical form. -/
theorem teasSentence_not_canonical :
    ∃ decoded,
      (decode (teasSentence (2 ^ 31) (Nat.two_pow_pos 31)).print).run .empty =
        .ok () decoded ∧
      ∀ out, (encode decoded).run out ≠
        .ok () (teasSentence (2 ^ 31) (Nat.two_pow_pos 31)).canonical.print := by
  generalize sentence : teasSentence (2 ^ 31) (Nat.two_pow_pos 31) = crowd
  refine ⟨crowd.meaning, decode_print crowd .empty, ?_⟩
  intro out encoded
  have returned : RoundTrips out .empty crowd.meaning := by
    refine ⟨_, encoded, ?_⟩
    rw [decode_print, Sentence.meaning_canonical]
  rw [← sentence] at returned
  have small := countable_of_roundTrips returned _ rfl
  simp only [OrderSyntax.meaning, List.length_map, List.length_replicate] at small
  exact Nat.lt_irrefl _ small

end Wire
end OrderTracking
