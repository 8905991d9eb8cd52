import Pelagos.Library.ByteStream
import Pelagos.Library.PrefixCode

/-!
# Length-prefixed packets

A packet travels behind its length in `width` bytes, the most significant first.  A length of zero
or above the receiver's limit is refused.
-/

namespace LengthPrefix

open ByteStream PrefixCode

/-- The packets a receiver with this limit takes. -/
structure Valid (limit : Nat) (packet : List UInt8) : Prop where
  pos : 0 < packet.length
  le_limit : packet.length ≤ limit

def encode (width : Nat) (packet : List UInt8) : List UInt8 :=
  toBigEndian width packet.length ++ packet

/-- Why no packet was received. -/
inductive Refusal where
  /-- The stream ended before or within a length. -/
  | closed
  | invalidLength (length : Nat)
  /-- The stream ended within a packet. -/
  | cut
  deriving DecidableEq

/-- Read one packet. -/
def receive (width limit : Nat) (pieces : Pieces UInt8) :
    Except Refusal (List UInt8 × Pieces UInt8) :=
  match readExact width pieces with
  | .error _ => .error .closed
  | .ok (length, pieces) =>
      if ofBigEndian length = 0 ∨ limit < ofBigEndian length then
        .error (.invalidLength (ofBigEndian length))
      else
        match readExact (ofBigEndian length) pieces with
        | .error _ => .error .cut
        | .ok packet => .ok packet

variable {width limit : Nat}

theorem ofBigEndian_length (small : limit < 256 ^ width) {packet : List UInt8}
    (valid : Valid limit packet) :
    ofBigEndian (toBigEndian width packet.length) = packet.length := by
  rw [ofBigEndian_toBigEndian, Nat.mod_eq_of_lt (Nat.lt_of_le_of_lt valid.le_limit small)]

/-- The length says where the packet ends. -/
theorem prefixFree (small : limit < 256 ^ width) : PrefixFree (encode width) (Valid limit) where
  nonempty valid empty := by
    have packet_empty := (List.append_eq_nil_iff.mp empty).2
    have pos := valid.pos
    simp [packet_empty] at pos
  unique {left right} left_valid right_valid isFront := by
    obtain ⟨back, whole⟩ := isFront
    rw [encode, encode, List.append_assoc] at whole
    obtain ⟨same_length, same⟩ := List.append_inj whole (by simp)
    have length_eq : left.length = right.length := by
      rw [← ofBigEndian_length small left_valid, same_length, ofBigEndian_length small right_valid]
    obtain ⟨packet_eq, -⟩ := List.append_inj (same.trans (List.append_nil right).symm) length_eq
    exact packet_eq

/-- A packet at the front of the stream is received, and what follows it stays in the stream. -/
theorem receive_encode (small : limit < 256 ^ width) {packet back : List UInt8}
    (valid : Valid limit packet) {pieces : Pieces UInt8}
    (stream : contents pieces = encode width packet ++ back) :
    ∃ rest, receive width limit pieces = .ok (packet, rest) ∧ contents rest = back := by
  rw [encode, List.append_assoc] at stream
  obtain ⟨sized, length_read, sized_eq⟩ := readExact_append stream
  obtain ⟨rest, packet_read, rest_eq⟩ := readExact_append sized_eq
  rw [length_toBigEndian] at length_read
  have length_valid : ¬ (packet.length = 0 ∨ limit < packet.length) := by
    have pos := valid.pos
    have le_limit := valid.le_limit
    omega
  refine ⟨rest, ?_, rest_eq⟩
  simp only [receive, length_read, ofBigEndian_length small valid, if_neg length_valid, packet_read]

/-- A packet that was received stands at the front of the stream. -/
theorem receive_sound {pieces rest : Pieces UInt8} {packet : List UInt8}
    (received : receive width limit pieces = .ok (packet, rest)) :
    contents pieces = encode width packet ++ contents rest ∧ Valid limit packet := by
  cases length_read : readExact width pieces with
  | error error => simp [receive, length_read] at received
  | ok sized =>
      obtain ⟨length, pieces₁⟩ := sized
      obtain ⟨length_front, length_length⟩ := readExact_sound length_read
      simp only [receive, length_read] at received
      split at received
      · cases received
      · rename_i length_valid
        cases packet_read : readExact (ofBigEndian length) pieces₁ with
        | error error => simp [packet_read] at received
        | ok whole =>
            simp only [packet_read, Except.ok.injEq] at received
            subst received
            obtain ⟨packet_front, packet_length⟩ := readExact_sound packet_read
            have length_lt : ofBigEndian length < 256 ^ width :=
              length_length ▸ ofBigEndian_lt length
            have length_eq : toBigEndian width packet.length = length := by
              refine (ofBigEndian_inj (by rw [length_toBigEndian, length_length])).mp ?_
              rw [ofBigEndian_toBigEndian, packet_length, Nat.mod_eq_of_lt length_lt]
            refine ⟨?_, by omega, by omega⟩
            rw [encode, length_eq, length_front, packet_front, List.append_assoc]

/-- Where no packet is received, none stands at the front of the stream. -/
theorem stuck_of_refusal (small : limit < 256 ^ width) {pieces : Pieces UInt8} {refusal : Refusal}
    (refused : receive width limit pieces = .error refusal) :
    Stuck (encode width) (Valid limit) (contents pieces) := by
  rintro packet valid ⟨back, stream⟩
  obtain ⟨rest, received, -⟩ := receive_encode small valid stream.symm
  rw [refused] at received
  cases received

/-- Why no packet can be received from these bytes. -/
def refusal (width limit : Nat) (bytes : List UInt8) : Refusal :=
  if bytes.length < width then .closed
  else
    let length := ofBigEndian (bytes.take width)
    if length = 0 ∨ limit < length then .invalidLength length else .cut

/-- The reason depends on the bytes alone, not on the pieces they come in. -/
theorem refusal_of_receive {pieces : Pieces UInt8} {reason : Refusal}
    (refused : receive width limit pieces = .error reason) :
    reason = refusal width limit (contents pieces) := by
  rcases Nat.lt_or_ge (contents pieces).length width with short | enough
  · rw [receive, readExact_of_lt short] at refused
    rw [refusal, if_pos short]
    exact (Except.error.inj refused).symm
  · obtain ⟨rest, read, -⟩ := readExact_of_le enough
    rw [receive, read] at refused
    rw [refusal, if_neg (Nat.not_lt.mpr enough)]
    dsimp only at refused ⊢
    split at refused
    · rename_i invalid
      rw [if_pos invalid]
      exact (Except.error.inj refused).symm
    · rename_i length_valid
      rw [if_neg length_valid]
      split at refused
      · exact (Except.error.inj refused).symm
      · cases refused

/-! ## Reading a stream packet by packet -/

variable {pieces : Pieces UInt8} {packets : List (List UInt8)} {last : List UInt8}

/-- Where no packet is received, the stream has none left. -/
theorem splits_of_refusal (small : limit < 256 ^ width) {reason : Refusal}
    (splits : Splits (encode width) (Valid limit) (contents pieces) packets last)
    (refused : receive width limit pieces = .error reason) :
    packets = [] ∧ reason = refusal width limit last := by
  have stuck : Splits (encode width) (Valid limit) (contents pieces) [] (contents pieces) :=
    ⟨rfl, by simp, stuck_of_refusal small refused⟩
  obtain ⟨rfl, rfl⟩ := splits.unique (prefixFree small) stuck
  exact ⟨rfl, refusal_of_receive refused⟩

/-- The packet that is received is the first, and the others are left in the stream. -/
theorem splits_of_receive (small : limit < 256 ^ width) {packet : List UInt8}
    {rest : Pieces UInt8}
    (splits : Splits (encode width) (Valid limit) (contents pieces) packets last)
    (received : receive width limit pieces = .ok (packet, rest)) :
    ∃ others, packets = packet :: others ∧
      Splits (encode width) (Valid limit) (contents rest) others last := by
  obtain ⟨stream, valid⟩ := receive_sound received
  obtain ⟨others, other_last, later⟩ := exists_splits (prefixFree small) (contents rest)
  have again := splits_cons valid later
  rw [← stream] at again
  obtain ⟨rfl, rfl⟩ := splits.unique (prefixFree small) again
  exact ⟨others, rfl, later⟩

end LengthPrefix
