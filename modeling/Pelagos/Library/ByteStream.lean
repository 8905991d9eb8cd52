import Mathlib.Algebra.GroupWithZero.Nat
import Mathlib.Data.List.Basic
import Mathlib.Data.List.Induction

/-!
# Byte streams read in pieces

A stream is the list of pieces that successive reads find available.  A piece is never empty, since
a read of zero bytes means the end of the stream.  `readExact` depends on the concatenation of the
pieces alone, so a format read with it does not depend on how its bytes are split.
-/

namespace ByteStream

/-- The bytes available to one read. -/
abbrev Piece (α : Type*) := { piece : List α // piece ≠ [] }

/-- A stream as its successive pieces; after the last one the stream has ended. -/
abbrev Pieces (α : Type*) := List (Piece α)

variable {α : Type*}

/-- The whole stream. -/
def contents (pieces : Pieces α) : List α := pieces.flatMap Subtype.val

@[simp]
theorem contents_nil : contents ([] : Pieces α) = [] := rfl

@[simp]
theorem contents_cons (piece : Piece α) (pieces : Pieces α) :
    contents (piece :: pieces) = piece.val ++ contents pieces := rfl

/-- Why a read failed. -/
inductive ReadError where
  | unexpectedEof
  deriving DecidableEq

/-- What a read of fewer elements leaves of a piece. -/
def Piece.drop (piece : Piece α) (count : Nat) (shorter : count < piece.val.length) : Piece α :=
  ⟨piece.val.drop count, by
    rw [ne_eq, List.drop_eq_nil_iff]
    omega⟩

/-- Read until `count` elements have arrived; each read takes what the next piece offers. -/
def readExact : Nat → Pieces α → Except ReadError (List α × Pieces α)
  | 0, pieces => .ok ([], pieces)
  | _ + 1, [] => .error .unexpectedEof
  | count + 1, piece :: pieces =>
      if shorter : count + 1 < piece.val.length then
        .ok (piece.val.take (count + 1), piece.drop (count + 1) shorter :: pieces)
      else
        match readExact (count + 1 - piece.val.length) pieces with
        | .error error => .error error
        | .ok (items, rest) => .ok (piece.val ++ items, rest)

/-- A stream that is long enough yields its first `count` elements and keeps the others. -/
theorem readExact_of_le {count : Nat} {pieces : Pieces α}
    (enough : count ≤ (contents pieces).length) :
    ∃ rest, readExact count pieces = .ok ((contents pieces).take count, rest) ∧
      contents rest = (contents pieces).drop count := by
  induction pieces generalizing count with
  | nil =>
      obtain rfl : count = 0 := by simpa using enough
      exact ⟨[], rfl, rfl⟩
  | cons piece pieces ih =>
      cases count with
      | zero => exact ⟨piece :: pieces, rfl, rfl⟩
      | succ count =>
          rw [contents_cons, List.length_append] at enough
          by_cases shorter : count + 1 < piece.val.length
          · refine ⟨piece.drop (count + 1) shorter :: pieces, ?_, ?_⟩
            · rw [readExact, dif_pos shorter, contents_cons,
                List.take_append_of_le_length (Nat.le_of_lt shorter)]
            · rw [contents_cons, contents_cons,
                List.drop_append_of_le_length (Nat.le_of_lt shorter)]
              rfl
          · have covered : piece.val.length ≤ count + 1 := by omega
            have left : count + 1 - piece.val.length ≤ (contents pieces).length := by omega
            obtain ⟨rest, read, rest_eq⟩ := ih left
            refine ⟨rest, ?_, ?_⟩
            · rw [readExact, dif_neg shorter, read, contents_cons, List.take_append,
                List.take_of_length_le covered]
            · rw [rest_eq, contents_cons, List.drop_append, List.drop_of_length_le covered,
                List.nil_append]

/-- A stream that is too short ends before the read is complete. -/
theorem readExact_of_lt {count : Nat} {pieces : Pieces α}
    (short : (contents pieces).length < count) :
    readExact count pieces = .error .unexpectedEof := by
  induction pieces generalizing count with
  | nil =>
      cases count with
      | zero => simp at short
      | succ count => rfl
  | cons piece pieces ih =>
      cases count with
      | zero => simp at short
      | succ count =>
          rw [contents_cons, List.length_append] at short
          have covered : ¬ count + 1 < piece.val.length := by omega
          have left : (contents pieces).length < count + 1 - piece.val.length := by omega
          rw [readExact, dif_neg covered, ih left]

/-- Reading back what stands at the front of a stream. -/
theorem readExact_append {front : List α} {back : List α} {pieces : Pieces α}
    (stream : contents pieces = front ++ back) :
    ∃ rest, readExact front.length pieces = .ok (front, rest) ∧ contents rest = back := by
  have enough : front.length ≤ (contents pieces).length := by simp [stream]
  obtain ⟨rest, read, rest_eq⟩ := readExact_of_le enough
  refine ⟨rest, ?_, ?_⟩
  · rw [read, stream, List.take_left]
  · rw [rest_eq, stream, List.drop_left]

/-- What was read stands at the front of the stream. -/
theorem readExact_sound {count : Nat} {pieces rest : Pieces α} {items : List α}
    (read : readExact count pieces = .ok (items, rest)) :
    contents pieces = items ++ contents rest ∧ items.length = count := by
  rcases Nat.lt_or_ge (contents pieces).length count with short | enough
  · rw [readExact_of_lt short] at read
    cases read
  · obtain ⟨other, other_read, other_eq⟩ := readExact_of_le enough
    rw [other_read] at read
    obtain ⟨rfl, rfl⟩ := Prod.mk.inj (Except.ok.inj read)
    refine ⟨by rw [other_eq, List.take_append_drop], ?_⟩
    rw [List.length_take, Nat.min_eq_left enough]

/-! ## Big-endian numbers -/

/-- The `width` low-order bytes of a number, the most significant first. -/
def toBigEndian : Nat → Nat → List UInt8
  | 0, _ => []
  | width + 1, value => toBigEndian width (value / 256) ++ [UInt8.ofNat value]

/-- The number with the given bytes, the most significant first. -/
def ofBigEndian (bytes : List UInt8) : Nat :=
  bytes.foldl (fun value byte => value * 256 + byte.toNat) 0

@[simp]
theorem length_toBigEndian (width value : Nat) : (toBigEndian width value).length = width := by
  induction width generalizing value with
  | zero => rfl
  | succ width ih => rw [toBigEndian, List.length_append, ih, List.length_singleton]

theorem ofBigEndian_concat (bytes : List UInt8) (byte : UInt8) :
    ofBigEndian (bytes ++ [byte]) = ofBigEndian bytes * 256 + byte.toNat := by
  rw [ofBigEndian, List.foldl_append]
  rfl

/-- Numbers of the same width are equal only when their bytes are. -/
theorem ofBigEndian_inj {left right : List UInt8} (same_length : left.length = right.length) :
    ofBigEndian left = ofBigEndian right ↔ left = right := by
  refine ⟨fun same => ?_, congrArg ofBigEndian⟩
  induction left using List.reverseRecOn generalizing right with
  | nil => exact (List.length_eq_zero_iff.mp same_length.symm).symm
  | append_singleton left last ih =>
      cases right using List.reverseRecOn with
      | nil => simp at same_length
      | append_singleton right other =>
          have last_small := last.toNat_lt
          have other_small := other.toNat_lt
          rw [ofBigEndian_concat, ofBigEndian_concat] at same
          have front_eq : left = right :=
            ih (by simpa using same_length) (by omega)
          have last_eq : last = other := UInt8.toNat_inj.mp (by omega)
          rw [front_eq, last_eq]

theorem ofBigEndian_lt (bytes : List UInt8) : ofBigEndian bytes < 256 ^ bytes.length := by
  induction bytes using List.reverseRecOn with
  | nil => exact Nat.one_pos
  | append_singleton bytes last ih =>
      have last_small := last.toNat_lt
      rw [ofBigEndian_concat, List.length_append, List.length_singleton, Nat.pow_succ]
      omega

theorem ofBigEndian_toBigEndian (width value : Nat) :
    ofBigEndian (toBigEndian width value) = value % 256 ^ width := by
  induction width generalizing value with
  | zero => simp [toBigEndian, ofBigEndian, Nat.mod_one]
  | succ width ih =>
      have digit : (UInt8.ofNat value).toNat = value % 256 := UInt8.toNat_ofNat'
      rw [toBigEndian, ofBigEndian_concat, ih, digit, Nat.pow_succ', Nat.mod_mul, Nat.mul_comm,
        Nat.add_comm]

theorem toBigEndian_ofBigEndian (bytes : List UInt8) :
    toBigEndian bytes.length (ofBigEndian bytes) = bytes := by
  refine (ofBigEndian_inj (length_toBigEndian _ _)).mp ?_
  rw [ofBigEndian_toBigEndian, Nat.mod_eq_of_lt (ofBigEndian_lt bytes)]

end ByteStream
