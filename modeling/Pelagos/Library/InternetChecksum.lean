import Pelagos.Library.ByteStream

/-!
# The Internet checksum

The checksum of a text of bytes is the one's complement of the one's complement sum of its 16-bit
words, the last of them padded with a zero byte.  A program adds the words as whole numbers and
brings the carries back in at the end: the two sums agree, since both are the only positive number
of 16 bits that leaves the same remainder modulo `2 ^ 16 - 1`.
-/

namespace InternetChecksum

open ByteStream

/-- The sum of the 16-bit words. -/
def wordSum : List UInt8 → Nat
  | high :: low :: rest => ofBigEndian [high, low] + wordSum rest
  | [last] => last.toNat <<< 8
  | [] => 0

theorem ofBigEndian_pair (high low : UInt8) :
    ofBigEndian [high, low] = high.toNat * 256 + low.toNat := by
  simp [ofBigEndian]

theorem wordSum_le (bytes : List UInt8) : wordSum bytes ≤ 32768 * (bytes.length + 1) := by
  fun_induction wordSum bytes with
  | case1 high low rest ih =>
      have high_small := high.toNat_lt
      have low_small := low.toNat_lt
      rw [ofBigEndian_pair, List.length_cons, List.length_cons]
      omega
  | case2 last =>
      have small := last.toNat_lt
      rw [Nat.shiftLeft_eq, List.length_singleton]
      omega
  | case3 => omega

theorem wordSum_append {front : List UInt8} (even : front.length % 2 = 0) (back : List UInt8) :
    wordSum (front ++ back) = wordSum front + wordSum back := by
  induction front using wordSum.induct with
  | case1 high low rest ih =>
      have rest_even : rest.length % 2 = 0 := by
        rw [List.length_cons, List.length_cons] at even
        omega
      rw [List.cons_append, List.cons_append, wordSum, wordSum, ih rest_even, Nat.add_assoc]
  | case2 last => simp at even
  | case3 => rw [List.nil_append, wordSum, Nat.zero_add]

/-! ## One's complement arithmetic -/

/-- A word of two bytes. -/
def word (high low : UInt8) : UInt16 := UInt16.ofNat (ofBigEndian [high, low])

/-- The 16-bit words, the last of them padded with a zero byte. -/
def words : List UInt8 → List UInt16
  | high :: low :: rest => word high low :: words rest
  | [last] => [word last 0]
  | [] => []

/-- The addition of one's complement numbers brings the carry back in. -/
def onesAdd (left right : UInt16) : UInt16 :=
  if left.toNat + right.toNat < 2 ^ 16 then left + right else left + right + 1

/-- The one's complement sum of the words. -/
def onesSum (bytes : List UInt8) : UInt16 := (words bytes).foldl onesAdd 0

/-- The sum of 16 bits that stands for a whole number. -/
def endAround (sum : Nat) : Nat := if sum = 0 then 0 else (sum - 1) % 65535 + 1

theorem endAround_of_le {sum : Nat} (small : sum ≤ 65535) : endAround sum = sum := by
  rw [endAround]
  split <;> omega

theorem endAround_add (sum more : Nat) :
    endAround (endAround sum + more) = endAround (sum + more) := by
  simp only [endAround]
  split <;> split <;> split <;> omega

/-- A sum and its complement add up to the largest word. -/
theorem endAround_add_complement (sum : Nat) :
    endAround (sum + (65535 - endAround sum)) = 65535 := by
  simp only [endAround]
  split <;> split <;> omega

theorem toNat_word (high low : UInt8) : (word high low).toNat = ofBigEndian [high, low] := by
  have small := ofBigEndian_lt [high, low]
  exact UInt16.toNat_ofNat_of_lt' (by simpa using small)

theorem toNat_onesAdd (left right : UInt16) :
    (onesAdd left right).toNat = endAround (left.toNat + right.toNat) := by
  have left_small := left.toNat_lt
  have right_small := right.toNat_lt
  rw [onesAdd]
  split
  case isTrue fits =>
    rw [UInt16.toNat_add, endAround_of_le (by omega), Nat.mod_eq_of_lt fits]
  case isFalse carries =>
    have one : (1 : UInt16).toNat = 1 := rfl
    rw [UInt16.toNat_add, UInt16.toNat_add, one, endAround, if_neg (by omega)]
    omega

theorem toNat_foldl_onesAdd (bytes : List UInt8) (start : UInt16) :
    ((words bytes).foldl onesAdd start).toNat = endAround (start.toNat + wordSum bytes) := by
  induction bytes using wordSum.induct generalizing start with
  | case1 high low rest ih =>
      rw [words, List.foldl_cons, ih, toNat_onesAdd, endAround_add, toNat_word, wordSum,
        Nat.add_assoc]
  | case2 last =>
      have shifted : ofBigEndian [last, 0] = last.toNat <<< 8 := by
        simp [ofBigEndian_pair, Nat.shiftLeft_eq]
      rw [words, List.foldl_cons, List.foldl_nil, toNat_onesAdd, toNat_word, wordSum, shifted]
  | case3 =>
      have start_small := start.toNat_lt
      rw [words, List.foldl_nil, wordSum, Nat.add_zero, endAround_of_le (by omega)]

/-- The words may be added as whole numbers first. -/
theorem toNat_onesSum (bytes : List UInt8) :
    (onesSum bytes).toNat = endAround (wordSum bytes) := by
  rw [onesSum, toNat_foldl_onesAdd, UInt16.toNat_zero, Nat.zero_add]

/-- The complement of the sum of a text whose checksum field is zero, stored in that field, makes
the text verify. -/
theorem onesSum_stored {front back : List UInt8} (even : front.length % 2 = 0) {high low : UInt8}
    (stored : word high low = ~~~ onesSum (front ++ [0, 0] ++ back)) :
    onesSum (front ++ [high, low] ++ back) = 0xffff := by
  have pair_even (high low : UInt8) : (front ++ [high, low]).length % 2 = 0 := by
    rw [List.length_append, List.length_cons, List.length_singleton]
    omega
  have sum_eq (high low : UInt8) : wordSum (front ++ [high, low] ++ back) =
      wordSum front + wordSum back + ofBigEndian [high, low] := by
    rw [wordSum_append (pair_even high low), wordSum_append even, wordSum, wordSum]
    omega
  have zeroed : wordSum (front ++ [0, 0] ++ back) = wordSum front + wordSum back := sum_eq 0 0
  have complement : ofBigEndian [high, low] =
      65535 - endAround (wordSum front + wordSum back) := by
    rw [← toNat_word, stored, UInt16.toNat_not, toNat_onesSum, zeroed]
    rfl
  apply UInt16.toNat_inj.mp
  rw [toNat_onesSum, sum_eq, complement, endAround_add_complement]
  rfl

end InternetChecksum
