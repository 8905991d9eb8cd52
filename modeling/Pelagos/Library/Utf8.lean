import Mathlib.Data.List.Basic

/-!
# Texts as bytes

The UTF-8 bytes of a text.  They decode to the text, and a byte below 128 is always a character of
its own, so the lines of the bytes are the lines of the text.
-/

namespace Utf8

/-- The bytes of a text. -/
def encode (text : String) : List UInt8 := text.toList.flatMap String.utf8EncodeChar

/-- The text with the given bytes, if there is one. -/
def decode (bytes : List UInt8) : Option String := String.fromUTF8? bytes.toByteArray

def isContinuation (byte : UInt8) : Bool := 0x80 ≤ byte && byte ≤ 0xBF

/-- The second byte can follow the first byte of a sequence of three or four. -/
def secondFits (first second : UInt8) : Bool :=
  if first = 0xE0 then 0xA0 ≤ second && second ≤ 0xBF
  else if first = 0xED then 0x80 ≤ second && second ≤ 0x9F
  else if first = 0xF0 then 0x90 ≤ second && second ≤ 0xBF
  else if first = 0xF4 then 0x80 ≤ second && second ≤ 0x8F
  else 0xE1 ≤ first && first ≤ 0xF3 && isContinuation second

/-- The length of what one replacement character stands for, at the front of bytes that do not
begin with a character. -/
def illFormedLength : List UInt8 → Nat
  | first :: second :: rest =>
      if secondFits first second then
        match rest with
        | third :: _ => if isContinuation third then 3 else 2
        | [] => 2
      else 1
  | _ => 1

def lossyChars : Nat → List UInt8 → List Char
  | 0, _ | _, [] => []
  | fuel + 1, bytes =>
      match bytes.toByteArray.utf8DecodeChar? 0 with
      | some char => char :: lossyChars fuel (bytes.drop char.utf8Size)
      | none => Char.ofNat 0xFFFD :: lossyChars fuel (bytes.drop (illFormedLength bytes))

/-- `String::from_utf8_lossy`: what is not the encoding of a text becomes U+FFFD. -/
def decodeLossy (bytes : List UInt8) : String := String.ofList (lossyChars bytes.length bytes)

example : decodeLossy [0x61, 0xE2, 0x82, 0x62, 0xFF] = "a\uFFFDb\uFFFD" := by decide

@[simp]
theorem encode_append (left right : String) :
    encode (left ++ right) = encode left ++ encode right := by
  simp [encode]

@[simp]
theorem decode_encode (text : String) : decode (encode text) = some text := by
  have bytes : (encode text).toByteArray = text.toByteArray := String.utf8Encode_toList
  rw [decode, bytes, String.fromUTF8?, dif_pos text.isValidUTF8]
  rfl

theorem lossyChars_encode (chars : List Char) (fuel : Nat)
    (enough : (chars.flatMap String.utf8EncodeChar).length ≤ fuel) :
    lossyChars fuel (chars.flatMap String.utf8EncodeChar) = chars := by
  induction chars generalizing fuel with
  | nil => cases fuel <;> rfl
  | cons char chars ih =>
      have size : (String.utf8EncodeChar char).length = char.utf8Size :=
        String.length_utf8EncodeChar char
      have size_pos : 0 < char.utf8Size := char.utf8Size_pos
      rw [List.flatMap_cons] at enough ⊢
      rw [List.length_append, size] at enough
      obtain ⟨byte, bytes, first⟩ :
          ∃ byte bytes, String.utf8EncodeChar char = byte :: bytes :=
        List.exists_cons_of_length_pos (by omega)
      cases fuel with
      | zero => omega
      | succ fuel =>
          have decoded : (String.utf8EncodeChar char ++
              chars.flatMap String.utf8EncodeChar).toByteArray.utf8DecodeChar? 0 = some char := by
            rw [List.toByteArray_append]
            exact ByteArray.utf8DecodeChar?_utf8EncodeChar_append
          have rest : (String.utf8EncodeChar char ++ chars.flatMap String.utf8EncodeChar).drop
              char.utf8Size = chars.flatMap String.utf8EncodeChar := by
            rw [← size, List.drop_left]
          rw [first, List.cons_append, lossyChars, ← List.cons_append, ← first, decoded]
          · simp only [rest]
            rw [ih fuel (by omega)]
          · simp

@[simp]
theorem decodeLossy_encode (text : String) : decodeLossy (encode text) = text := by
  rw [decodeLossy, encode, lossyChars_encode _ _ (Nat.le_refl _), String.ofList_toList]

/-- A byte below 128 in the encoding of a character is the character itself. -/
theorem toNat_eq_of_mem {char : Char} {byte : UInt8} (small : byte.toNat < 128)
    (member : byte ∈ String.utf8EncodeChar char) : char.toNat = byte.toNat := by
  rw [String.utf8EncodeChar] at member
  split at member
  · obtain rfl := List.mem_singleton.mp member
    rw [UInt8.toNat_ofNat', Char.toNat]
    omega
  · -- The bytes of a longer encoding have the high bit set.
    exfalso
    split at member
    · simp only [List.mem_cons, List.not_mem_nil, or_false] at member
      rcases member with rfl | rfl <;> rw [UInt8.toNat_ofNat'] at small <;> omega
    · split at member
      · simp only [List.mem_cons, List.not_mem_nil, or_false] at member
        rcases member with rfl | rfl | rfl <;> rw [UInt8.toNat_ofNat'] at small <;> omega
      · simp only [List.mem_cons, List.not_mem_nil, or_false] at member
        rcases member with rfl | rfl | rfl | rfl <;> rw [UInt8.toNat_ofNat'] at small <;> omega

theorem encodeChar_of_ascii {char : Char} (ascii : char.toNat < 128) :
    String.utf8EncodeChar char = [UInt8.ofNat char.toNat] := by
  have small : char.val.toNat ≤ 0x7F := by
    rw [Char.toNat] at ascii
    omega
  rw [String.utf8EncodeChar]
  exact if_pos small

/-- The bytes of a character that is not ASCII are no ASCII characters. -/
theorem le_toNat_of_mem {char : Char} {byte : UInt8} (wide : 128 ≤ char.toNat)
    (member : byte ∈ String.utf8EncodeChar char) : 128 ≤ byte.toNat := by
  by_contra small
  have same := toNat_eq_of_mem (Nat.lt_of_not_le small) member
  omega

/-- A character begins with a byte that continues no other. -/
theorem exists_encodeChar_cons (char : Char) :
    ∃ first rest, String.utf8EncodeChar char = first :: rest ∧ isContinuation first = false := by
  obtain ⟨first, rest, bytes_eq⟩ :=
    List.exists_cons_of_ne_nil (String.utf8EncodeChar_ne_nil (c := char))
  refine ⟨first, rest, bytes_eq, ?_⟩
  have first_byte : first.IsUTF8FirstByte := by
    simpa [bytes_eq] using UInt8.isUTF8FirstByte_getElem_zero_utf8EncodeChar (c := char)
  have every_byte : ∀ byte : Fin UInt8.size,
      (UInt8.ofFin byte).IsUTF8FirstByte → isContinuation (UInt8.ofFin byte) = false := by
    decide +kernel
  exact every_byte first.toFin first_byte

/-- A test that bytes and their character pass alike finds the same characters in both. -/
theorem takeWhile_encode {onBytes : UInt8 → Bool} {onChars : Char → Bool}
    (agree : ∀ char, ∀ byte ∈ String.utf8EncodeChar char, onBytes byte = onChars char)
    (chars : List Char) :
    (chars.flatMap String.utf8EncodeChar).takeWhile onBytes =
        (chars.takeWhile onChars).flatMap String.utf8EncodeChar ∧
      (chars.flatMap String.utf8EncodeChar).dropWhile onBytes =
        (chars.dropWhile onChars).flatMap String.utf8EncodeChar := by
  induction chars with
  | nil => simp
  | cons char chars ih =>
      rw [List.flatMap_cons]
      by_cases passes : onChars char = true
      · have every_byte : ∀ byte ∈ String.utf8EncodeChar char, onBytes byte = true :=
          fun byte member => (agree char byte member).trans passes
        rw [List.takeWhile_append_of_pos every_byte, List.dropWhile_append_of_pos every_byte,
          List.takeWhile_cons_of_pos passes, List.dropWhile_cons_of_pos passes, ih.1, ih.2,
          List.flatMap_cons]
        exact ⟨rfl, rfl⟩
      · obtain ⟨first, rest, bytes_eq, -⟩ := exists_encodeChar_cons char
        have first_fails : ¬onBytes first = true := by
          rw [agree char first (bytes_eq ▸ List.mem_cons_self)]
          exact passes
        rw [List.takeWhile_cons_of_neg passes, List.dropWhile_cons_of_neg passes,
          List.flatMap_cons, bytes_eq, List.cons_append, List.takeWhile_cons_of_neg first_fails,
          List.dropWhile_cons_of_neg first_fails]
        exact ⟨rfl, rfl⟩

theorem head?_encode {onBytes : UInt8 → Bool} {onChars : Char → Bool}
    (agree : ∀ char, ∀ byte ∈ String.utf8EncodeChar char, onBytes byte = onChars char)
    (chars : List Char) :
    (chars.flatMap String.utf8EncodeChar).head?.any onBytes = chars.head?.any onChars := by
  cases chars with
  | nil => rfl
  | cons char chars =>
      obtain ⟨first, rest, bytes_eq, -⟩ := exists_encodeChar_cons char
      rw [List.flatMap_cons, bytes_eq]
      exact agree char first (bytes_eq ▸ List.mem_cons_self)

/-- The byte of an ASCII character stands only for that character. -/
theorem decide_byte_eq {ascii : Char} (small : ascii.toNat < 128) (char : Char) :
    ∀ byte ∈ String.utf8EncodeChar char,
      decide (byte = UInt8.ofNat ascii.toNat) = decide (char = ascii) := by
  intro byte member
  have value : (UInt8.ofNat ascii.toNat).toNat = ascii.toNat := by
    rw [UInt8.toNat_ofNat']
    omega
  rw [decide_eq_decide, ← UInt8.toNat_inj, ← Char.toNat_inj, value]
  constructor
  · intro same
    rw [toNat_eq_of_mem (by omega) member, same]
  · intro same
    rw [encodeChar_of_ascii (by omega), List.mem_singleton] at member
    rw [member, UInt8.toNat_ofNat', same]
    omega

theorem byte_mem_flatMap_iff {ascii : Char} (small : ascii.toNat < 128) {chars : List Char} :
    UInt8.ofNat ascii.toNat ∈ chars.flatMap String.utf8EncodeChar ↔ ascii ∈ chars := by
  rw [List.mem_flatMap]
  constructor
  · rintro ⟨char, member, byte_member⟩
    have same := decide_byte_eq small char _ byte_member
    rw [decide_eq_true rfl, eq_comm, decide_eq_true_iff] at same
    exact same ▸ member
  · intro member
    refine ⟨ascii, member, ?_⟩
    rw [encodeChar_of_ascii small]
    exact List.mem_cons_self

/-! ## Slices of texts -/

/-- `str::is_char_boundary`. -/
def isCharBoundary (bytes : List UInt8) (index : Nat) : Bool :=
  index == bytes.length || bytes[index]?.any fun byte => !isContinuation byte

/-- The bytes of a text from the index `start` on and before the index `stop`; `none` where the
slice panics. -/
def substring (bytes : List UInt8) (start stop : Nat) : Option (List UInt8) :=
  if start ≤ stop ∧ isCharBoundary bytes start = true ∧ isCharBoundary bytes stop = true then
    some ((bytes.drop start).take (stop - start))
  else none

theorem isCharBoundary_length (bytes : List UInt8) :
    isCharBoundary bytes bytes.length = true := by
  simp [isCharBoundary]

theorem isCharBoundary_of_ascii {bytes : List UInt8} {index : Nat} {byte : UInt8}
    (found : bytes[index]? = some byte) (ascii : byte.toNat < 128) :
    isCharBoundary bytes index = true := by
  have no_continuation : isContinuation byte = false := by
    rw [isContinuation, Bool.and_eq_false_iff]
    refine .inl (decide_eq_false ?_)
    rw [UInt8.le_iff_toNat_le]
    exact Nat.not_le_of_lt ascii
  simp [isCharBoundary, found, no_continuation]

theorem isCharBoundary_zero (chars : List Char) :
    isCharBoundary (chars.flatMap String.utf8EncodeChar) 0 = true := by
  cases chars with
  | nil => rfl
  | cons char chars =>
      obtain ⟨first, rest, bytes_eq, no_continuation⟩ := exists_encodeChar_cons char
      simp [isCharBoundary, bytes_eq, no_continuation]

theorem isCharBoundary_append (front back : List UInt8) (index : Nat) :
    isCharBoundary (front ++ back) (front.length + index) = isCharBoundary back index := by
  have at_end : (front.length + index == (front ++ back).length) = (index == back.length) := by
    simp
  rw [isCharBoundary, isCharBoundary, at_end,
    List.getElem?_append_right (Nat.le_add_right _ _), Nat.add_sub_cancel_left]

/-- Behind an ASCII byte the next character begins. -/
theorem isCharBoundary_succ {chars : List Char} {index : Nat} {byte : UInt8}
    (found : (chars.flatMap String.utf8EncodeChar)[index]? = some byte)
    (ascii : byte.toNat < 128) :
    isCharBoundary (chars.flatMap String.utf8EncodeChar) (index + 1) = true := by
  induction chars generalizing index with
  | nil => simp at found
  | cons char chars ih =>
      rw [List.flatMap_cons] at found ⊢
      by_cases inside : index < (String.utf8EncodeChar char).length
      · -- The byte is in the first character, which is therefore nothing but this byte.
        rw [List.getElem?_append_left inside] at found
        have narrow := toNat_eq_of_mem ascii (List.mem_of_getElem? found)
        have length_eq : (String.utf8EncodeChar char).length = 1 := by
          rw [encodeChar_of_ascii (by omega), List.length_singleton]
        have index_eq : index = 0 := by omega
        have boundary := isCharBoundary_append (String.utf8EncodeChar char)
          (chars.flatMap String.utf8EncodeChar) 0
        rw [length_eq, isCharBoundary_zero] at boundary
        rw [index_eq]
        exact boundary
      · rw [List.getElem?_append_right (by omega)] at found
        have boundary := isCharBoundary_append (String.utf8EncodeChar char)
          (chars.flatMap String.utf8EncodeChar) (index - (String.utf8EncodeChar char).length + 1)
        rw [ih found] at boundary
        rw [← boundary]
        congr 1
        omega

/-- A text has the byte of an ASCII character only where it has the character. -/
theorem byte_mem_encode {text : String} {char : Char} (ascii : char.toNat < 128)
    (member : UInt8.ofNat char.toNat ∈ encode text) : char ∈ text.toList := by
  obtain ⟨other, other_mem, byte_mem⟩ := List.mem_flatMap.mp member
  have value : (UInt8.ofNat char.toNat).toNat = char.toNat := by
    rw [UInt8.toNat_ofNat']
    omega
  have same : other.toNat = char.toNat := by
    rw [toNat_eq_of_mem (by omega) byte_mem, value]
  obtain rfl : other = char := Char.toNat_inj.mp same
  exact other_mem

theorem encode_of_decode {bytes : List UInt8} {text : String} (decoded : decode bytes = some text) :
    encode text = bytes := by
  rw [decode, String.fromUTF8?] at decoded
  split at decoded
  · rename_i valid
    obtain rfl := Option.some.inj decoded
    have same : (encode (String.fromUTF8 bytes.toByteArray valid)).toByteArray =
        bytes.toByteArray := String.utf8Encode_toList
    have data := congrArg (fun array => array.data.toList) same
    simpa using data
  · cases decoded

/-- Characters are decoded one by one, so a front of the bytes of a text that is a text itself is a
front of its characters. -/
theorem prefix_of_encode_prefix {front whole : List Char}
    (isFront : front.flatMap String.utf8EncodeChar <+: whole.flatMap String.utf8EncodeChar) :
    front <+: whole := by
  induction front generalizing whole with
  | nil => exact List.nil_prefix
  | cons char front ih =>
      obtain ⟨more, whole_eq⟩ := isFront
      have decoded (char : Char) (rest : List UInt8) :
          (String.utf8EncodeChar char ++ rest).toByteArray.utf8DecodeChar? 0 = some char := by
        rw [List.toByteArray_append]
        exact ByteArray.utf8DecodeChar?_utf8EncodeChar_append
      rw [List.flatMap_cons, List.append_assoc] at whole_eq
      cases whole with
      | nil =>
          have empty := congrArg (fun bytes => bytes.toByteArray.utf8DecodeChar? 0) whole_eq
          rw [decoded] at empty
          cases empty
      | cons other whole =>
          rw [List.flatMap_cons] at whole_eq
          have same := congrArg (fun bytes => bytes.toByteArray.utf8DecodeChar? 0) whole_eq
          rw [decoded, decoded] at same
          obtain rfl := Option.some.inj same
          exact List.cons_prefix_cons.mpr ⟨rfl, ih ⟨more, List.append_cancel_left whole_eq⟩⟩

theorem decode_prefix {bytes : List UInt8} {whole text : String} (isFront : bytes <+: encode whole)
    (decoded : decode bytes = some text) : text.toList <+: whole.toList := by
  rw [← encode_of_decode decoded] at isFront
  exact prefix_of_encode_prefix isFront

end Utf8
