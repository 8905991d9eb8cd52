import Pelagos.Guest.Dockerfile

/-!
# Substitution of build arguments

`substitute_build_args` walks the bytes of a text with an index, slices the names of variables out
of it and copies everything else byte by byte.  Its slices always begin and end next to an ASCII
character, so none of them cuts a character.  A copied byte, however, becomes the character with
that number, which is the character of the text only where the text is ASCII.
-/

namespace Pelagos.Guest

/-! ## The loop over byte indices -/

/-- The inner loop: the index behind a name, from an index inside it. -/
def nameEnd (bytes : List UInt8) : Nat → Nat → Nat
  | 0, stop => stop
  | fuel + 1, stop =>
      if bytes[stop]?.any isNameByte then nameEnd bytes fuel (stop + 1) else stop

/-- The loop of `substitute_build_args` at the index `i`; `none` where a slice panics. -/
def substituteLoop (vars : HashMap String String) (bytes : List UInt8) :
    Nat → Nat → List Char → Option (List Char)
  | 0, _, _ => none
  | fuel + 1, i, out =>
      match bytes[i]? with
      | none => some out
      | some byte =>
          if byte = 0x24 then
            if bytes[i + 1]? = some 0x7B then
              (Utf8.substring bytes (i + 2) bytes.length).bind fun tail =>
                match tail.findIdx? (· == 0x7D) with
                | some close =>
                    (Utf8.substring bytes (i + 2) (i + 2 + close)).bind fun name =>
                      substituteLoop vars bytes fuel (i + 2 + close + 1)
                        (out ++ valueOf vars name)
                | none => substituteLoop vars bytes fuel (i + 1) (out ++ ['$'])
            else if bytes[i + 1]?.any isNameByte then
              let stop := nameEnd bytes bytes.length (i + 1)
              (Utf8.substring bytes (i + 1) stop).bind fun name =>
                substituteLoop vars bytes fuel stop (out ++ valueOf vars name)
            else substituteLoop vars bytes fuel (i + 1) (out ++ ['$'])
          else substituteLoop vars bytes fuel (i + 1) (out ++ [Char.ofNat byte.toNat])

/-- `substitute_build_args` with its slices checked. -/
def substituteChecked (text : String) (vars : HashMap String String) : Option String :=
  (substituteLoop vars (Utf8.encode text) ((Utf8.encode text).length + 1) 0 []).map String.ofList

/-! ## The reference -/

/-- What a text is made of. -/
inductive Piece where
  | copied (char : Char)
  /-- `${NAME}`. -/
  | braced (name : String)
  /-- `$NAME`. -/
  | named (name : String)
  deriving DecidableEq

/-- A character of the name of a variable. -/
def isNameChar (char : Char) : Bool := char.isAlphanum || char == '_'

/-- Cut a text into pieces from the left: a brace reaches to the first closing one, and a name as
far as it can. -/
def piecesFrom : Nat → List Char → List Piece
  | 0, _ | _, [] => []
  | fuel + 1, char :: rest =>
      if char ≠ '$' then .copied char :: piecesFrom fuel rest
      else if rest.head? = some '\x7b' ∧ '\x7d' ∈ rest then
        .braced (String.ofList ((rest.drop 1).takeWhile (· ≠ '\x7d'))) ::
          piecesFrom fuel ((rest.dropWhile (· ≠ '\x7d')).drop 1)
      else if rest.head?.any isNameChar then
        .named (String.ofList (rest.takeWhile isNameChar)) ::
          piecesFrom fuel (rest.dropWhile isNameChar)
      else .copied '$' :: piecesFrom fuel rest

/-- The pieces of a text. -/
def pieces (text : String) : List Piece := piecesFrom text.toList.length text.toList

/-- What a variable stands for. -/
def valueChars (vars : HashMap String String) (name : String) : List Char :=
  ((vars.lookup name).getD "").toList

/-- What a piece is replaced by. -/
def Piece.expand (vars : HashMap String String) : Piece → List Char
  | .copied char => [char]
  | .braced name | .named name => valueChars vars name

/-- The text with every reference replaced and everything else copied. -/
def referenceSubstitution (text : String) (vars : HashMap String String) : String :=
  String.ofList ((pieces text).flatMap (Piece.expand vars))

/-- How a piece is written. -/
def Piece.spelling : Piece → List Char
  | .copied char => [char]
  | .braced name => '$' :: '\x7b' :: name.toList ++ ['\x7d']
  | .named name => '$' :: name.toList

/-- A brace that is closed somewhere is closed by the first closing one. -/
theorem exists_braced {α : Type} [DecidableEq α] {opening closing : α} {rest : List α}
    (different : opening ≠ closing) (braced : rest.head? = some opening ∧ closing ∈ rest) :
    ∃ name after, rest = opening :: (name ++ closing :: after) ∧ closing ∉ name ∧
      (rest.drop 1).takeWhile (· ≠ closing) = name ∧
        rest.dropWhile (· ≠ closing) = closing :: after := by
  obtain ⟨head, member⟩ := braced
  obtain ⟨body, rfl⟩ : ∃ body, rest = opening :: body := List.head?_eq_some_iff.mp head
  have in_body : closing ∈ body := by simpa [Ne.symm different] using member
  obtain ⟨name, after, rfl, free⟩ := List.eq_append_cons_of_mem in_body
  have every : ∀ item ∈ name, (item ≠ closing : Bool) = true := by
    intro item item_member
    simpa using fun same : item = closing => free (same ▸ item_member)
  refine ⟨name, after, rfl, free, ?_, ?_⟩
  · rw [List.drop_succ_cons, List.drop_zero, List.takeWhile_append_of_pos every]
    simp
  · rw [List.dropWhile_cons_of_pos (by simpa using different),
      List.dropWhile_append_of_pos every]
    simp

/-- The pieces of a text are the whole text and nothing else. -/
theorem piecesFrom_spelling {fuel : Nat} {chars : List Char} (enough : chars.length ≤ fuel) :
    (piecesFrom fuel chars).flatMap Piece.spelling = chars := by
  induction fuel generalizing chars with
  | zero => simp [List.length_eq_zero_iff.mp (Nat.le_zero.mp enough), piecesFrom]
  | succ fuel ih =>
      cases chars with
      | nil => rfl
      | cons char rest =>
          have shorter : rest.length ≤ fuel := by simpa using enough
          rw [piecesFrom]
          by_cases dollar : char ≠ '$'
          · rw [if_pos dollar, List.flatMap_cons, ih shorter]
            rfl
          · obtain rfl : char = '$' := not_ne_iff.mp dollar
            rw [if_neg dollar]
            by_cases brace : rest.head? = some '\x7b' ∧ '\x7d' ∈ rest
            · obtain ⟨name, after, rest_eq, -, name_eq, after_eq⟩ :=
                exists_braced (by decide) brace
              have after_shorter : after.length ≤ fuel := by
                simp only [rest_eq, List.length_cons, List.length_append] at shorter
                omega
              rw [if_pos brace, name_eq, after_eq, List.drop_succ_cons, List.drop_zero,
                List.flatMap_cons, ih after_shorter, rest_eq]
              simp [Piece.spelling]
            · rw [if_neg brace]
              by_cases name : rest.head?.any isNameChar = true
              · have after_shorter : (rest.dropWhile isNameChar).length ≤ fuel :=
                  Nat.le_trans (List.length_dropWhile_le _ _) shorter
                rw [if_pos name, List.flatMap_cons, ih after_shorter]
                simp [Piece.spelling]
              · rw [if_neg name, List.flatMap_cons, ih shorter]
                rfl

theorem pieces_spelling (text : String) :
    String.ofList ((pieces text).flatMap Piece.spelling) = text := by
  rw [pieces, piecesFrom_spelling (Nat.le_refl _), String.ofList_toList]

/-- A character that is copied stands in the text. -/
theorem mem_of_copied {text : String} {char : Char} (member : Piece.copied char ∈ pieces text) :
    char ∈ text.toList := by
  have spelled : char ∈ (pieces text).flatMap Piece.spelling :=
    List.mem_flatMap.mpr ⟨.copied char, member, List.mem_singleton_self char⟩
  have spelling_eq := congrArg String.toList (pieces_spelling text)
  rw [String.toList_ofList] at spelling_eq
  rwa [spelling_eq] at spelled

/-! ## What the loop writes -/

/-- The bytes of a copied character, each as the character of its number. -/
def Piece.emitted (vars : HashMap String String) : Piece → List Char
  | .copied char => (String.utf8EncodeChar char).map fun byte => Char.ofNat byte.toNat
  | .braced name | .named name => valueChars vars name

theorem valueOf_encode (vars : HashMap String String) (name : List Char) :
    valueOf vars (name.flatMap String.utf8EncodeChar) = valueChars vars (String.ofList name) := by
  have bytes_eq : name.flatMap String.utf8EncodeChar = Utf8.encode (String.ofList name) := by
    rw [Utf8.encode, String.toList_ofList]
  rw [valueOf, bytes_eq, Utf8.decode_encode]
  rfl

/-- Names of variables are ASCII. -/
theorem lt_of_isNameChar {char : Char} (in_name : isNameChar char = true) : char.toNat < 128 := by
  have ranges : ((decide (char.val ≥ 65 ∧ char.val ≤ 90) ||
      (decide (char.val ≥ 97) && decide (char.val ≤ 122))) ||
        (decide (char.val ≥ 48) && decide (char.val ≤ 57)) || char == '_') = true := in_name
  simp only [Bool.or_eq_true, Bool.and_eq_true, decide_eq_true_eq, ge_iff_le,
    UInt32.le_iff_toNat_le, beq_iff_eq] at ranges
  rw [Char.toNat]
  rcases ranges with ((⟨-, upper⟩ | ⟨-, lower⟩) | ⟨-, digit⟩) | rfl
  · exact Nat.lt_of_le_of_lt upper (by decide)
  · exact Nat.lt_of_le_of_lt lower (by decide)
  · exact Nat.lt_of_le_of_lt digit (by decide)
  · decide

theorem toNat_ofByte (byte : UInt8) : (Char.ofNat byte.toNat).toNat = byte.toNat := by
  have every : ∀ byte : Fin UInt8.size,
      (Char.ofNat (UInt8.ofFin byte).toNat).toNat = (UInt8.ofFin byte).toNat := by
    decide +kernel
  exact every byte.toFin

theorem isNameByte_eq (byte : UInt8) : isNameByte byte = isNameChar (Char.ofNat byte.toNat) := by
  have underscore : (byte == 0x5F) = (Char.ofNat byte.toNat == '_') := by
    rw [Bool.eq_iff_iff, beq_iff_eq, beq_iff_eq, ← UInt8.toNat_inj, ← Char.toNat_inj,
      toNat_ofByte]
    rfl
  rw [isNameByte, isNameChar, underscore]

/-- A byte of a name belongs to a character of the name. -/
theorem isNameByte_of_mem (char : Char) :
    ∀ byte ∈ String.utf8EncodeChar char, isNameByte byte = isNameChar char := by
  intro byte member
  rw [isNameByte_eq]
  rcases Nat.lt_or_ge char.toNat 128 with ascii | wide
  · rw [Utf8.encodeChar_of_ascii ascii, List.mem_singleton] at member
    have value : byte.toNat = char.toNat := by
      rw [member, UInt8.toNat_ofNat']
      omega
    rw [value, Char.ofNat_toNat]
  · have wide_byte := Utf8.le_toNat_of_mem wide member
    rw [Bool.eq_iff_iff]
    refine iff_of_false (fun in_name => ?_) (fun in_name => ?_)
    · have small := lt_of_isNameChar in_name
      rw [toNat_ofByte] at small
      omega
    · have small := lt_of_isNameChar in_name
      omega

/-! ## The walk over bytes -/

/-- A walk over more fuel than bytes does not depend on the fuel. -/
theorem substituteFrom_fuel (vars : HashMap String String) {fuel other : Nat} {bytes : List UInt8}
    (enough : bytes.length ≤ fuel) (enough_other : bytes.length ≤ other) :
    substituteFrom vars fuel bytes = substituteFrom vars other bytes := by
  induction fuel generalizing bytes other with
  | zero =>
      obtain rfl := List.length_eq_zero_iff.mp (Nat.le_zero.mp enough)
      cases other <;> rfl
  | succ fuel ih =>
      cases bytes with
      | nil => cases other <;> rfl
      | cons byte rest =>
          obtain ⟨other, rfl⟩ : ∃ left, other = left + 1 :=
            ⟨other - 1, by simp only [List.length_cons] at enough_other; omega⟩
          have shorter : rest.length ≤ fuel := by simpa using enough
          have shorter_other : rest.length ≤ other := by simpa using enough_other
          have closed : ((rest.dropWhile (· ≠ 0x7D)).drop 1).length ≤ rest.length := by
            have dropped := List.length_dropWhile_le (· ≠ 0x7D) rest
            rw [List.length_drop]
            omega
          have named : (rest.dropWhile isNameByte).length ≤ rest.length :=
            List.length_dropWhile_le _ _
          rw [substituteFrom, substituteFrom, ih shorter shorter_other,
            ih (Nat.le_trans closed shorter) (Nat.le_trans closed shorter_other),
            ih (Nat.le_trans named shorter) (Nat.le_trans named shorter_other)]

/-- What the loop writes for bytes. -/
def written (vars : HashMap String String) (bytes : List UInt8) : List Char :=
  substituteFrom vars bytes.length bytes

theorem written_plain (vars : HashMap String String) {byte : UInt8} (rest : List UInt8)
    (plain : byte ≠ 0x24) :
    written vars (byte :: rest) = Char.ofNat byte.toNat :: written vars rest := by
  rw [written, List.length_cons, substituteFrom, if_pos plain]
  rfl

theorem written_braced (vars : HashMap String String) {name : List UInt8} (after : List UInt8)
    (free : 0x7D ∉ name) :
    written vars (0x24 :: 0x7B :: (name ++ 0x7D :: after)) =
      valueOf vars name ++ written vars after := by
  have braced : (0x7B :: (name ++ 0x7D :: after)).head? = some (0x7B : UInt8) ∧
      0x7D ∈ (0x7B : UInt8) :: (name ++ 0x7D :: after) := by simp
  have every : ∀ byte ∈ name, (byte ≠ 0x7D : Bool) = true := by
    intro byte member
    simpa using fun same : byte = 0x7D => free (same ▸ member)
  have behind : ((0x7B :: (name ++ 0x7D :: after)).dropWhile (· ≠ 0x7D)).drop 1 = after := by
    rw [List.dropWhile_cons_of_pos (by decide), List.dropWhile_append_of_pos every]
    simp
  have between : ((0x7B :: (name ++ 0x7D :: after)).drop 1).takeWhile (· ≠ 0x7D) = name := by
    rw [List.drop_succ_cons, List.drop_zero, List.takeWhile_append_of_pos every]
    simp
  rw [written, List.length_cons, substituteFrom, if_neg (by decide), if_pos braced, between,
    behind, written]
  refine congrArg (valueOf vars name ++ ·) (substituteFrom_fuel vars ?_ (Nat.le_refl _))
  simp only [List.length_cons, List.length_append]
  omega

theorem written_named (vars : HashMap String String) {rest : List UInt8}
    (open_brace : ¬(rest.head? = some 0x7B ∧ 0x7D ∈ rest))
    (name : rest.head?.any isNameByte = true) :
    written vars (0x24 :: rest) =
      valueOf vars (rest.takeWhile isNameByte) ++ written vars (rest.dropWhile isNameByte) := by
  have mapped : rest.head?.map isNameByte = some true := by
    simpa [Option.any_eq_true] using name
  rw [written, List.length_cons, substituteFrom, if_neg (by decide), if_neg open_brace,
    if_pos mapped, written, substituteFrom_fuel vars (List.length_dropWhile_le _ _) (Nat.le_refl _)]

theorem written_lone (vars : HashMap String String) {rest : List UInt8}
    (open_brace : ¬(rest.head? = some 0x7B ∧ 0x7D ∈ rest))
    (no_name : ¬rest.head?.any isNameByte = true) :
    written vars (0x24 :: rest) = '$' :: written vars rest := by
  have not_mapped : ¬rest.head?.map isNameByte = some true := by
    simpa [Option.any_eq_true] using no_name
  rw [written, List.length_cons, substituteFrom, if_neg (by decide), if_neg open_brace,
    if_neg not_mapped]
  rfl

/-- A brace that is never closed is written as it stands, with its dollar. -/
theorem written_unclosed (vars : HashMap String String) {tail : List UInt8} (free : 0x7D ∉ tail) :
    written vars (0x24 :: 0x7B :: tail) = '$' :: written vars (0x7B :: tail) := by
  refine written_lone vars ?_ ?_
  · rintro ⟨-, member⟩
    simp [free] at member
  · rw [List.head?_cons, Option.any_some]
    decide

/-- Bytes that start no variable are written one by one. -/
theorem written_append (vars : HashMap String String) {front : List UInt8} (rest : List UInt8)
    (plain : ∀ byte ∈ front, byte ≠ 0x24) :
    written vars (front ++ rest) =
      (front.map fun byte => Char.ofNat byte.toNat) ++ written vars rest := by
  induction front with
  | nil => rfl
  | cons byte front ih =>
      obtain ⟨not_dollar, plain_front⟩ := List.forall_mem_cons.mp plain
      rw [List.cons_append, written_plain vars _ not_dollar, ih plain_front]
      rfl

/-! ## What the walk writes for a text -/

/-- The bytes of a text begin with a closed brace exactly when the text does. -/
theorem braced_iff (rest : List Char) :
    ((rest.flatMap String.utf8EncodeChar).head? = some 0x7B ∧
        0x7D ∈ rest.flatMap String.utf8EncodeChar) ↔
      rest.head? = some '\x7b' ∧ '\x7d' ∈ rest := by
  have head_any := Utf8.head?_encode
    (Utf8.decide_byte_eq (by decide : ('\x7b' : Char).toNat < 128)) rest
  refine and_congr ?_ (Utf8.byte_mem_flatMap_iff (by decide : ('\x7d' : Char).toNat < 128))
  rw [Bool.eq_iff_iff, Option.any_eq_true, Option.any_eq_true] at head_any
  simpa using head_any

theorem written_copied (vars : HashMap String String) {char : Char} (rest : List UInt8)
    (plain : char ≠ '$') :
    written vars (String.utf8EncodeChar char ++ rest) =
      Piece.emitted vars (.copied char) ++ written vars rest := by
  refine written_append vars rest fun byte member => ?_
  have different := Utf8.decide_byte_eq (by decide : '$'.toNat < 128) char byte member
  rw [decide_eq_false plain] at different
  exact of_decide_eq_false different

theorem written_braced_text (vars : HashMap String String) {name : List Char} (after : List Char)
    (free : '\x7d' ∉ name) :
    written vars (0x24 :: ('\x7b' :: (name ++ '\x7d' :: after)).flatMap String.utf8EncodeChar) =
      valueOf vars (name.flatMap String.utf8EncodeChar) ++
        written vars (after.flatMap String.utf8EncodeChar) := by
  have bytes_free : 0x7D ∉ name.flatMap String.utf8EncodeChar := by
    simpa using mt (Utf8.byte_mem_flatMap_iff (by decide : ('\x7d' : Char).toNat < 128)).mp free
  have bytes_eq : ('\x7b' :: (name ++ '\x7d' :: after)).flatMap String.utf8EncodeChar =
      0x7B :: (name.flatMap String.utf8EncodeChar ++
        0x7D :: after.flatMap String.utf8EncodeChar) := by
    simp only [List.flatMap_cons, List.flatMap_append]
    rfl
  rw [bytes_eq, written_braced vars _ bytes_free]

/-- The loop writes the pieces of the text, copied characters by their bytes. -/
theorem written_encode (vars : HashMap String String) {count : Nat} {chars : List Char}
    (enough : chars.length ≤ count) :
    written vars (chars.flatMap String.utf8EncodeChar) =
      (piecesFrom count chars).flatMap (Piece.emitted vars) := by
  induction count generalizing chars with
  | zero =>
      obtain rfl := List.length_eq_zero_iff.mp (Nat.le_zero.mp enough)
      rfl
  | succ count ih =>
      cases chars with
      | nil => rfl
      | cons char rest =>
          have shorter : rest.length ≤ count := by simpa using enough
          rw [piecesFrom, List.flatMap_cons]
          by_cases dollar : char ≠ '$'
          · rw [if_pos dollar, written_copied vars _ dollar, List.flatMap_cons, ih shorter]
          · obtain rfl : char = '$' := not_ne_iff.mp dollar
            have dollar_bytes : String.utf8EncodeChar '$' = [0x24] := rfl
            rw [if_neg dollar, dollar_bytes, List.singleton_append]
            by_cases brace : rest.head? = some '\x7b' ∧ '\x7d' ∈ rest
            · obtain ⟨name, after, rfl, free, name_eq, after_eq⟩ :=
                exists_braced (by decide) brace
              have after_shorter : after.length ≤ count := by
                simp only [List.length_cons, List.length_append] at shorter
                omega
              rw [if_pos brace, name_eq, after_eq, written_braced_text vars _ free, valueOf_encode,
                List.flatMap_cons, List.drop_succ_cons, List.drop_zero,
                ih after_shorter]
              rfl
            · have bytes_brace := mt (braced_iff rest).mp brace
              have head_any := Utf8.head?_encode isNameByte_of_mem rest
              obtain ⟨name_eq, after_eq⟩ := Utf8.takeWhile_encode isNameByte_of_mem rest
              rw [if_neg brace]
              by_cases name : rest.head?.any isNameChar = true
              · have after_shorter : (rest.dropWhile isNameChar).length ≤ count :=
                  Nat.le_trans (List.length_dropWhile_le _ _) shorter
                rw [if_pos name, written_named vars bytes_brace (head_any.trans name), name_eq,
                  after_eq, valueOf_encode, List.flatMap_cons, ih after_shorter]
                rfl
              · rw [if_neg name, written_lone vars bytes_brace (head_any ▸ name),
                  List.flatMap_cons, ih shorter]
                rfl

/-! ## The slices of the loop -/

theorem drop_of_getElem? {bytes : List UInt8} {index : Nat} {byte : UInt8}
    (found : bytes[index]? = some byte) : bytes.drop index = byte :: bytes.drop (index + 1) := by
  obtain ⟨inside, rfl⟩ := List.getElem?_eq_some_iff.mp found
  exact List.drop_eq_getElem_cons inside

theorem nameEnd_eq (bytes : List UInt8) {fuel stop : Nat} (enough : bytes.length ≤ stop + fuel) :
    nameEnd bytes fuel stop = stop + ((bytes.drop stop).takeWhile isNameByte).length := by
  induction fuel generalizing stop with
  | zero =>
      rw [nameEnd, List.drop_eq_nil_of_le (by omega)]
      rfl
  | succ fuel ih =>
      rw [nameEnd]
      cases found : bytes[stop]? with
      | none =>
          rw [List.drop_eq_nil_of_le (List.getElem?_eq_none_iff.mp found)]
          rfl
      | some byte =>
          rw [drop_of_getElem? found]
          by_cases name : isNameByte byte = true
          · have next : nameEnd bytes fuel (stop + 1) = _ := ih (by omega)
            rw [List.takeWhile_cons_of_pos name, List.length_cons, Option.any_some, if_pos name,
              next]
            omega
          · rw [List.takeWhile_cons_of_neg name, Option.any_some, if_neg name]
            rfl

/-- `find` stops at the first closing brace. -/
theorem exists_of_findIdx? {tail : List UInt8} {close : Nat}
    (found : tail.findIdx? (· == 0x7D) = some close) :
    ∃ name after, tail = name ++ 0x7D :: after ∧ 0x7D ∉ name ∧ name.length = close := by
  induction tail generalizing close with
  | nil => simp at found
  | cons byte tail ih =>
      rw [List.findIdx?_cons] at found
      by_cases closing : (byte == 0x7D) = true
      · rw [if_pos closing] at found
        obtain rfl := Option.some.inj found
        exact ⟨[], tail, by rw [beq_iff_eq.mp closing]; rfl, by simp, rfl⟩
      · rw [if_neg closing] at found
        obtain ⟨later, later_found, rfl⟩ := Option.map_eq_some_iff.mp found
        obtain ⟨name, after, rfl, free, length_eq⟩ := ih later_found
        refine ⟨byte :: name, after, rfl, ?_, by rw [List.length_cons, length_eq]⟩
        have different : byte ≠ 0x7D := by simpa using closing
        simp [free, Ne.symm different]

theorem lt_of_isNameByte {byte : UInt8} (in_name : isNameByte byte = true) :
    byte.toNat < 128 := by
  rw [isNameByte_eq] at in_name
  have small := lt_of_isNameChar in_name
  rwa [toNat_ofByte] at small

theorem drop_takeWhile_length {α : Type} (test : α → Bool) (items : List α) :
    items.drop (items.takeWhile test).length = items.dropWhile test := by
  have split := @List.drop_left _ (items.takeWhile test) (items.dropWhile test)
  rwa [List.takeWhile_append_dropWhile] at split

section Slices

variable {chars : List Char} {i : Nat}

/-- The slice in which the closing brace is looked for. -/
theorem substring_tail (brace : (chars.flatMap String.utf8EncodeChar)[i + 1]? = some 0x7B) :
    let bytes := chars.flatMap String.utf8EncodeChar
    Utf8.substring bytes (i + 2) bytes.length = some (bytes.drop (i + 2)) := by
  intro bytes
  have inside : i + 1 < bytes.length := (List.getElem?_eq_some_iff.mp brace).1
  have second := Utf8.isCharBoundary_succ brace (by decide)
  rw [Utf8.substring, if_pos ⟨by omega, second, Utf8.isCharBoundary_length bytes⟩,
    List.take_of_length_le (by rw [List.length_drop])]

/-- The slice between the braces, and where the loop goes on. -/
theorem substring_braced (brace : (chars.flatMap String.utf8EncodeChar)[i + 1]? = some 0x7B)
    {name after : List UInt8}
    (split : (chars.flatMap String.utf8EncodeChar).drop (i + 2) = name ++ 0x7D :: after) :
    let bytes := chars.flatMap String.utf8EncodeChar
    Utf8.substring bytes (i + 2) (i + 2 + name.length) = some name ∧
      i + 2 + name.length + 1 ≤ bytes.length ∧
        bytes.drop (i + 2 + name.length + 1) = after := by
  intro bytes
  have second := Utf8.isCharBoundary_succ brace (by decide)
  have closing : bytes[i + 2 + name.length]? = some 0x7D := by
    rw [← List.getElem?_drop, split]
    simp
  have third := Utf8.isCharBoundary_of_ascii closing (by decide)
  refine ⟨?_, (List.getElem?_eq_some_iff.mp closing).1, ?_⟩
  · rw [Utf8.substring, if_pos ⟨Nat.le_add_right _ _, second, third⟩, Nat.add_sub_cancel_left,
      split, List.take_left]
  · rw [Nat.add_assoc (i + 2), ← List.drop_drop, split, ← List.drop_drop, List.drop_left,
      List.drop_succ_cons, List.drop_zero]

/-- The name behind a dollar ends at the boundary of a character. -/
theorem substring_named {byte : UInt8}
    (dollar : (chars.flatMap String.utf8EncodeChar)[i]? = some byte) (ascii : byte.toNat < 128) :
    let bytes := chars.flatMap String.utf8EncodeChar
    let name := (bytes.drop (i + 1)).takeWhile isNameByte
    Utf8.substring bytes (i + 1) (i + 1 + name.length) = some name ∧
      i + 1 + name.length ≤ bytes.length ∧
        bytes.drop (i + 1 + name.length) = (bytes.drop (i + 1)).dropWhile isNameByte := by
  intro bytes name
  have first : Utf8.isCharBoundary bytes (i + 1) = true := Utf8.isCharBoundary_succ dollar ascii
  have inside : i < bytes.length := (List.getElem?_eq_some_iff.mp dollar).1
  have split : bytes.drop (i + 1) = name ++ (bytes.drop (i + 1)).dropWhile isNameByte :=
    List.takeWhile_append_dropWhile.symm
  have short : name.length ≤ bytes.length - (i + 1) := by
    rw [← List.length_drop]
    exact (List.takeWhile_sublist isNameByte).length_le
  have last : Utf8.isCharBoundary bytes (i + 1 + name.length) = true := by
    rcases List.eq_nil_or_concat name with empty | ⟨front, final, name_eq⟩
    · rw [empty]
      exact first
    · -- The byte before the end is one of the name, hence a character of its own.
      have in_name : isNameByte final = true := by
        refine List.mem_takeWhile_imp (l := bytes.drop (i + 1)) ?_
        change final ∈ name
        simp [name_eq]
      have found : bytes[i + 1 + front.length]? = some final := by
        rw [← List.getElem?_drop, split, name_eq]
        simp
      have boundary := Utf8.isCharBoundary_succ found (lt_of_isNameByte in_name)
      rw [name_eq, List.concat_eq_append, List.length_append, List.length_singleton]
      exact boundary
  refine ⟨?_, by omega, ?_⟩
  · rw [Utf8.substring, if_pos ⟨Nat.le_add_right _ _, first, last⟩, Nat.add_sub_cancel_left,
      split, List.take_left]
  · rw [← List.drop_drop]
    exact drop_takeWhile_length isNameByte _

end Slices

/-- From every index the loop writes what the walk writes for the remaining bytes, and none of its
slices panics. -/
theorem substituteLoop_eq (vars : HashMap String String) (chars : List Char) {fuel i : Nat}
    (out : List Char) :
    let bytes := chars.flatMap String.utf8EncodeChar
    bytes.length < i + fuel → i ≤ bytes.length →
      substituteLoop vars bytes fuel i out = some (out ++ written vars (bytes.drop i)) := by
  intro bytes
  induction fuel generalizing i out with
  | zero => omega
  | succ fuel ih =>
      intro enough inside
      rw [substituteLoop]
      cases found : bytes[i]? with
      | none =>
          rw [List.drop_eq_nil_of_le (List.getElem?_eq_none_iff.mp found)]
          simp [written, substituteFrom]
      | some byte =>
          have before_end : i < bytes.length := (List.getElem?_eq_some_iff.mp found).1
          have head_eq : (bytes.drop (i + 1)).head? = bytes[i + 1]? := List.head?_drop
          rw [drop_of_getElem? found]
          dsimp only
          by_cases dollar : byte = 0x24
          · subst dollar
            rw [if_pos rfl]
            by_cases brace : bytes[i + 1]? = some 0x7B
            · have rest_eq : bytes.drop (i + 1) = 0x7B :: bytes.drop (i + 2) :=
                drop_of_getElem? brace
              rw [if_pos brace, substring_tail brace, Option.bind_some]
              cases close_found : (bytes.drop (i + 2)).findIdx? (· == 0x7D) with
              | some close =>
                  obtain ⟨name, after, split, free, rfl⟩ := exists_of_findIdx? close_found
                  obtain ⟨name_eq, behind_inside, after_eq⟩ := substring_braced brace split
                  dsimp only
                  rw [name_eq, Option.bind_some, ih _ (by omega) behind_inside, after_eq, rest_eq,
                    split, written_braced vars _ free, List.append_assoc]
              | none =>
                  have absent : 0x7D ∉ bytes.drop (i + 2) := by
                    intro member
                    simpa using List.findIdx?_eq_none_iff.mp close_found _ member
                  dsimp only
                  rw [ih _ (by omega) (by omega), rest_eq, written_unclosed vars absent,
                    List.append_assoc, List.singleton_append]
            · have no_brace : ¬((bytes.drop (i + 1)).head? = some 0x7B ∧
                  0x7D ∈ bytes.drop (i + 1)) := by
                rw [head_eq]
                exact fun closed => brace closed.1
              rw [if_neg brace]
              by_cases name : bytes[i + 1]?.any isNameByte = true
              · obtain ⟨name_eq, stop_inside, after_eq⟩ := substring_named found (by decide)
                rw [if_pos name, nameEnd_eq bytes (by omega), name_eq, Option.bind_some,
                  ih _ (by omega) stop_inside, after_eq,
                  written_named vars no_brace (by rw [head_eq]; exact name), List.append_assoc]
              · rw [if_neg name, ih _ (by omega) (by omega),
                  written_lone vars no_brace (by rw [head_eq]; exact name), List.append_assoc,
                  List.singleton_append]
          · rw [if_neg dollar, ih _ (by omega) (by omega), written_plain vars _ dollar]
            simp

/-- No slice panics, and the loop computes `substituteBuildArgs`. -/
theorem substituteChecked_eq (text : String) (vars : HashMap String String) :
    substituteChecked text vars = some (substituteBuildArgs text vars) := by
  have loop_eq : substituteLoop vars (Utf8.encode text) ((Utf8.encode text).length + 1) 0 [] =
      some (written vars (Utf8.encode text)) :=
    substituteLoop_eq vars text.toList [] (by rw [Utf8.encode]; omega) (Nat.zero_le _)
  rw [substituteChecked, loop_eq]
  rfl

/-! ## The loop and the reference -/

theorem substituteBuildArgs_eq (text : String) (vars : HashMap String String) :
    substituteBuildArgs text vars =
      String.ofList ((pieces text).flatMap (Piece.emitted vars)) := by
  rw [pieces, ← written_encode vars (Nat.le_refl _)]
  rfl

/-- The pieces that the loop writes as the reference does. -/
def Piece.Plain : Piece → Prop
  | .copied char => char.toNat < 128
  | .braced _ | .named _ => True

theorem Piece.emitted_of_plain (vars : HashMap String String) {piece : Piece}
    (plain : piece.Plain) : piece.emitted vars = piece.expand vars := by
  cases piece with
  | copied char =>
      have value : (UInt8.ofNat char.toNat).toNat = char.toNat := by
        rw [UInt8.toNat_ofNat']
        exact Nat.mod_eq_of_lt (Nat.lt_trans plain (by decide))
      rw [Piece.emitted, Utf8.encodeChar_of_ascii plain, List.map_singleton, value,
        Char.ofNat_toNat]
      rfl
  | braced name => rfl
  | named name => rfl

/-- A piece never becomes shorter, and keeps its length only when it is plain. -/
theorem Piece.length_emitted (vars : HashMap String String) (piece : Piece) :
    (piece.expand vars).length ≤ (piece.emitted vars).length ∧
      ((piece.emitted vars).length = (piece.expand vars).length → piece.Plain) := by
  cases piece with
  | copied char =>
      have length_eq : (Piece.emitted vars (.copied char)).length = char.utf8Size := by
        rw [Piece.emitted, List.length_map, String.length_utf8EncodeChar]
      rw [length_eq]
      refine ⟨char.utf8Size_pos, fun single => ?_⟩
      have small := Char.utf8Size_eq_one_iff.mp single
      rw [UInt32.le_iff_toNat_le] at small
      exact Nat.lt_succ_of_le small
  | braced name => exact ⟨Nat.le_refl _, fun _ => trivial⟩
  | named name => exact ⟨Nat.le_refl _, fun _ => trivial⟩

/-- The loop writes the reference substitution exactly when every piece is plain. -/
theorem emitted_eq_expand_iff (vars : HashMap String String) (parts : List Piece) :
    parts.flatMap (Piece.emitted vars) = parts.flatMap (Piece.expand vars) ↔
      ∀ piece ∈ parts, piece.Plain := by
  have longer : ∀ parts : List Piece, (parts.flatMap (Piece.expand vars)).length ≤
      (parts.flatMap (Piece.emitted vars)).length := by
    intro parts
    induction parts with
    | nil => exact Nat.le_refl _
    | cons piece parts ih =>
        rw [List.flatMap_cons, List.flatMap_cons, List.length_append, List.length_append]
        exact Nat.add_le_add (piece.length_emitted vars).1 ih
  induction parts with
  | nil => simp
  | cons piece parts ih =>
      obtain ⟨piece_longer, plain_of_length⟩ := piece.length_emitted vars
      rw [List.flatMap_cons, List.flatMap_cons, List.forall_mem_cons]
      constructor
      · intro same
        have lengths := congrArg List.length same
        rw [List.length_append, List.length_append] at lengths
        have rest_longer := longer parts
        obtain ⟨-, rest_same⟩ := List.append_inj same (by omega)
        exact ⟨plain_of_length (by omega), ih.mp rest_same⟩
      · rintro ⟨plain, plain_rest⟩
        rw [Piece.emitted_of_plain vars plain, ih.mpr plain_rest]

/-- No slice of the loop panics, and it computes the reference substitution exactly when every
character that is copied is ASCII. -/
theorem substitute_reference_iff (text : String) (vars : HashMap String String) :
    (substituteChecked text vars).isSome = true ∧
      (substituteChecked text vars = some (referenceSubstitution text vars) ↔
        ∀ char, Piece.copied char ∈ pieces text → char.toNat < 128) := by
  rw [substituteChecked_eq, Option.some.injEq, substituteBuildArgs_eq, referenceSubstitution,
    String.ofList_inj, emitted_eq_expand_iff]
  refine ⟨rfl, fun plain char member => plain _ member, ?_⟩
  intro ascii piece member
  cases piece with
  | copied char => exact ascii char member
  | braced name => trivial
  | named name => trivial

/-- A text of one letter that is not ASCII comes out as two others. -/
theorem accented_letter_not_copied :
    ¬substituteChecked "é" ∅ = some (referenceSubstitution "é" ∅) := by
  rw [substituteChecked_eq, Option.some.injEq, substituteBuildArgs_eq, referenceSubstitution,
    String.ofList_inj, emitted_eq_expand_iff]
  intro plain
  have small : ('é').toNat < 128 := plain (.copied 'é') (by decide)
  exact absurd small (by decide)

end Pelagos.Guest
