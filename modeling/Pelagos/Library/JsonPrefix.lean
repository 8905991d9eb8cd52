import Pelagos.Library.Json

/-!
# Torn JSON texts

A reader that stops at a character behind the value reads the same value when more text follows, and
an object stops at its closing brace.  So no proper front of the text of an object is a JSON text,
and a line that was torn before its last brace is never taken for another one.
-/

namespace Json

/-- What was read is read again when more text follows, provided something was left. -/
def Extends {α : Type*} (read : List Char → Option (α × List Char)) : Prop :=
  ∀ {chars value rest}, read chars = some (value, rest) → rest ≠ [] →
    ∀ more, read (chars ++ more) = some (value, rest ++ more)

/-- The same without the proviso. -/
def ExtendsAlways {α : Type*} (read : List Char → Option (α × List Char)) : Prop :=
  ∀ {chars value rest}, read chars = some (value, rest) →
    ∀ more, read (chars ++ more) = some (value, rest ++ more)

theorem ExtendsAlways.extends {α : Type*} {read : List Char → Option (α × List Char)}
    (always : ExtendsAlways read) : Extends read := fun found _ => always found

theorem dropWhile_append_of_ne_nil {test : Char → Bool} {chars : List Char}
    (left : chars.dropWhile test ≠ []) (more : List Char) :
    (chars ++ more).dropWhile test = chars.dropWhile test ++ more ∧
      (chars ++ more).takeWhile test = chars.takeWhile test := by
  induction chars with
  | nil => simp at left
  | cons char chars ih =>
      cases holds : test char with
      | false => simp [holds]
      | true =>
          rw [List.dropWhile_cons_of_pos holds] at left ⊢
          rw [List.cons_append, List.dropWhile_cons_of_pos holds, List.takeWhile_cons_of_pos holds,
            List.takeWhile_cons_of_pos holds]
          exact ⟨(ih left).1, congrArg (char :: ·) (ih left).2⟩

theorem skipSpace_append {chars : List Char} (left : skipSpace chars ≠ []) (more : List Char) :
    skipSpace (chars ++ more) = skipSpace chars ++ more :=
  (dropWhile_append_of_ne_nil left more).1

/-! ## Scalars -/

/-- A character in front of a text that is read on. -/
theorem bind_cons_extends {read : List Char → Option (List Char × List Char)}
    {char : Char} {chars value rest more : List Char}
    (extends_read : ∀ {text behind}, read chars = some (text, behind) →
      read (chars ++ more) = some (text, behind ++ more))
    (found : (do
      let (text, behind) ← read chars
      return (char :: text, behind)) = some (value, rest)) :
    (do
      let (text, behind) ← read (chars ++ more)
      return (char :: text, behind)) = some (value, rest ++ more) := by
  obtain ⟨⟨text, behind⟩, inner, outer⟩ := Option.bind_eq_some_iff.mp found
  obtain ⟨rfl, rfl⟩ : char :: text = value ∧ behind = rest := by simpa using outer
  rw [extends_read inner]
  rfl

theorem readString_extends : ExtendsAlways readString := by
  intro chars value rest found more
  induction chars using readString.induct generalizing value rest with
  | case1 tail =>
      simp only [readString, Option.some.injEq, Prod.mk.injEq] at found
      obtain ⟨rfl, rfl⟩ := found
      rfl
  | case2 a b c d tail pair ih =>
      simp only [List.cons_append]
      rw [readString] at found ⊢
      obtain ⟨unit, unit_eq, found⟩ := Option.bind_eq_some_iff.mp found
      rw [unit_eq]
      dsimp only [Option.bind_some, bind] at found ⊢
      by_cases high : 0xD800 ≤ unit ∧ unit < 0xDC00
      · rw [if_pos high] at found ⊢
        split at found
        · rename_i e f g h tail _
          obtain ⟨low, low_eq, found⟩ := Option.bind_eq_some_iff.mp found
          change (hexUnit e f g h).bind _ = _
          rw [low_eq]
          dsimp only [Option.bind_some, bind] at found ⊢
          split at found
          · rename_i in_range
            rw [if_pos in_range]
            exact bind_cons_extends (fun inner => pair inner) found
          · cases found
        · cases found
      · rw [if_neg high] at found ⊢
        split at found
        · cases found
        · rename_i not_low
          rw [if_neg not_low]
          exact bind_cons_extends (fun inner => ih inner) found
  | case3 escaped tail no_unit ih =>
      by_cases unit : escaped = 'u'
      · subst unit
        rw [readString] at found
        · cases found
        · exact no_unit
      · simp only [List.cons_append]
        rw [readString] at found ⊢
        · obtain ⟨char, char_eq, found⟩ := Option.bind_eq_some_iff.mp found
          rw [char_eq]
          exact bind_cons_extends (fun inner => ih inner) found
        · rintro _ _ _ _ _ rfl
          exact absurd rfl unit
        · exact no_unit
  | case4 char tail quote no_unit no_escape refused =>
      rw [readString, if_pos refused] at found
      · cases found
      · exact quote
      · exact no_unit
      · exact no_escape
  | case5 char tail quote no_unit no_escape allowed ih =>
      have backslash : char ≠ '\\' := fun same => allowed (.inr same)
      rw [readString, if_neg allowed] at found
      · rw [List.cons_append, readString, if_neg allowed]
        · exact bind_cons_extends (fun inner => ih inner) found
        · exact quote
        · exact fun _ _ _ _ _ same => absurd same backslash
        · exact fun _ _ same => absurd same backslash
      · exact quote
      · exact no_unit
      · exact no_escape
  | case6 => cases found

theorem readFraction_extends : Extends readFraction := by
  intro chars value rest found left more
  rw [readFraction.eq_def] at found
  split at found
  · rename_i tail
    dsimp only at found
    split at found
    · cases found
    · rename_i some_digits
      obtain ⟨rfl, rfl⟩ : '.' :: tail.takeWhile Char.isDigit = value ∧
          tail.dropWhile Char.isDigit = rest := by simpa using found
      obtain ⟨dropped, taken⟩ := dropWhile_append_of_ne_nil left more
      rw [List.cons_append, readFraction, taken, dropped, if_neg some_digits]
  · rename_i no_point
    obtain ⟨rfl, rfl⟩ : [] = value ∧ chars = rest := by simpa using found
    cases chars with
    | nil => exact absurd rfl left
    | cons char chars =>
        rw [List.cons_append, readFraction]
        rintro tail same
        obtain ⟨rfl, -⟩ := List.cons.inj same
        exact no_point chars rfl

theorem readFraction_nil : readFraction [] = some ([], []) := rfl

theorem readExponent_extends : Extends readExponent := by
  intro chars value rest found left more
  cases chars with
  | nil =>
      obtain ⟨rfl, rfl⟩ : [] = value ∧ [] = rest := by simpa [readExponent] using found
      exact absurd rfl left
  | cons char chars =>
      by_cases exponent : char = 'e' ∨ char = 'E'
      · have digits (sign : List Char) {unsigned : List Char}
            (found : (if unsigned.takeWhile Char.isDigit = [] then none
              else some (char :: sign ++ unsigned.takeWhile Char.isDigit,
                unsigned.dropWhile Char.isDigit)) = some (value, rest)) :
            (if (unsigned ++ more).takeWhile Char.isDigit = [] then none
              else some (char :: sign ++ (unsigned ++ more).takeWhile Char.isDigit,
                (unsigned ++ more).dropWhile Char.isDigit)) = some (value, rest ++ more) := by
          split at found
          · cases found
          · rename_i some_digits
            obtain ⟨rfl, rfl⟩ := Prod.mk.inj (Option.some.inj found)
            obtain ⟨dropped, taken⟩ := dropWhile_append_of_ne_nil left more
            rw [taken, dropped, if_neg some_digits]
        rw [List.cons_append]
        cases chars with
        | nil => simp [readExponent, exponent] at found
        | cons sign tail =>
            by_cases plus : sign = '+'
            · subst plus
              rw [readExponent, if_pos exponent] at found
              rw [List.cons_append, readExponent, if_pos exponent]
              exact digits ['+'] found
            · by_cases minus : sign = '-'
              · subst minus
                rw [readExponent, if_pos exponent] at found
                rw [List.cons_append, readExponent, if_pos exponent]
                exact digits ['-'] found
              · have no_plus (tail rest : List Char) : sign :: tail = '+' :: rest → False :=
                  fun same => plus (List.cons.inj same).1
                have no_minus (tail rest : List Char) : sign :: tail = '-' :: rest → False :=
                  fun same => minus (List.cons.inj same).1
                rw [readExponent, if_pos exponent] at found
                · rw [List.cons_append, readExponent, if_pos exponent]
                  · exact digits [] found
                  · exact no_plus _
                  · exact no_minus _
                · exact no_plus _
                · exact no_minus _
      · rw [List.cons_append, readExponent.eq_def] at *
        dsimp only at found ⊢
        rw [if_neg exponent] at found ⊢
        obtain ⟨rfl, rfl⟩ : [] = value ∧ char :: chars = rest := by simpa using found
        rfl

theorem readUnsigned_extends (negative : Bool) : Extends (readUnsigned negative) := by
  intro chars value rest found left more
  rw [readUnsigned] at found ⊢
  dsimp only at found ⊢
  split at found
  · cases found
  · rename_i number
    obtain ⟨⟨fraction, behind⟩, fraction_eq, found⟩ := Option.bind_eq_some_iff.mp found
    obtain ⟨⟨exponent, last⟩, exponent_eq, found⟩ := Option.bind_eq_some_iff.mp found
    dsimp only at found
    have last_eq : last = rest := by
      split at found <;> exact (Prod.mk.inj (Option.some.inj found)).2
    subst last_eq
    have behind_left : behind ≠ [] := by
      rintro rfl
      obtain ⟨-, rfl⟩ : [] = exponent ∧ [] = last := by simpa [readExponent] using exponent_eq
      exact left rfl
    have digits_left : chars.dropWhile Char.isDigit ≠ [] := by
      intro empty
      rw [empty, readFraction_nil] at fraction_eq
      obtain ⟨-, rfl⟩ := Prod.mk.inj (Option.some.inj fraction_eq)
      exact behind_left rfl
    obtain ⟨dropped, taken⟩ := dropWhile_append_of_ne_nil digits_left more
    have fraction_more := readFraction_extends fraction_eq behind_left more
    have exponent_more := readExponent_extends exponent_eq left more
    rw [taken, dropped, if_neg number, fraction_more]
    dsimp only [Option.bind_some, bind]
    rw [exponent_more]
    dsimp only [Option.bind_some]
    split at found
    · rename_i exact_integer
      rw [if_pos exact_integer]
      obtain ⟨rfl, -⟩ := Prod.mk.inj (Option.some.inj found)
      rfl
    · rename_i other
      rw [if_neg other]
      obtain ⟨rfl, -⟩ := Prod.mk.inj (Option.some.inj found)
      rfl

theorem readScalar_extends : Extends readScalar := by
  intro chars value rest found left more
  rw [readScalar.eq_def] at found
  split at found
  · obtain ⟨rfl, rfl⟩ := Prod.mk.inj (Option.some.inj found)
    rfl
  · obtain ⟨rfl, rfl⟩ := Prod.mk.inj (Option.some.inj found)
    rfl
  · obtain ⟨rfl, rfl⟩ := Prod.mk.inj (Option.some.inj found)
    rfl
  · rename_i tail
    obtain ⟨⟨text, behind⟩, text_eq, found⟩ := Option.bind_eq_some_iff.mp found
    obtain ⟨rfl, rfl⟩ := Prod.mk.inj (Option.some.inj found)
    rw [List.cons_append, readScalar, readString_extends text_eq more]
    rfl
  · rename_i tail
    rw [List.cons_append, readScalar]
    exact readUnsigned_extends true found left more
  · rename_i no_null no_true no_false no_quote no_minus
    have opens : ∃ digit tail, chars = digit :: tail ∧ digit.isDigit = true := by
      rw [readUnsigned] at found
      dsimp only at found
      split at found
      · cases found
      · rename_i number
        cases chars with
        | nil => simp at number
        | cons digit tail =>
            refine ⟨digit, tail, rfl, ?_⟩
            by_contra other
            rw [List.takeWhile_cons_of_neg other] at number
            exact number (.inl rfl)
    obtain ⟨digit, tail, rfl, is_digit⟩ := opens
    have extended := readUnsigned_extends false found left more
    rw [List.cons_append] at extended ⊢
    rw [readScalar_digit is_digit]
    exact extended

/-! ## Sequences and values -/

section Sequences

variable {α : Type*} {readElement : List Char → Option (α × List Char)} {close : Char}

theorem readElements_extends (extends_element : Extends readElement) {fuel : Nat}
    {chars rest : List Char} {elements : List α}
    (found : readElements readElement close fuel chars = some (elements, rest)) {larger : Nat}
    (enough : fuel ≤ larger) (more : List Char) :
    readElements readElement close larger (chars ++ more) = some (elements, rest ++ more) := by
  induction fuel generalizing chars elements larger with
  | zero => cases found
  | succ fuel ih =>
      obtain ⟨larger, rfl⟩ : ∃ less, larger = less + 1 := ⟨larger - 1, by omega⟩
      rw [readElements] at found ⊢
      obtain ⟨⟨element, behind⟩, element_eq, found⟩ := Option.bind_eq_some_iff.mp found
      dsimp only at found
      split at found
      · cases found
      · rename_i char tail skipped
        have behind_left : behind ≠ [] := by
          rintro rfl
          cases skipped
        have skipped_more := skipSpace_append (by rw [skipped]; simp) more
        rw [extends_element element_eq behind_left more]
        dsimp only [Option.bind_some, bind]
        rw [skipped_more, skipped, List.cons_append]
        dsimp only
        split at found
        · rename_i comma
          obtain ⟨⟨others, last⟩, others_eq, found⟩ := Option.bind_eq_some_iff.mp found
          obtain ⟨rfl, rfl⟩ := Prod.mk.inj (Option.some.inj found)
          rw [if_pos comma, ih others_eq (by omega)]
          rfl
        · rename_i no_comma
          split at found
          · rename_i closes
            obtain ⟨rfl, rfl⟩ := Prod.mk.inj (Option.some.inj found)
            rw [if_neg no_comma, if_pos closes]
            rfl
          · cases found

theorem readSequence_extends (extends_element : Extends readElement) :
    ExtendsAlways (readSequence readElement close) := by
  intro chars elements rest found more
  rw [readSequence] at found ⊢
  split at found
  · cases found
  · rename_i char tail skipped
    rw [skipSpace_append (by rw [skipped]; simp) more, skipped, List.cons_append]
    dsimp only
    split at found
    · rename_i closes
      obtain ⟨rfl, rfl⟩ := Prod.mk.inj (Option.some.inj found)
      rw [if_pos closes]
    · rename_i opens
      rw [if_neg opens]
      refine readElements_extends extends_element found ?_ more
      rw [List.length_append]
      omega

end Sequences

theorem readMember_extends {readValue : List Char → Option (Json × List Char)}
    (extends_value : Extends readValue) : Extends (readMember readValue) := by
  intro chars value rest found left more
  rw [readMember] at found ⊢
  split at found
  · rename_i tail skipped
    obtain ⟨⟨key, behind⟩, key_eq, found⟩ := Option.bind_eq_some_iff.mp found
    dsimp only at found
    split at found
    · rename_i after colon
      obtain ⟨⟨json, last⟩, json_eq, found⟩ := Option.bind_eq_some_iff.mp found
      obtain ⟨rfl, rfl⟩ := Prod.mk.inj (Option.some.inj found)
      rw [skipSpace_append (by rw [skipped]; simp) more, skipped, List.cons_append]
      change (readString (tail ++ more)).bind _ = _
      rw [readString_extends key_eq more, Option.bind_some]
      dsimp only
      rw [skipSpace_append (by rw [colon]; simp) more, colon, List.cons_append]
      change (readValue (after ++ more)).bind _ = _
      rw [extends_value json_eq left more]
      rfl
    · cases found
  · cases found

theorem readValue_extends (depth : Nat) : Extends (readValue depth) := by
  induction depth with
  | zero =>
      intro chars value rest found left more
      rw [readValue] at found ⊢
      have skipped : skipSpace chars ≠ [] := by
        intro empty
        rw [empty] at found
        cases found
      rw [skipSpace_append skipped more]
      exact readScalar_extends found left more
  | succ depth ih =>
      intro chars value rest found left more
      rw [readValue] at found
      split at found
      · rename_i tail skipped
        obtain ⟨⟨items, behind⟩, items_eq, found⟩ := Option.bind_eq_some_iff.mp found
        obtain ⟨rfl, rfl⟩ := Prod.mk.inj (Option.some.inj found)
        rw [readValue, skipSpace_append (by rw [skipped]; simp) more, skipped, List.cons_append]
        change (readSequence (readValue depth) ']' (tail ++ more)).bind _ = _
        rw [readSequence_extends ih items_eq more]
        rfl
      · rename_i tail skipped
        obtain ⟨⟨members, behind⟩, members_eq, found⟩ := Option.bind_eq_some_iff.mp found
        obtain ⟨rfl, rfl⟩ := Prod.mk.inj (Option.some.inj found)
        rw [readValue, skipSpace_append (by rw [skipped]; simp) more, skipped, List.cons_append]
        change (readSequence (readMember (readValue depth)) '\x7d' (tail ++ more)).bind _ = _
        rw [readSequence_extends (readMember_extends ih) members_eq more]
        rfl
      · rename_i no_bracket no_brace
        have skipped : skipSpace chars ≠ [] := by
          intro empty
          rw [empty] at found
          cases found
        obtain ⟨char, tail, skipped_eq⟩ := List.exists_cons_of_ne_nil skipped
        rw [readValue, skipSpace_append skipped more]
        rw [skipped_eq, List.cons_append]
        split
        · rename_i same
          exact absurd skipped_eq (by rw [(List.cons.inj same).1]; exact no_bracket tail)
        · rename_i same
          exact absurd skipped_eq (by rw [(List.cons.inj same).1]; exact no_brace tail)
        · rw [skipped_eq] at found
          exact readScalar_extends found left more

/-! ## Fronts of an object's text -/

/-- No proper front of the text of an object is a JSON text. -/
theorem parse_front_eq_none {members : List (String × Json)}
    (fits : (object members).Fits depthLimit) {front : String}
    (isFront : front.toList <+: (object members).toText.toList)
    (proper : front ≠ (object members).toText) : parse front = none := by
  obtain ⟨more, whole⟩ := isFront
  have more_left : more ≠ [] := by
    rintro rfl
    rw [List.append_nil] at whole
    exact proper (String.toList_inj.mp whole)
  have whole_read : readValue depthLimit (front.toList ++ more) = some (object members, []) := by
    have read := @readValue_print _ _ [] fits (by simp [Stops])
    rwa [List.append_nil, ← @String.toList_ofList (print (object members)), ← toText,
      ← whole] at read
  by_contra parsed
  obtain ⟨value, parsed⟩ := Option.ne_none_iff_exists'.mp parsed
  rw [parse] at parsed
  obtain ⟨⟨value, rest⟩, read, -⟩ := Option.bind_eq_some_iff.mp parsed
  -- the text opens with a brace, and the reader of an object needs nothing behind it
  have opened : ∃ tail, skipSpace front.toList = '\x7b' :: tail := by
    cases chars : front.toList with
    | nil =>
        rw [chars] at read
        cases read
    | cons char tail =>
        obtain ⟨body, opens⟩ := toText_object_opens members
        rw [chars, List.cons_append, opens] at whole
        obtain rfl := (List.cons.inj whole).1
        exact ⟨tail, rfl⟩
  obtain ⟨tail, opened⟩ := opened
  have extended : readValue depthLimit (front.toList ++ more) = some (value, rest ++ more) := by
    rw [depthLimit, readValue, opened] at read
    obtain ⟨⟨others, behind⟩, others_eq, read⟩ := Option.bind_eq_some_iff.mp read
    obtain ⟨rfl, rfl⟩ := Prod.mk.inj (Option.some.inj read)
    rw [depthLimit, readValue, skipSpace_append (by rw [opened]; simp) more, opened,
      List.cons_append]
    change (readSequence (readMember (readValue 126)) '\x7d' (tail ++ more)).bind _ = _
    rw [readSequence_extends (readMember_extends (readValue_extends _)) others_eq more]
    rfl
  rw [whole_read] at extended
  obtain ⟨-, nothing⟩ := Prod.mk.inj (Option.some.inj extended)
  exact more_left (List.append_eq_nil_iff.mp nothing.symm).2

/-- A line of an object that was cut before its closing brace holds no JSON text, whatever is
trimmed off its end. -/
theorem parse_torn_line {members : List (String × Json)} (fits : (object members).Fits depthLimit)
    {bytes : List UInt8} (isFront : bytes <+: Utf8.encode ((object members).toText ++ "\n"))
    (short : bytes.length + 1 < (Utf8.encode ((object members).toText ++ "\n")).length)
    {text trimmed : String} (decoded : Utf8.decode bytes = some text)
    (trimmed_front : trimmed.toList <+: text.toList) : parse trimmed = none := by
  have text_front := Utf8.decode_prefix isFront decoded
  have bytes_eq := Utf8.encode_of_decode decoded
  have not_whole : ¬ (object members).toText.toList <+: text.toList := by
    rintro ⟨more, whole⟩
    have lengths := congrArg List.length bytes_eq
    rw [Utf8.encode, ← whole, List.flatMap_append, List.length_append] at lengths
    have newline_length : (Utf8.encode "\n").length = 1 := by decide
    rw [Utf8.encode_append, List.length_append, newline_length, Utf8.encode] at short
    omega
  rw [String.toList_append] at text_front
  have object_front : (object members).toText.toList <+:
      (object members).toText.toList ++ "\n".toList := List.prefix_append _ _
  rcases List.prefix_or_prefix_of_prefix (trimmed_front.trans text_front) object_front with
    within | beyond
  · refine parse_front_eq_none fits within ?_
    rintro rfl
    exact not_whole trimmed_front
  · exact absurd (beyond.trans trimmed_front) not_whole

end Json
