import Mathlib.Data.List.Basic
import Mathlib.Data.List.DropRight
import Mathlib.Data.List.Infix
import Mathlib.Data.List.TakeWhile

/-!
# Splitting and reading text

Splitting at the first occurrences of a separator, and reading unsigned decimal numbers the way
`str::splitn`, `str::split` and `str::parse` do.
-/

namespace Text

/-- The text before and after the first separator. -/
def splitOnce (separator : Char) : List Char → Option (List Char × List Char)
  | [] => none
  | char :: text =>
      if char = separator then some ([], text)
      else (splitOnce separator text).map fun (left, right) => (char :: left, right)

theorem splitOnce_append {separator : Char} {left : List Char} (right : List Char)
    (free : separator ∉ left) : splitOnce separator (left ++ separator :: right) =
      some (left, right) := by
  induction left with
  | nil => simp [splitOnce]
  | cons char left ih =>
      obtain ⟨char_ne, free_left⟩ : separator ≠ char ∧ separator ∉ left := by simpa using free
      simp [splitOnce, Ne.symm char_ne, ih free_left]

theorem splitOnce_eq_none_iff {separator : Char} {text : List Char} :
    splitOnce separator text = none ↔ separator ∉ text := by
  induction text with
  | nil => simp [splitOnce]
  | cons char text ih =>
      by_cases same : char = separator
      · simp [splitOnce, same]
      · simp [splitOnce, same, Ne.symm same, ih]

theorem splitOnce_eq_some {separator : Char} {text left right : List Char}
    (split : splitOnce separator text = some (left, right)) :
    text = left ++ separator :: right ∧ separator ∉ left := by
  induction text generalizing left right with
  | nil => simp [splitOnce] at split
  | cons char text ih =>
      rw [splitOnce] at split
      split at split
      · rename_i char_eq
        obtain ⟨rfl, rfl⟩ := Prod.mk.inj (Option.some.inj split)
        simp [char_eq]
      · rename_i char_ne
        obtain ⟨⟨before, after⟩, rest, same⟩ := Option.map_eq_some_iff.mp split
        obtain ⟨rfl, rfl⟩ := Prod.mk.inj same
        obtain ⟨text_eq, free⟩ := ih rest
        refine ⟨by rw [text_eq]; rfl, ?_⟩
        simp [Ne.symm char_ne, free]

/-- At most `count` pieces; the last one keeps its separators. -/
def splitnChars (separator : Char) : Nat → List Char → List (List Char)
  | 0, _ => []
  | 1, text => [text]
  | count + 2, text =>
      match splitOnce separator text with
      | none => [text]
      | some (left, right) => left :: splitnChars separator (count + 1) right

/-- `str::splitn`. -/
def splitn (count : Nat) (separator : Char) (text : String) : List String :=
  (splitnChars separator count text.toList).map String.ofList

/-- The text before the first separator: the first piece of `str::split`. -/
def firstPiece (separator : Char) (text : String) : String :=
  String.ofList (text.toList.takeWhile (· ≠ separator))

theorem splitn_append {separator : Char} {left : String} (count : Nat) (right : String)
    (free : separator ∉ left.toList) :
    splitn (count + 2) separator (left ++ String.singleton separator ++ right) =
      left :: splitn (count + 1) separator right := by
  have split := splitOnce_append right.toList free
  simp [splitn, splitnChars, split]

theorem splitn_of_free {separator : Char} {text : String} (count : Nat)
    (free : separator ∉ text.toList) : splitn (count + 1) separator text = [text] := by
  cases count with
  | zero => simp [splitn, splitnChars]
  | succ count => simp [splitn, splitnChars, splitOnce_eq_none_iff.mpr free]

theorem firstPiece_append (separator : Char) (left right : String) :
    firstPiece separator (left ++ String.singleton separator ++ right) =
      firstPiece separator left := by
  refine congrArg String.ofList ?_
  rw [String.toList_append, String.toList_append, String.toList_singleton]
  induction left.toList with
  | nil => simp
  | cons char chars ih =>
      by_cases same : char = separator
      · simp [same]
      · simpa [same] using ih

theorem firstPiece_of_free {separator : Char} {text : String} (free : separator ∉ text.toList) :
    firstPiece separator text = text := by
  have keep : ∀ char ∈ text.toList, (char ≠ separator : Bool) = true := by
    intro char member
    simpa using fun same : char = separator => free (same ▸ member)
  rw [firstPiece, List.takeWhile_eq_self_iff.mpr keep, String.ofList_toList]

theorem firstPiece_free (separator : Char) (text : String) :
    separator ∉ (firstPiece separator text).toList := by
  intro member
  rw [firstPiece, String.toList_ofList] at member
  simpa using List.mem_takeWhile_imp member

/-- The pieces before the last one hold no separator, and the first one is `firstPiece`. -/
theorem splitn_three_cons {separator : Char} {text left right : String} {rest : List String}
    (split : splitn 3 separator text = left :: right :: rest) :
    separator ∉ left.toList ∧ separator ∉ right.toList ∧ firstPiece separator text = left := by
  cases outer : splitOnce separator text.toList with
  | none => simp [splitn, splitnChars, outer] at split
  | some halves =>
      obtain ⟨before, after⟩ := halves
      obtain ⟨text_eq, free⟩ := splitOnce_eq_some outer
      have text_eq' : text = String.ofList before ++ String.singleton separator ++
          String.ofList after := String.toList_inj.mp (by simp [text_eq])
      have first : firstPiece separator text = String.ofList before := by
        rw [text_eq', firstPiece_append]
        exact firstPiece_of_free (by simpa using free)
      cases inner : splitOnce separator after with
      | none =>
          obtain ⟨rfl, rfl, -⟩ : String.ofList before = left ∧ String.ofList after = right ∧
              [] = rest := by
            simpa [splitn, splitnChars, outer, inner] using split
          exact ⟨by simpa using free, by simpa using splitOnce_eq_none_iff.mp inner, first⟩
      | some pieces =>
          obtain ⟨middle, last⟩ := pieces
          obtain ⟨-, middle_free⟩ := splitOnce_eq_some inner
          obtain ⟨rfl, rfl, -⟩ : String.ofList before = left ∧ String.ofList middle = right ∧
              [String.ofList last] = rest := by
            simpa [splitn, splitnChars, outer, inner] using split
          exact ⟨by simpa using free, by simpa using middle_free, first⟩

/-- A third piece is the end of the text. -/
theorem exists_append_of_third {separator : Char} {text last : String}
    (third : (splitn 3 separator text)[2]? = some last) : ∃ front, text = front ++ last := by
  cases outer : splitOnce separator text.toList with
  | none => simp [splitn, splitnChars, outer] at third
  | some halves =>
      obtain ⟨before, after⟩ := halves
      obtain ⟨text_eq, -⟩ := splitOnce_eq_some outer
      cases inner : splitOnce separator after with
      | none => simp [splitn, splitnChars, outer, inner] at third
      | some pieces =>
          obtain ⟨middle, rest⟩ := pieces
          obtain ⟨after_eq, -⟩ := splitOnce_eq_some inner
          obtain rfl : String.ofList rest = last := by
            simpa [splitn, splitnChars, outer, inner] using third
          refine ⟨String.ofList (before ++ separator :: middle ++ [separator]), ?_⟩
          exact String.toList_inj.mp (by simp [text_eq, after_eq])

/-- `str::rsplit_once`: the text before and after the last separator. -/
def rsplitOnce (separator : Char) (text : String) : Option (String × String) :=
  (splitOnce separator text.toList.reverse).map fun (back, front) =>
    (String.ofList front.reverse, String.ofList back.reverse)

theorem rsplitOnce_eq_some {separator : Char} {text left right : String}
    (split : rsplitOnce separator text = some (left, right)) :
    text = left ++ String.singleton separator ++ right ∧ separator ∉ right.toList := by
  obtain ⟨⟨back, front⟩, halves, same⟩ := Option.map_eq_some_iff.mp split
  obtain ⟨rfl, rfl⟩ := Prod.mk.inj same
  obtain ⟨reverse_eq, free⟩ := splitOnce_eq_some halves
  refine ⟨String.toList_inj.mp ?_, by simpa using free⟩
  rw [← List.reverse_reverse text.toList, reverse_eq]
  simp

/-- `str::starts_with`. -/
def startsWith (text front : String) : Bool := front.toList.isPrefixOf text.toList

/-- `str::strip_prefix`. -/
def stripPrefix (text front : String) : Option String :=
  if startsWith text front then some (String.ofList (text.toList.drop front.toList.length))
  else none

/-- `str::trim_start_matches` for a character. -/
def trimStart (char : Char) (text : String) : String :=
  String.ofList (text.toList.dropWhile (· = char))

/-- The characters with the Unicode property `White_Space`. -/
def isWhiteSpace (char : Char) : Bool :=
  let code := char.toNat
  (9 ≤ code && code ≤ 13) || code == 0x20 || code == 0x85 || code == 0xA0 || code == 0x1680 ||
    (0x2000 ≤ code && code ≤ 0x200A) || code == 0x2028 || code == 0x2029 || code == 0x202F ||
    code == 0x205F || code == 0x3000

/-- Drop the characters at the end that satisfy a condition. -/
def trimEndWhere (drops : Char → Bool) (text : String) : String :=
  String.ofList (text.toList.rdropWhile drops)

/-- `str::trim_end`. -/
def trimEnd (text : String) : String := trimEndWhere isWhiteSpace text

/-- `str::trim`. -/
def trim (text : String) : String :=
  trimEnd (String.ofList (text.toList.dropWhile isWhiteSpace))

/-- `str::trim_end_matches` for a character. -/
def trimEndMatches (char : Char) (text : String) : String := trimEndWhere (· == char) text

/-- `str::contains` for a text. -/
def contains (text part : String) : Bool := decide (part.toList <:+: text.toList)

theorem startsWith_iff {text front : String} :
    startsWith text front = true ↔ ∃ rest, text = front ++ rest := by
  rw [startsWith, List.isPrefixOf_iff_prefix]
  constructor
  · rintro ⟨rest, text_eq⟩
    exact ⟨String.ofList rest, String.toList_inj.mp (by simp [text_eq])⟩
  · rintro ⟨rest, rfl⟩
    simp

theorem trimEndWhere_drop {drops : Char → Bool} {last : Char} (dropped : drops last = true)
    (text : String) :
    trimEndWhere drops (text ++ String.singleton last) = trimEndWhere drops text := by
  rw [trimEndWhere, trimEndWhere, String.toList_append, String.toList_singleton,
    List.rdropWhile_concat_pos _ _ _ dropped]

theorem trimEndWhere_keep {drops : Char → Bool} {last : Char} (kept : drops last = false)
    {text : String} {front : List Char} (ends : text.toList = front ++ [last]) :
    trimEndWhere drops text = text := by
  rw [trimEndWhere, ends, List.rdropWhile_concat_neg _ _ _ (by simp [kept]), ← ends,
    String.ofList_toList]

/-- Only white space is trimmed. -/
theorem trim_eq (text : String) :
    ∃ front back, (∀ char ∈ front, isWhiteSpace char = true) ∧
      (∀ char ∈ back, isWhiteSpace char = true) ∧
      text.toList = front ++ (trim text).toList ++ back := by
  refine ⟨text.toList.takeWhile isWhiteSpace,
    (text.toList.dropWhile isWhiteSpace).rtakeWhile isWhiteSpace,
    fun char member => List.mem_takeWhile_imp member,
    fun char member => List.mem_rtakeWhile_imp member, ?_⟩
  simp [trim, trimEnd, trimEndWhere, List.rdropWhile_append_rtakeWhile]

theorem mem_of_mem_trim {text : String} {char : Char} (member : char ∈ (trim text).toList) :
    char ∈ text.toList := by
  obtain ⟨front, back, -, -, text_eq⟩ := trim_eq text
  rw [text_eq]
  exact List.mem_append_left _ (List.mem_append_right _ member)

theorem head?_trim (text : String) :
    ∀ char ∈ (trim text).toList.head?, isWhiteSpace char = false := by
  intro char head
  have stops := List.head?_dropWhile_not isWhiteSpace text.toList
  rw [trim, trimEnd, trimEndWhere, String.toList_ofList, String.toList_ofList] at head
  obtain ⟨tail, chars_eq⟩ := List.head?_eq_some_iff.mp head
  have begins : char :: tail <+: text.toList.dropWhile isWhiteSpace :=
    chars_eq ▸ List.rdropWhile_prefix _ _
  obtain ⟨rest, rest_eq⟩ := begins
  rw [← rest_eq] at stops
  exact stops

theorem mem_trim {text : String} {char : Char} (member : char ∈ text.toList)
    (visible : isWhiteSpace char = false) : char ∈ (trim text).toList := by
  obtain ⟨front, back, front_space, back_space, text_eq⟩ := trim_eq text
  rw [text_eq, List.mem_append, List.mem_append] at member
  rcases member with (in_front | inside) | in_back
  · simp [front_space char in_front] at visible
  · exact inside
  · simp [back_space char in_back] at visible

theorem trim_of_visible {text : String}
    (visible : ∀ char ∈ text.toList, isWhiteSpace char = false) : trim text = text := by
  have kept : text.toList.dropWhile isWhiteSpace = text.toList := by
    cases chars_eq : text.toList with
    | nil => rfl
    | cons char chars => simp [visible char (chars_eq ▸ List.mem_cons_self)]
  rw [trim, kept, String.ofList_toList]
  rcases List.eq_nil_or_concat text.toList with empty | ⟨front, last, ends⟩
  · rw [String.toList_eq_nil_iff.mp empty]
    rfl
  · exact trimEndWhere_keep (visible last (by simp [ends])) (by simpa using ends)

theorem rdropWhile_append_of_pos {drops : Char → Bool} {back : List Char}
    (dropped : ∀ char ∈ back, drops char = true) (front : List Char) :
    (front ++ back).rdropWhile drops = front.rdropWhile drops := by
  have dropped_first : ∀ char ∈ back.reverse, drops char = true :=
    fun char member => dropped char (List.mem_reverse.mp member)
  rw [List.rdropWhile, List.reverse_append, List.dropWhile_append_of_pos dropped_first,
    List.rdropWhile]

theorem trim_append_space {space : String}
    (all_space : ∀ char ∈ space.toList, isWhiteSpace char = true) (text : String) :
    trim (text ++ space) = trim text := by
  have none_kept : space.toList.dropWhile isWhiteSpace = [] :=
    List.dropWhile_eq_nil_iff.mpr all_space
  rw [trim, trim, trimEnd, trimEnd, trimEndWhere, trimEndWhere, String.toList_append,
    List.dropWhile_append, none_kept]
  split
  · rename_i blank
    rw [List.isEmpty_iff.mp blank]
  · simp [rdropWhile_append_of_pos all_space]

theorem trim_space_append {space : String}
    (all_space : ∀ char ∈ space.toList, isWhiteSpace char = true) (text : String) :
    trim (space ++ text) = trim text := by
  rw [trim, trim, String.toList_append, List.dropWhile_append_of_pos all_space]

/-- What follows a text that is not blank only adds to the trimmed text. -/
theorem trim_append_of_ne {text : String} (not_blank : trim text ≠ "") (more : String) :
    ∃ rest, (trim (text ++ more)).toList = (trim text).toList ++ rest := by
  have some_kept : (text.toList.dropWhile isWhiteSpace).isEmpty = false := by
    rw [List.isEmpty_eq_false_iff]
    intro none_kept
    exact not_blank (by rw [trim, none_kept]; rfl)
  obtain ⟨kept, back, kept_eq, dropped_eq⟩ :
      ∃ kept back, (text.toList.dropWhile isWhiteSpace).rdropWhile isWhiteSpace = kept ∧
        text.toList.dropWhile isWhiteSpace = kept ++ back :=
    ⟨_, _, rfl, List.rdropWhile_append_rtakeWhile.symm⟩
  have kept_again : kept.rdropWhile isWhiteSpace = kept := by
    rw [← kept_eq, List.rdropWhile_idempotent]
  have trim_text : (trim text).toList = kept := by
    rw [trim, trimEnd, trimEndWhere, String.toList_ofList, String.toList_ofList, kept_eq]
  have trim_both : (trim (text ++ more)).toList =
      (kept ++ (back ++ more.toList)).rdropWhile isWhiteSpace := by
    rw [trim, trimEnd, trimEndWhere, String.toList_ofList, String.toList_ofList,
      String.toList_append, List.dropWhile_append, some_kept, dropped_eq, List.append_assoc]
    rfl
  rw [trim_both, trim_text, List.rdropWhile, List.reverse_append, List.dropWhile_append]
  split
  · refine ⟨[], ?_⟩
    rw [List.append_nil]
    exact kept_again
  · exact ⟨((back ++ more.toList).reverse.dropWhile isWhiteSpace).reverse, by simp⟩

theorem stripPrefix_append (front rest : String) :
    stripPrefix (front ++ rest) front = some rest := by
  rw [stripPrefix, if_pos (startsWith_iff.mpr ⟨rest, rfl⟩)]
  simp

theorem stripPrefix_eq_some_iff {text front rest : String} :
    stripPrefix text front = some rest ↔ text = front ++ rest := by
  constructor
  · intro stripped
    unfold stripPrefix at stripped
    split at stripped
    · rename_i starts
      obtain ⟨more, rfl⟩ := startsWith_iff.mp starts
      have same := (stripPrefix_append front more).symm
      rw [stripPrefix, if_pos starts, stripped] at same
      rw [Option.some.inj same]
    · cases stripped
  · rintro rfl
    exact stripPrefix_append front rest

/-- Read an unsigned decimal number below `bound`, with an optional leading plus sign. -/
def parseUnsigned (bound : Nat) (text : String) : Option Nat :=
  let digits :=
    match text.toList with
    | '+' :: rest => rest
    | chars => chars
  if !digits.isEmpty && digits.all Char.isDigit then
    let value := Nat.ofDigitChars 10 digits 0
    if value < bound then some value else none
  else none

/-- A number is written with digits and at most a sign. -/
theorem isDigit_of_parseUnsigned {bound value : Nat} {text : String}
    (read : parseUnsigned bound text = some value) {char : Char} (member : char ∈ text.toList) :
    char = '+' ∨ char.isDigit = true := by
  simp only [parseUnsigned, Option.ite_none_right_eq_some, Bool.and_eq_true] at read
  have all_digits := read.1.2
  generalize text.toList = chars at all_digits member
  split at all_digits
  · rcases List.mem_cons.mp member with sign | digit
    · exact .inl sign
    · exact .inr (List.all_eq_true.mp all_digits char digit)
  · exact .inr (List.all_eq_true.mp all_digits char member)

/-- Printed numbers are read back. -/
theorem parseUnsigned_repr {bound value : Nat} (small : value < bound) :
    parseUnsigned bound value.repr = some value := by
  have all_digits : ∀ char ∈ Nat.toDigits 10 value, char.isDigit = true :=
    fun char member => Nat.isDigit_of_mem_toDigits (by decide) (by decide) member
  have unsigned : (match Nat.toDigits 10 value with
      | '+' :: rest => rest
      | chars => chars) = Nat.toDigits 10 value := by
    split
    · rename_i rest digits_eq
      have plus_digit := all_digits '+' (digits_eq ▸ List.mem_cons_self)
      simp at plus_digit
    · rfl
  have nonempty : (Nat.toDigits 10 value).isEmpty = false := by
    simp
  simp only [parseUnsigned, Nat.toList_repr, unsigned, nonempty]
  simp [List.all_eq_true.mpr all_digits, Nat.ofDigitChars_toDigits, small]

end Text
