import Mathlib.Algebra.Ring.Int.Defs
import Mathlib.Data.List.TakeWhile
import Pelagos.Library.Lines
import Pelagos.Library.Text
import Pelagos.Library.Utf8

/-!
# JSON values and their text

The compact text that `serde_json` writes for a value and the values its reader takes from a text.
The reader accepts any JSON text up to the nesting depth limit; read back, a printed value is the
same value.  The text and a newline make one line of bytes, and a reader that trims the end of the
line of an object gets the text of the object back.
-/

/-- A JSON value.  The members of an object stand in the order of the text. -/
inductive Json where
  | null
  | bool (value : Bool)
  | integer (value : Int)
  /-- A number that is not a 64-bit integer, kept as written. -/
  | decimal (literal : List Char)
  | string (text : String)
  | array (items : List Json)
  | object (members : List (String × Json))

namespace Json

/-! ## Looking into a value -/

/-- The value of a member; of members with one key the last one counts. -/
def get (key : String) : Json → Option Json
  | object members => (members.reverse.find? fun member => member.1 = key).map Prod.snd
  | _ => none

def asStr : Json → Option String
  | string text => some text
  | _ => none

/-- A number that fits in a signed 64-bit integer. -/
def asInt64 : Json → Option Int
  | integer value => if -2 ^ 63 ≤ value ∧ value < 2 ^ 63 then some value else none
  | _ => none

def asArray : Json → Option (List Json)
  | array items => some items
  | _ => none

/-! ## Writing -/

/-- A character inside a string. -/
def escape (char : Char) : List Char :=
  if char = '\x22' then ['\\', '\x22']
  else if char = '\\' then ['\\', '\\']
  else if char = '\x08' then ['\\', 'b']
  else if char = '\x0c' then ['\\', 'f']
  else if char = '\n' then ['\\', 'n']
  else if char = '\r' then ['\\', 'r']
  else if char = '\t' then ['\\', 't']
  else if char.toNat < 32 then
    ['\\', 'u', '0', '0', Nat.digitChar (char.toNat / 16), Nat.digitChar (char.toNat % 16)]
  else [char]

def printString (text : String) : List Char :=
  '\x22' :: text.toList.flatMap escape ++ ['\x22']

def printInteger : Int → List Char
  | .ofNat value => Nat.toDigits 10 value
  | .negSucc value => '-' :: Nat.toDigits 10 (value + 1)

/-- Texts separated by commas. -/
def commaJoin : List (List Char) → List Char
  | [] => []
  | [text] => text
  | text :: next :: texts => text ++ ',' :: commaJoin (next :: texts)

mutual

/-- The compact text of a value. -/
def print : Json → List Char
  | null => ['n', 'u', 'l', 'l']
  | bool true => ['t', 'r', 'u', 'e']
  | bool false => ['f', 'a', 'l', 's', 'e']
  | integer value => printInteger value
  | decimal literal => literal
  | string text => printString text
  | array items => '[' :: commaJoin (printItems items) ++ [']']
  | object members => '\x7b' :: commaJoin (printMembers members) ++ ['\x7d']

def printItems : List Json → List (List Char)
  | [] => []
  | item :: items => print item :: printItems items

def printMembers : List (String × Json) → List (List Char)
  | [] => []
  | (key, value) :: members => (printString key ++ ':' :: print value) :: printMembers members

end

/-! ## Reading -/

/-- Skip white space. -/
def skipSpace (chars : List Char) : List Char :=
  chars.dropWhile fun char => char = ' ' ∨ char = '\n' ∨ char = '\t' ∨ char = '\r'

/-- The value of a hexadecimal digit. -/
def hexValue (char : Char) : Option Nat :=
  if char.isDigit then some (char.toNat - '0'.toNat)
  else if 'a' ≤ char ∧ char ≤ 'f' then some (char.toNat - 'a'.toNat + 10)
  else if 'A' ≤ char ∧ char ≤ 'F' then some (char.toNat - 'A'.toNat + 10)
  else none

/-- The number written in four hexadecimal digits. -/
def hexUnit (a b c d : Char) : Option Nat := do
  return (((← hexValue a) * 16 + (← hexValue b)) * 16 + (← hexValue c)) * 16 + (← hexValue d)

/-- The character of a one-letter escape. -/
def simpleEscape (char : Char) : Option Char :=
  if char = '\x22' ∨ char = '\\' ∨ char = '/' then some char
  else if char = 'b' then some '\x08'
  else if char = 'f' then some '\x0c'
  else if char = 'n' then some '\n'
  else if char = 'r' then some '\r'
  else if char = 't' then some '\t'
  else none

/-- The rest of a string after its opening quote. -/
def readString : List Char → Option (List Char × List Char)
  | '\x22' :: rest => some ([], rest)
  | '\\' :: 'u' :: a :: b :: c :: d :: rest => do
      let unit ← hexUnit a b c d
      if 0xD800 ≤ unit ∧ unit < 0xDC00 then
        -- the first half of a surrogate pair
        match rest with
        | '\\' :: 'u' :: e :: f :: g :: h :: rest =>
            let low ← hexUnit e f g h
            if 0xDC00 ≤ low ∧ low < 0xE000 then
              let (text, rest) ← readString rest
              return (Char.ofNat (0x10000 + (unit - 0xD800) * 0x400 + (low - 0xDC00)) :: text, rest)
            else none
        | _ => none
      else if 0xDC00 ≤ unit ∧ unit < 0xE000 then none
      else
        let (text, rest) ← readString rest
        return (Char.ofNat unit :: text, rest)
  | '\\' :: escaped :: rest => do
      let char ← simpleEscape escaped
      let (text, rest) ← readString rest
      return (char :: text, rest)
  | char :: rest =>
      if char.toNat < 32 ∨ char = '\\' then none
      else do
        let (text, rest) ← readString rest
        return (char :: text, rest)
  | [] => none

/-- The fraction of a number, if it has one. -/
def readFraction : List Char → Option (List Char × List Char)
  | '.' :: rest =>
      let digits := rest.takeWhile Char.isDigit
      if digits = [] then none else some ('.' :: digits, rest.dropWhile Char.isDigit)
  | chars => some ([], chars)

/-- The exponent of a number, if it has one. -/
def readExponent : List Char → Option (List Char × List Char)
  | [] => some ([], [])
  | char :: rest =>
      if char = 'e' ∨ char = 'E' then
        let (sign, unsigned) :=
          match rest with
          | '+' :: rest => (['+'], rest)
          | '-' :: rest => (['-'], rest)
          | _ => ([], rest)
        let digits := unsigned.takeWhile Char.isDigit
        if digits = [] then none
        else some (char :: sign ++ digits, unsigned.dropWhile Char.isDigit)
      else some ([], char :: rest)

/-- The 64-bit integers, signed or unsigned. -/
def InRange (value : Int) : Prop := -2 ^ 63 ≤ value ∧ value < 2 ^ 64

instance (value : Int) : Decidable (InRange value) := inferInstanceAs (Decidable (_ ∧ _))

/-- The number with these digits. -/
def ofDigits (negative : Bool) (digits : List Char) : Int :=
  if negative then -(Nat.ofDigitChars 10 digits 0 : Int) else (Nat.ofDigitChars 10 digits 0 : Int)

/-- A number after its sign. -/
def readUnsigned (negative : Bool) (chars : List Char) : Option (Json × List Char) := do
  let digits := chars.takeWhile Char.isDigit
  if digits = [] ∨ digits.head? = some '0' ∧ 1 < digits.length then none
  else
    let (fraction, rest) ← readFraction (chars.dropWhile Char.isDigit)
    let (exponent, rest) ← readExponent rest
    let value := ofDigits negative digits
    if fraction = [] ∧ exponent = [] ∧ InRange value ∧ ¬(negative ∧ value = 0) then
      return (integer value, rest)
    else
      return (decimal ((if negative then ['-'] else []) ++ digits ++ fraction ++ exponent), rest)

/-- A value that is not an array or an object. -/
def readScalar : List Char → Option (Json × List Char)
  | 'n' :: 'u' :: 'l' :: 'l' :: rest => some (null, rest)
  | 't' :: 'r' :: 'u' :: 'e' :: rest => some (bool true, rest)
  | 'f' :: 'a' :: 'l' :: 's' :: 'e' :: rest => some (bool false, rest)
  | '\x22' :: rest => do
      let (text, rest) ← readString rest
      return (string (String.ofList text), rest)
  | '-' :: rest => readUnsigned true rest
  | chars => readUnsigned false chars

section Sequences

variable {α : Type*}

/-- At least one element, separated by commas, and the closing bracket. -/
def readElements (readElement : List Char → Option (α × List Char)) (close : Char) :
    Nat → List Char → Option (List α × List Char)
  | 0, _ => none
  | fuel + 1, chars => do
      let (element, rest) ← readElement chars
      match skipSpace rest with
      | [] => none
      | char :: rest =>
          if char = ',' then
            let (elements, rest) ← readElements readElement close fuel rest
            return (element :: elements, rest)
          else if char = close then return ([element], rest)
          else none

/-- The elements up to the closing bracket; every element takes a character at least. -/
def readSequence (readElement : List Char → Option (α × List Char)) (close : Char)
    (chars : List Char) : Option (List α × List Char) :=
  match skipSpace chars with
  | [] => none
  | char :: rest =>
      if char = close then some ([], rest)
      else readElements readElement close (rest.length + 1) (char :: rest)

end Sequences

/-- A member of an object. -/
def readMember (readValue : List Char → Option (Json × List Char)) (chars : List Char) :
    Option ((String × Json) × List Char) :=
  match skipSpace chars with
  | '\x22' :: rest => do
      let (key, rest) ← readString rest
      match skipSpace rest with
      | ':' :: rest =>
          let (value, rest) ← readValue rest
          return ((String.ofList key, value), rest)
      | _ => none
  | _ => none

/-- Read a value in which arrays and objects are nested at most `depth` deep. -/
def readValue : Nat → List Char → Option (Json × List Char)
  | 0, chars => readScalar (skipSpace chars)
  | depth + 1, chars =>
      match skipSpace chars with
      | '[' :: rest => do
          let (items, rest) ← readSequence (readValue depth) ']' rest
          return (array items, rest)
      | '\x7b' :: rest => do
          let (members, rest) ← readSequence (readMember (readValue depth)) '\x7d' rest
          return (object members, rest)
      | chars => readScalar chars

/-- The nesting that `serde_json` accepts. -/
def depthLimit : Nat := 127

/-- Read a whole text as one value. -/
def parse (text : String) : Option Json := do
  let (value, rest) ← readValue depthLimit text.toList
  if skipSpace rest = [] then return value else none

/-- The text of a value. -/
def toText (value : Json) : String := String.ofList (print value)

/-! ## A printed value is read back -/

/-- What the reader gives back unchanged: 64-bit integers, no other numbers, and a nesting of at
most `depth`. -/
def Fits : Nat → Json → Prop
  | _, integer value => InRange value
  | _, decimal _ => False
  | 0, array _ => False
  | depth + 1, array items => ∀ item ∈ items, Fits depth item
  | 0, object _ => False
  | depth + 1, object members => ∀ member ∈ members, Fits depth member.2
  | _, _ => True

/-- No number goes on at the front of this text. -/
def Stops (rest : List Char) : Prop :=
  ∀ char ∈ rest.head?, char.isDigit = false ∧ char ≠ '.' ∧ char ≠ 'e' ∧ char ≠ 'E'

theorem stops_cons {char : Char} (rest : List Char)
    (other : char.isDigit = false ∧ char ≠ '.' ∧ char ≠ 'e' ∧ char ≠ 'E') :
    Stops (char :: rest) := by
  intro first is_first
  obtain rfl : char = first := Option.some.inj is_first
  exact other

theorem print_array (items : List Json) :
    print (array items) = '[' :: commaJoin (items.map print) ++ [']'] := by
  have texts : printItems items = items.map print := by
    induction items with
    | nil => rfl
    | cons item items ih => rw [printItems, ih, List.map_cons]
  rw [print, texts]

/-- The text of a member of an object. -/
def printMember (member : String × Json) : List Char :=
  printString member.1 ++ ':' :: print member.2

theorem print_object (members : List (String × Json)) :
    print (object members) = '\x7b' :: commaJoin (members.map printMember) ++ ['\x7d'] := by
  have texts : printMembers members = members.map printMember := by
    induction members with
    | nil => rfl
    | cons member members ih => rw [printMembers, ih, List.map_cons, printMember]
  rw [print, texts]

theorem hexValue_digitChar (value : Nat) (small : value < 16) :
    hexValue (Nat.digitChar value) = some value := by
  have digits : ∀ value < 16, hexValue (Nat.digitChar value) = some value := by decide
  exact digits value small

theorem readString_simple {escaped char : Char} (simple : simpleEscape escaped = some char)
    (rest : List Char) :
    readString ('\\' :: escaped :: rest) =
      (readString rest).map fun (text, rest) => (char :: text, rest) := by
  have not_unit : escaped ≠ 'u' := by
    rintro rfl
    cases simple
  rw [readString.eq_3 _ _ (by simp [not_unit]), simple]
  cases readString rest <;> rfl

theorem readString_control {char : Char} (control : char.toNat < 32) (rest : List Char) :
    readString (['\\', 'u', '0', '0', Nat.digitChar (char.toNat / 16),
        Nat.digitChar (char.toNat % 16)] ++ rest) =
      (readString rest).map fun (text, rest) => (char :: text, rest) := by
  have zero : hexValue '0' = some 0 := rfl
  have high := hexValue_digitChar (char.toNat / 16) (by omega)
  have low := hexValue_digitChar (char.toNat % 16) (by omega)
  have unit : hexUnit '0' '0' (Nat.digitChar (char.toNat / 16))
      (Nat.digitChar (char.toNat % 16)) = some char.toNat := by
    simp only [hexUnit, zero, high, low, bind, Option.bind, pure]
    congr 1
    omega
  have not_high : ¬(0xD800 ≤ char.toNat ∧ char.toNat < 0xDC00) := by omega
  have not_low : ¬(0xDC00 ≤ char.toNat ∧ char.toNat < 0xE000) := by omega
  simp only [List.cons_append, List.nil_append]
  rw [readString, unit]
  simp only [bind, Option.bind_some, if_neg not_high, if_neg not_low, Char.ofNat_toNat]
  cases readString rest <;> rfl

theorem readString_plain {char : Char} (quote : char ≠ '\x22') (backslash : char ≠ '\\')
    (visible : ¬char.toNat < 32) (rest : List Char) :
    readString (char :: rest) = (readString rest).map fun (text, rest) => (char :: text, rest) := by
  rw [readString.eq_4 _ _ (by simp [quote]) (by simp [backslash]) (by simp [backslash]),
    if_neg (by simp [visible, backslash])]
  cases readString rest <;> rfl

theorem readString_escape (char : Char) (rest : List Char) :
    readString (escape char ++ rest) =
      (readString rest).map fun (text, rest) => (char :: text, rest) := by
  unfold escape
  split_ifs with quote backslash backspace formfeed newline carriage tab control
  · exact readString_simple (by rw [quote]; rfl) rest
  · exact readString_simple (by rw [backslash]; rfl) rest
  · exact readString_simple (by rw [backspace]; rfl) rest
  · exact readString_simple (by rw [formfeed]; rfl) rest
  · exact readString_simple (by rw [newline]; rfl) rest
  · exact readString_simple (by rw [carriage]; rfl) rest
  · exact readString_simple (by rw [tab]; rfl) rest
  · exact readString_control control rest
  · exact readString_plain quote backslash control rest

/-- What was printed for a string is read back. -/
theorem readString_print (text rest : List Char) :
    readString (text.flatMap escape ++ '\x22' :: rest) = some (text, rest) := by
  induction text with
  | nil => rfl
  | cons char text ih =>
      rw [List.flatMap_cons, List.append_assoc, readString_escape, ih]
      rfl

theorem isDigit_toDigits {value : Nat} {char : Char} (member : char ∈ Nat.toDigits 10 value) :
    char.isDigit = true :=
  Nat.isDigit_of_mem_toDigits (by decide) (by decide) member

/-- The digits of a number end where the text after it begins. -/
theorem digits_append {rest : List Char} (stops : Stops rest) (value : Nat) :
    (Nat.toDigits 10 value ++ rest).takeWhile Char.isDigit = Nat.toDigits 10 value ∧
      (Nat.toDigits 10 value ++ rest).dropWhile Char.isDigit = rest := by
  have all_digits : ∀ char ∈ Nat.toDigits 10 value, char.isDigit = true :=
    fun _ => isDigit_toDigits
  rw [List.takeWhile_append_of_pos all_digits, List.dropWhile_append_of_pos all_digits]
  cases rest with
  | nil => simp
  | cons char rest =>
      have other := (stops char rfl).1
      simp [other]

theorem readFraction_of_stops {rest : List Char} (stops : Stops rest) :
    readFraction rest = some ([], rest) := by
  cases rest with
  | nil => rfl
  | cons char rest =>
      have other := (stops char rfl).2.1
      exact readFraction.eq_2 _ (by simp [other])

theorem readExponent_of_stops {rest : List Char} (stops : Stops rest) :
    readExponent rest = some ([], rest) := by
  cases rest with
  | nil => rfl
  | cons char rest =>
      obtain ⟨-, -, lower, upper⟩ := stops char rfl
      simp [readExponent, lower, upper]

theorem head_toDigits_ne_zero {value : Nat} (positive : 0 < value) :
    (Nat.toDigits 10 value).head? ≠ some '0' := by
  induction value using Nat.strongRecOn with
  | _ value ih =>
      by_cases small : value < 10
      · rw [Nat.toDigits_of_lt_base small]
        have digits : ∀ value < 10, 0 < value → [Nat.digitChar value].head? ≠ some '0' := by decide
        exact digits value small positive
      · rw [Nat.toDigits_of_base_le (by decide) (by omega), List.head?_append]
        have front := ih (value / 10) (by omega) (by omega)
        cases head_eq : (Nat.toDigits 10 (value / 10)).head? with
        | none => exact absurd (List.head?_eq_none_iff.mp head_eq) Nat.toDigits_ne_nil
        | some char => simpa [head_eq] using front

theorem no_leading_zero (value : Nat) :
    ¬((Nat.toDigits 10 value).head? = some '0' ∧ 1 < (Nat.toDigits 10 value).length) := by
  rintro ⟨zero, long⟩
  rcases Nat.eq_zero_or_pos value with rfl | positive
  · simp [Nat.toDigits_zero] at long
  · exact head_toDigits_ne_zero positive zero

/-- The digits of a number are read back with its sign. -/
theorem readUnsigned_toDigits (negative : Bool) (value : Nat) {rest : List Char}
    (stops : Stops rest) (in_range : InRange (if negative then -(value : Int) else value))
    (signed : negative = true → value ≠ 0) :
    readUnsigned negative (Nat.toDigits 10 value ++ rest) =
      some (integer (if negative then -(value : Int) else value), rest) := by
  have well_formed : ¬(Nat.toDigits 10 value = [] ∨
      (Nat.toDigits 10 value).head? = some '0' ∧ 1 < (Nat.toDigits 10 value).length) := by
    simpa using no_leading_zero value
  have number : ofDigits negative (Nat.toDigits 10 value) =
      if negative then -(value : Int) else value := by
    rw [ofDigits, Nat.ofDigitChars_ten_toDigits]
  obtain ⟨taken, dropped⟩ := digits_append stops value
  simp only [readUnsigned, taken, dropped, if_neg well_formed, readFraction_of_stops stops,
    readExponent_of_stops stops, number, bind, Option.bind, pure]
  rw [if_pos]
  refine ⟨trivial, trivial, in_range, ?_⟩
  rintro ⟨minus, zero⟩
  rw [if_pos minus] at zero
  exact signed minus (by omega)

theorem readScalar_digit {char : Char} (digit : char.isDigit = true) (rest : List Char) :
    readScalar (char :: rest) = readUnsigned false (char :: rest) := by
  have head_ne (other : Char) (not_digit : other.isDigit = false) (tail : List Char) :
      char :: rest ≠ other :: tail := by
    intro same
    obtain ⟨rfl, -⟩ := List.cons.inj same
    simp [not_digit] at digit
  exact readScalar.eq_6 _ (fun _ => head_ne 'n' rfl _) (fun _ => head_ne 't' rfl _)
    (fun _ => head_ne 'f' rfl _) (fun _ => head_ne '\x22' rfl _) (fun _ => head_ne '-' rfl _)

theorem readScalar_printInteger {value : Int} {rest : List Char} (stops : Stops rest)
    (in_range : InRange value) :
    readScalar (printInteger value ++ rest) = some (integer value, rest) := by
  cases value with
  | ofNat value =>
      have read := readUnsigned_toDigits false value stops in_range (by simp)
      cases digits_eq : Nat.toDigits 10 value with
      | nil => exact absurd digits_eq Nat.toDigits_ne_nil
      | cons char digits =>
          have digit : char.isDigit = true := isDigit_toDigits (digits_eq ▸ List.mem_cons_self)
          rw [digits_eq] at read
          rw [printInteger, digits_eq, List.cons_append, readScalar_digit digit]
          exact read
  | negSucc value =>
      have read := readUnsigned_toDigits true (value + 1) stops in_range (by simp)
      rw [printInteger, List.cons_append, readScalar]
      exact read

/-- The text starts with neither white space nor a closing bracket. -/
def Opens (text : List Char) : Prop :=
  ∃ char rest, text = char :: rest ∧ char ∉ [' ', '\n', '\t', '\r', ']', '\x7d']

theorem Opens.append {text : List Char} (opens : Opens text) (rest : List Char) :
    Opens (text ++ rest) := by
  obtain ⟨char, tail, rfl, other⟩ := opens
  exact ⟨char, tail ++ rest, rfl, other⟩

theorem skipSpace_of_opens {text : List Char} (opens : Opens text) : skipSpace text = text := by
  obtain ⟨char, tail, rfl, other⟩ := opens
  simp only [List.mem_cons, not_or] at other
  simp [skipSpace, other]

section Sequences

variable {α : Type*} {readElement : List Char → Option (α × List Char)} {text : α → List Char}

theorem opens_commaJoin {element : α} {elements : List α} (opens : Opens (text element)) :
    Opens (commaJoin ((element :: elements).map text)) := by
  cases elements with
  | nil => exact opens
  | cons next elements => exact opens.append _

theorem length_le_commaJoin {elements : List α}
    (opens : ∀ element ∈ elements, Opens (text element)) :
    elements.length ≤ (commaJoin (elements.map text)).length := by
  induction elements with
  | nil => exact Nat.zero_le _
  | cons element elements ih =>
      obtain ⟨char, tail, text_eq, -⟩ := opens element List.mem_cons_self
      have later := ih fun other member => opens other (List.mem_cons_of_mem _ member)
      cases elements with
      | nil => simp [commaJoin, text_eq]
      | cons next elements =>
          simp only [List.map_cons, commaJoin, text_eq, List.length_cons, List.length_append]
            at later ⊢
          omega

/-- Elements that are read back one by one are read back as a sequence. -/
theorem readElements_commaJoin {close : Char} (bracket : close = ']' ∨ close = '\x7d')
    {elements : List α} (nonempty : elements ≠ [])
    (reads : ∀ element ∈ elements, ∀ rest, Stops rest →
      readElement (text element ++ rest) = some (element, rest))
    {fuel : Nat} (enough : elements.length ≤ fuel) (rest : List Char) :
    readElements readElement close fuel (commaJoin (elements.map text) ++ close :: rest) =
      some (elements, rest) := by
  have closes :
      close ≠ ',' ∧ skipSpace (close :: rest) = close :: rest ∧ Stops (close :: rest) := by
    rcases bracket with rfl | rfl
    · exact ⟨by decide, rfl, stops_cons rest (by decide)⟩
    · exact ⟨by decide, rfl, stops_cons rest (by decide)⟩
  obtain ⟨not_comma, skipped, stops⟩ := closes
  induction elements generalizing fuel with
  | nil => exact absurd rfl nonempty
  | cons element elements ih =>
      cases fuel with
      | zero => simp at enough
      | succ fuel =>
          cases elements with
          | nil =>
              have read := reads element List.mem_cons_self _ stops
              simp [readElements, commaJoin, read, skipped, not_comma]
          | cons next elements =>
              have later := ih (by simp)
                (fun other member => reads other (List.mem_cons_of_mem _ member))
                (by simpa using enough)
              have read := reads element List.mem_cons_self
                (',' :: (commaJoin ((next :: elements).map text) ++ close :: rest))
                (stops_cons _ (by decide))
              simp only [List.map_cons] at read later
              simp [readElements, commaJoin, read, later, skipSpace]

theorem readSequence_commaJoin {close : Char} (bracket : close = ']' ∨ close = '\x7d')
    {elements : List α} (opens : ∀ element ∈ elements, Opens (text element))
    (reads : ∀ element ∈ elements, ∀ rest, Stops rest →
      readElement (text element ++ rest) = some (element, rest)) (rest : List Char) :
    readSequence readElement close (commaJoin (elements.map text) ++ close :: rest) =
      some (elements, rest) := by
  cases elements with
  | nil => rcases bracket with rfl | rfl <;> simp [readSequence, commaJoin, skipSpace]
  | cons element elements =>
      have opens_text : Opens (commaJoin ((element :: elements).map text) ++ close :: rest) :=
        (opens_commaJoin (opens element List.mem_cons_self)).append _
      have short := length_le_commaJoin opens
      have read (fuel : Nat) (enough : (element :: elements).length ≤ fuel) :=
        readElements_commaJoin bracket (List.cons_ne_nil element elements) reads enough rest
      rw [readSequence, skipSpace_of_opens opens_text]
      obtain ⟨char, tail, text_eq, other⟩ := opens_text
      have not_closed : char ≠ close := by
        rintro rfl
        rcases bracket with rfl | rfl <;> simp at other
      rw [text_eq] at read ⊢
      refine (if_neg not_closed).trans (read _ ?_)
      have lengths := congrArg List.length text_eq
      rw [List.length_append, List.length_cons, List.length_cons] at lengths
      omega

end Sequences

theorem printInteger_head (value : Int) :
    ∃ char tail, printInteger value = char :: tail ∧ (char.isDigit = true ∨ char = '-') := by
  cases value with
  | ofNat value =>
      cases digits_eq : Nat.toDigits 10 value with
      | nil => exact absurd digits_eq Nat.toDigits_ne_nil
      | cons char digits =>
          have member : char ∈ Nat.toDigits 10 _ := digits_eq ▸ List.mem_cons_self
          exact ⟨char, digits, digits_eq, Or.inl (isDigit_toDigits member)⟩
  | negSucc value => exact ⟨'-', _, rfl, Or.inr rfl⟩

theorem opens_printInteger (value : Int) : Opens (printInteger value) := by
  obtain ⟨char, tail, text_eq, number⟩ := printInteger_head value
  refine ⟨char, tail, text_eq, fun member => ?_⟩
  simp only [List.mem_cons, List.not_mem_nil, or_false] at member
  rcases member with rfl | rfl | rfl | rfl | rfl | rfl <;> simp at number

theorem opens_print {depth : Nat} {value : Json} (fits : Fits depth value) :
    Opens (print value) := by
  cases value with
  | null => exact ⟨'n', _, rfl, by decide⟩
  | bool value => cases value <;> exact ⟨_, _, rfl, by decide⟩
  | integer value => exact opens_printInteger value
  | decimal literal => cases depth <;> exact fits.elim
  | string text => exact ⟨'\x22', _, rfl, by decide⟩
  | array items => exact ⟨'[', _, rfl, by decide⟩
  | object members => exact ⟨'\x7b', _, rfl, by decide⟩

/-- A printed scalar is read back. -/
theorem readScalar_print {value : Json} {rest : List Char} (fits : Fits 0 value)
    (stops : Stops rest) : readScalar (print value ++ rest) = some (value, rest) := by
  cases value with
  | null => rfl
  | bool value => cases value <;> rfl
  | integer value => exact readScalar_printInteger stops fits
  | decimal literal => exact fits.elim
  | string text =>
      have read := readString_print text.toList rest
      simp [print, printString, readScalar, read]
  | array items => exact fits.elim
  | object members => exact fits.elim

/-- What does not open an array or an object is a scalar. -/
theorem readValue_scalar {depth : Nat} {chars : List Char} (skipped : skipSpace chars = chars)
    (bracket : chars.head? ≠ some '[') (brace : chars.head? ≠ some '\x7b') :
    readValue depth chars = readScalar chars := by
  cases depth with
  | zero => rw [readValue, skipped]
  | succ depth =>
      rw [readValue, skipped]
      split
      · simp at bracket
      · simp at brace
      · rfl

theorem readMember_printMember {readValue : List Char → Option (Json × List Char)}
    {member : String × Json} {rest : List Char}
    (read : readValue (print member.2 ++ rest) = some (member.2, rest)) :
    readMember readValue (printMember member ++ rest) = some (member, rest) := by
  have key := readString_print member.1.toList (':' :: print member.2 ++ rest)
  simp only [List.cons_append] at key
  simp [readMember, printMember, printString, skipSpace, key, read]

/-- A printed value is read back, and what follows it stays. -/
theorem readValue_print {depth : Nat} {value : Json} {rest : List Char} (fits : Fits depth value)
    (stops : Stops rest) : readValue depth (print value ++ rest) = some (value, rest) := by
  induction depth generalizing value rest with
  | zero =>
      rw [readValue, skipSpace_of_opens ((opens_print fits).append rest)]
      exact readScalar_print fits stops
  | succ depth ih =>
      have skipped := skipSpace_of_opens ((opens_print fits).append rest)
      cases value with
      | null => rfl
      | bool value => cases value <;> rfl
      | integer value =>
          obtain ⟨char, tail, text_eq, number⟩ := printInteger_head value
          have read := readScalar_printInteger stops fits
          rw [print] at skipped ⊢
          rw [readValue_scalar skipped, read]
          · rintro same
            obtain rfl : char = '[' := by simpa [text_eq] using same
            simp at number
          · rintro same
            obtain rfl : char = '\x7b' := by simpa [text_eq] using same
            simp at number
      | decimal literal => exact fits.elim
      | string text =>
          rw [readValue_scalar skipped (by simp [print, printString])
            (by simp [print, printString])]
          exact readScalar_print trivial stops
      | array items =>
          have read : readSequence (readValue depth) ']'
              (commaJoin (items.map print) ++ ']' :: rest) = some (items, rest) :=
            readSequence_commaJoin (Or.inl rfl)
              (fun item member => opens_print (fits item member))
              (fun item member rest stops => ih (fits item member) stops) rest
          rw [readValue, skipped, print_array]
          simp [read]
      | object members =>
          have read : readSequence (readMember (readValue depth)) '\x7d'
              (commaJoin (members.map printMember) ++ '\x7d' :: rest) = some (members, rest) :=
            readSequence_commaJoin (Or.inr rfl)
              (fun member _ => ⟨'\x22', _, rfl, by decide⟩)
              (fun member is_member rest stops =>
                readMember_printMember (ih (fits member is_member) stops)) rest
          rw [readValue, skipped, print_object]
          simp [read]

/-- The reader takes the text of a value as that value. -/
theorem parse_toText {value : Json} (fits : Fits depthLimit value) :
    parse (toText value) = some value := by
  have stops : Stops [] := by simp [Stops]
  have read := readValue_print fits stops
  rw [List.append_nil] at read
  rw [parse, toText, String.toList_ofList, read]
  rfl

/-- White space after a value does not matter, such as the end of its line. -/
theorem parse_line {value : Json} (fits : Fits depthLimit value) :
    parse (toText value ++ "\n") = some value := by
  have stops : Stops ['\n'] := stops_cons [] (by decide)
  have read := readValue_print fits stops
  have chars : (toText value ++ "\n").toList = print value ++ ['\n'] := by
    rw [String.toList_append, toText, String.toList_ofList]
    rfl
  rw [parse, chars, read]
  rfl

/-! ## A printed value is one line -/

theorem visible_commaJoin {texts : List (List Char)}
    (visible : ∀ text ∈ texts, ∀ char ∈ text, 32 ≤ char.toNat) :
    ∀ char ∈ commaJoin texts, 32 ≤ char.toNat := by
  induction texts with
  | nil => simp [commaJoin]
  | cons text texts ih =>
      have later := ih fun other member => visible other (List.mem_cons_of_mem _ member)
      have first := visible text List.mem_cons_self
      cases texts with
      | nil => exact first
      | cons next texts =>
          intro char member
          rw [commaJoin] at member
          rcases List.mem_append.mp member with here | there
          · exact first char here
          · rcases List.mem_cons.mp there with rfl | there
            · decide
            · exact later char there

theorem visible_of_all {chars : List Char}
    (all : (chars.all fun char => 32 ≤ char.toNat) = true) : ∀ char ∈ chars, 32 ≤ char.toNat := by
  simpa using all

theorem visible_escape (char : Char) : ∀ other ∈ escape char, 32 ≤ other.toNat := by
  have digits (value : Nat) (small : value < 16) : 32 ≤ (Nat.digitChar value).toNat := by
    have all : ∀ value < 16, 32 ≤ (Nat.digitChar value).toNat := by decide
    exact all value small
  unfold escape
  split_ifs with quote backslash backspace formfeed newline carriage tab control
  · exact visible_of_all (by decide)
  · exact visible_of_all (by decide)
  · exact visible_of_all (by decide)
  · exact visible_of_all (by decide)
  · exact visible_of_all (by decide)
  · exact visible_of_all (by decide)
  · exact visible_of_all (by decide)
  · have high := digits (char.toNat / 16) (by omega)
    have low := digits (char.toNat % 16) (by omega)
    intro other member
    simp only [List.mem_cons, List.not_mem_nil, or_false] at member
    rcases member with rfl | rfl | rfl | rfl | rfl | rfl
    · decide
    · decide
    · decide
    · decide
    · exact high
    · exact low
  · intro other member
    obtain rfl := List.mem_singleton.mp member
    omega

theorem visible_printString (text : String) : ∀ char ∈ printString text, 32 ≤ char.toNat := by
  intro char member
  simp only [printString, List.cons_append, List.mem_cons, List.mem_append, List.mem_flatMap,
    List.not_mem_nil, or_false] at member
  rcases member with rfl | ⟨written, -, escaped⟩ | rfl
  · decide
  · exact visible_escape written char escaped
  · decide

theorem visible_printInteger (value : Int) : ∀ char ∈ printInteger value, 32 ≤ char.toNat := by
  have digits {value : Nat} {char : Char} (member : char ∈ Nat.toDigits 10 value) :
      32 ≤ char.toNat := by
    have digit := isDigit_toDigits member
    simp only [Char.isDigit, Bool.and_eq_true, decide_eq_true_eq] at digit
    exact Nat.le_trans (by decide) digit.1
  intro char member
  cases value with
  | ofNat value => exact digits member
  | negSucc value =>
      rcases List.mem_cons.mp member with rfl | member
      · decide
      · exact digits member

theorem visible_scalar {value : Json} (fits : Fits 0 value) :
    ∀ char ∈ print value, 32 ≤ char.toNat := by
  cases value with
  | null => exact visible_of_all (by decide)
  | bool value =>
      cases value with
      | false => exact visible_of_all (by decide)
      | true => exact visible_of_all (by decide)
  | integer value => exact visible_printInteger value
  | decimal literal => exact fits.elim
  | string text => exact visible_printString text
  | array items => exact fits.elim
  | object members => exact fits.elim

theorem visible_brackets {start close : Char} {texts : List (List Char)}
    (visible_start : 32 ≤ start.toNat) (visible_close : 32 ≤ close.toNat)
    (visible : ∀ text ∈ texts, ∀ char ∈ text, 32 ≤ char.toNat) :
    ∀ char ∈ start :: commaJoin texts ++ [close], 32 ≤ char.toNat := by
  intro char member
  simp only [List.cons_append, List.mem_cons, List.mem_append, List.not_mem_nil, or_false] at member
  rcases member with rfl | member | rfl
  · exact visible_start
  · exact visible_commaJoin visible char member
  · exact visible_close

/-- The text of a value holds no control character, so it is one line. -/
theorem visible_print {depth : Nat} {value : Json} (fits : Fits depth value) :
    ∀ char ∈ print value, 32 ≤ char.toNat := by
  induction depth generalizing value with
  | zero => exact visible_scalar fits
  | succ depth ih =>
      cases value with
      | null => exact visible_scalar trivial
      | bool value => exact visible_scalar fits
      | integer value => exact visible_printInteger value
      | decimal literal => exact fits.elim
      | string text => exact visible_printString text
      | array items =>
          rw [print_array]
          refine visible_brackets (by decide) (by decide) fun text member => ?_
          obtain ⟨item, is_item, rfl⟩ := List.mem_map.mp member
          exact ih (fits item is_item)
      | object members =>
          rw [print_object]
          refine visible_brackets (by decide) (by decide) fun text member char in_text => ?_
          obtain ⟨⟨key, value⟩, is_member, rfl⟩ := List.mem_map.mp member
          rcases List.mem_append.mp in_text with in_key | in_value
          · exact visible_printString key char in_key
          · rcases List.mem_cons.mp in_value with rfl | in_value
            · decide
            · exact ih (fits _ is_member) char in_value

/-! ## Values on lines -/

open Lines

/-- The byte of the newline character. -/
def newline : UInt8 := 10

/-- The text of a value and a newline are one line. -/
theorem isLine_toText {depth : Nat} {value : Json} (fits : value.Fits depth) :
    IsLine newline (Utf8.encode (value.toText ++ "\n")) := by
  refine ⟨Utf8.encode value.toText, by rw [Utf8.encode_append]; rfl, fun member => ?_⟩
  have control : '\n' ∈ value.toText.toList := Utf8.byte_mem_encode (by decide) member
  rw [toText, String.toList_ofList] at control
  have visible := visible_print fits '\n' control
  exact absurd visible (by decide)

theorem toText_object_ends (members : List (String × Json)) :
    ∃ front, (object members).toText.toList = front ++ ['\x7d'] := by
  rw [toText, String.toList_ofList, print_object]
  exact ⟨_, rfl⟩

/-- White space at the end of the line of an object is not part of its text. -/
theorem trimEndWhere_object_line {drops : Char → Bool} (drops_newline : drops '\n' = true)
    (keeps_brace : drops '\x7d' = false) (members : List (String × Json)) :
    Text.trimEndWhere drops ((object members).toText ++ "\n") = (object members).toText := by
  obtain ⟨front, ends⟩ := toText_object_ends members
  calc
    Text.trimEndWhere drops ((object members).toText ++ "\n")
      = Text.trimEndWhere drops (object members).toText := Text.trimEndWhere_drop drops_newline _
    _ = (object members).toText := Text.trimEndWhere_keep keeps_brace ends

theorem toText_object_opens (members : List (String × Json)) :
    ∃ rest, (object members).toText.toList = '\x7b' :: rest := by
  rw [toText, String.toList_ofList, print_object]
  exact ⟨_, rfl⟩

/-- The text of an object is what is left of its line without white space at both ends. -/
theorem trim_object_line (members : List (String × Json)) :
    Text.trim ((object members).toText ++ "\n") = (object members).toText := by
  obtain ⟨rest, opens⟩ := toText_object_opens members
  have visible : ((object members).toText ++ "\n").toList.dropWhile Text.isWhiteSpace =
      ((object members).toText ++ "\n").toList := by
    rw [String.toList_append, opens, List.cons_append, List.dropWhile_cons_of_neg (by decide)]
  rw [Text.trim, visible, String.ofList_toList, Text.trimEnd]
  exact trimEndWhere_object_line (by decide) (by decide) members

theorem toText_object_ne_empty (members : List (String × Json)) : (object members).toText ≠ "" := by
  obtain ⟨front, ends⟩ := toText_object_ends members
  intro empty
  rw [empty] at ends
  simp at ends

end Json
