import Mathlib.Algebra.GroupWithZero.Nat
import Mathlib.Data.List.Basic
import Mathlib.Data.List.Infix

/-!
# IPv6 addresses as text

Eight groups of sixteen bits are written as hexadecimal numbers between colons, with the longest run
of zeros left out, or with the last two groups as an IPv4 address.  What is written is read back.
-/

namespace Ipv6Text

/-! ## Numbers -/

/-- `char::to_digit`, for a radix of at most 16. -/
def toDigit (radix : Nat) (char : Char) : Option Nat :=
  let digit :=
    if '0' ≤ char ∧ char ≤ '9' then some (char.toNat - '0'.toNat)
    else if 'a' ≤ char ∧ char ≤ 'f' then some (char.toNat - 'a'.toNat + 10)
    else if 'A' ≤ char ∧ char ≤ 'F' then some (char.toNat - 'A'.toNat + 10)
    else none
  digit.filter (· < radix)

/-- The digits at the beginning of a text, and what follows them. -/
def readDigits (radix : Nat) : List Char → List Nat × List Char
  | [] => ([], [])
  | char :: text =>
      match toDigit radix char with
      | none => ([], char :: text)
      | some digit =>
          let (digits, rest) := readDigits radix text
          (digit :: digits, rest)

def ofDigits (radix : Nat) (digits : List Nat) : Nat :=
  digits.foldl (fun value digit => value * radix + digit) 0

/-- `read_number`, with the number of values of the type that is read. -/
def readNumber (radix maxDigits : Nat) (allowZeroPrefix : Bool) (values : Nat)
    (text : List Char) : Option (Nat × List Char) :=
  let (digits, rest) := readDigits radix text
  if maxDigits < digits.length ∨ digits = [] then none
  else if allowZeroPrefix = false ∧ digits.head? = some 0 ∧ 1 < digits.length then none
  else if ofDigits radix digits < values then some (ofDigits radix digits, rest)
  else none

/-- `read_separator`. -/
def readSeparator {α : Type} (separator : Char) (index : Nat)
    (inner : List Char → Option (α × List Char)) (text : List Char) : Option (α × List Char) :=
  if index = 0 then inner text
  else
    match text with
    | [] => none
    | char :: text => if char = separator then inner text else none

/-! ## Addresses -/

/-- `read_ipv4_addr`. -/
def readIpv4Addr (text : List Char) : Option ((Nat × Nat × Nat × Nat) × List Char) := do
  let readOctet := readNumber 10 3 false 256
  let (first, text) ← readSeparator '.' 0 readOctet text
  let (second, text) ← readSeparator '.' 1 readOctet text
  let (third, text) ← readSeparator '.' 2 readOctet text
  let (fourth, text) ← readSeparator '.' 3 readOctet text
  return ((first, second, third, fourth), text)

/-- `read_groups` with this many groups left: the groups, whether the last two were read as an IPv4
address, and what follows them. -/
def readGroups : (left index : Nat) → List Char → List Nat × Bool × List Char
  | 0, _, text => ([], false, text)
  | left + 1, index, text =>
      match if left = 0 then none else readSeparator ':' index readIpv4Addr text with
      | some ((first, second, third, fourth), rest) =>
          ([first * 256 + second, third * 256 + fourth], true, rest)
      | none =>
          match readSeparator ':' index (readNumber 16 4 true 65536) text with
          | some (group, rest) =>
              let (groups, ipv4, rest) := readGroups left (index + 1) rest
              (group :: groups, ipv4, rest)
          | none => ([], false, text)

/-- `read_ipv6_addr`. -/
def readIpv6Addr (text : List Char) : Option (List Nat × List Char) :=
  let (head, headIpv4, rest) := readGroups 8 0 text
  if head.length = 8 then some (head, rest)
  else if headIpv4 then none
  else
    match rest with
    | ':' :: ':' :: rest =>
        let (tail, _, rest) := readGroups (8 - (head.length + 1)) 0 rest
        some (head ++ List.replicate (8 - tail.length - head.length) 0 ++ tail, rest)
    | _ => none

/-- `Ipv6Addr::from_str`: the groups of a text that is an address and nothing else. -/
def parse (text : List Char) : Option (List Nat) :=
  match readIpv6Addr text with
  | some (groups, []) => some groups
  | _ => none

/-- A run of groups. -/
structure Span where
  start : Nat := 0
  len : Nat := 0
  deriving DecidableEq

/-- Where the search for the longest run of zeros is. -/
structure SpanSearch where
  index : Nat := 0
  longest : Span := {}
  current : Span := {}

def SpanSearch.next (search : SpanSearch) (group : Nat) : SpanSearch :=
  if group = 0 then
    let current : Span :=
      { start := if search.current.len = 0 then search.index else search.current.start
        len := search.current.len + 1 }
    { index := search.index + 1, current
      longest := if search.longest.len < current.len then current else search.longest }
  else { search with index := search.index + 1, current := {} }

/-- The first one of the longest runs of zeros. -/
def zeroes (groups : List Nat) : Span := (groups.foldl SpanSearch.next {}).longest

/-- `fmt_subslice`. -/
def fmtSubslice : List Nat → List Char
  | [] => []
  | first :: tail =>
      Nat.toDigits 16 first ++ tail.flatMap fun group => ':' :: Nat.toDigits 16 group

def fmtIpv4 (first second third fourth : Nat) : List Char :=
  Nat.toDigits 10 first ++ '.' :: (Nat.toDigits 10 second ++ '.' :: (Nat.toDigits 10 third ++
    '.' :: Nat.toDigits 10 fourth))

/-- The address of an IPv4 address. -/
def IsMapped (groups : List Nat) : Prop := groups.take 6 = [0, 0, 0, 0, 0, 0xffff]

instance : DecidablePred IsMapped := fun _ => inferInstanceAs (Decidable (_ = _))

/-- `impl Display for Ipv6Addr`. -/
def format (groups : List Nat) : List Char :=
  if IsMapped groups then
    let high := groups.getD 6 0
    let low := groups.getD 7 0
    "::ffff:".toList ++ fmtIpv4 (high / 256) (high % 256) (low / 256) (low % 256)
  else
    let zeroes := zeroes groups
    if 1 < zeroes.len then
      fmtSubslice (groups.take zeroes.start) ++ "::".toList ++
        fmtSubslice (groups.drop (zeroes.start + zeroes.len))
    else fmtSubslice groups

/-! ## Numbers are read back -/

theorem toDigit_digitChar {radix digit : Nat} (radix_le : radix ≤ 16) (small : digit < radix) :
    toDigit radix digit.digitChar = some digit := by
  have hexadecimal : ∀ digit < 16, toDigit 16 (Nat.digitChar digit) = some digit := by decide
  have read := hexadecimal digit (by omega)
  rw [toDigit, Option.filter_eq_some_iff] at read ⊢
  exact ⟨read.1, by simpa using small⟩

/-- A text in front of which no number goes on. -/
def EndsNumber (text : List Char) : Prop := ∀ char ∈ text.head?, toDigit 16 char = none

theorem toDigit_eq_none {radix : Nat} (radix_le : radix ≤ 16) {char : Char}
    (ends : toDigit 16 char = none) : toDigit radix char = none := by
  rw [toDigit, Option.filter_eq_none_iff] at ends ⊢
  intro digit found small
  have bounded := ends digit found
  simp only [decide_eq_true_eq] at bounded small
  omega

theorem readDigits_map {radix : Nat} (radix_le : radix ≤ 16) {digits : List Nat}
    (small : ∀ digit ∈ digits, digit < radix) {rest : List Char} (ends : EndsNumber rest) :
    readDigits radix (digits.map Nat.digitChar ++ rest) = (digits, rest) := by
  induction digits with
  | nil =>
      cases rest with
      | nil => rfl
      | cons char rest =>
          have stops := toDigit_eq_none radix_le (ends char rfl)
          simp [readDigits, stops]
  | cons digit digits ih =>
      obtain ⟨first_small, rest_small⟩ := List.forall_mem_cons.mp small
      have first := toDigit_digitChar radix_le first_small
      simp [readDigits, first, ih rest_small]

theorem ofDigits_append (radix : Nat) (digits : List Nat) (last : Nat) :
    ofDigits radix (digits ++ [last]) = ofDigits radix digits * radix + last := by
  rw [ofDigits, List.foldl_concat]
  rfl

/-- The digits of a number: only zero begins with a zero. -/
theorem toDigits_eq_map {radix : Nat} (two_le : 2 ≤ radix) (value : Nat) :
    ∃ digits, Nat.toDigits radix value = digits.map Nat.digitChar ∧
      (∀ digit ∈ digits, digit < radix) ∧ ofDigits radix digits = value ∧
        (0 < value → digits.head? ≠ some 0) ∧ digits ≠ [] := by
  induction value using Nat.strongRecOn with
  | ind value ih =>
      by_cases small : value < radix
      · refine ⟨[value], Nat.toDigits_of_lt_base small, by simpa using small, ?_, ?_, nofun⟩
        · simp [ofDigits]
        · intro positive zero
          have value_eq := Option.some.inj zero
          omega
      · have large : radix ≤ value := Nat.le_of_not_lt small
        have fewer : value / radix < value := Nat.div_lt_self (by omega) (by omega)
        have front_pos : 0 < value / radix := Nat.div_pos large (by omega)
        obtain ⟨front, front_eq, front_small, front_value, front_head, front_ne⟩ :=
          ih (value / radix) fewer
        refine ⟨front ++ [value % radix], ?_, ?_, ?_, ?_, by simp⟩
        · rw [Nat.toDigits_of_base_le (by omega) large, front_eq, List.map_append]
          rfl
        · intro digit member
          rcases List.mem_append.mp member with earlier | last
          · exact front_small digit earlier
          · obtain rfl := List.mem_singleton.mp last
            exact Nat.mod_lt value (by omega)
        · rw [ofDigits_append, front_value, Nat.div_add_mod']
        · intro _
          rw [List.head?_append_of_ne_nil _ front_ne]
          exact front_head front_pos

/-- A number is read back if it is in the range and has as many digits as there may be. -/
theorem readNumber_toDigits {radix maxDigits : Nat} {allowZeroPrefix : Bool} {values value : Nat}
    (two_le : 2 ≤ radix) (radix_le : radix ≤ 16) (in_range : value < values)
    (fits : values ≤ radix ^ maxDigits) (some_digits : 0 < maxDigits) {rest : List Char}
    (ends : EndsNumber rest) :
    readNumber radix maxDigits allowZeroPrefix values (Nat.toDigits radix value ++ rest) =
      some (value, rest) := by
  have few : (Nat.toDigits radix value).length ≤ maxDigits :=
    (Nat.length_toDigits_le_iff (by omega) some_digits).mpr (by omega)
  obtain ⟨digits, text_eq, small, value_eq, head_ne, nonempty⟩ := toDigits_eq_map two_le value
  rw [text_eq, List.length_map] at few
  have no_zero_prefix : ¬(digits.head? = some 0 ∧ 1 < digits.length) := by
    rintro ⟨zero, long⟩
    rcases Nat.eq_zero_or_pos value with rfl | positive
    · rw [Nat.toDigits_zero] at text_eq
      have length_eq := congrArg List.length text_eq
      simp only [List.length_singleton, List.length_map] at length_eq
      omega
    · exact head_ne positive zero
  have some_but_few : ¬(maxDigits < digits.length ∨ digits = []) :=
    not_or.mpr ⟨Nat.not_lt.mpr few, nonempty⟩
  rw [readNumber, text_eq, readDigits_map radix_le small ends]
  simp only [value_eq]
  rw [if_neg some_but_few, if_neg fun found => no_zero_prefix found.2, if_pos in_range]

theorem readDigits_suffix (radix : Nat) (text : List Char) :
    (readDigits radix text).2 <:+ text := by
  induction text with
  | nil => exact List.suffix_refl []
  | cons char text ih =>
      rw [readDigits]
      split
      · exact List.suffix_refl _
      · exact ih.trans (List.suffix_cons char text)

theorem readNumber_suffix {radix maxDigits values value : Nat} {allowZeroPrefix : Bool}
    {text rest : List Char}
    (read : readNumber radix maxDigits allowZeroPrefix values text = some (value, rest)) :
    rest <:+ text := by
  have suffix := readDigits_suffix radix text
  obtain ⟨digits, after, found⟩ : ∃ digits after, readDigits radix text = (digits, after) :=
    ⟨_, _, rfl⟩
  rw [found] at suffix
  simp only [readNumber, found] at read
  split at read
  · cases read
  · split at read
    · cases read
    · split at read
      · obtain ⟨-, rfl⟩ := Prod.mk.inj (Option.some.inj read)
        exact suffix
      · cases read

theorem readNumber_of_head {radix maxDigits values : Nat} {allowZeroPrefix : Bool} {char : Char}
    (text : List Char) (not_digit : toDigit radix char = none) :
    readNumber radix maxDigits allowZeroPrefix values (char :: text) = none := by
  simp [readNumber, readDigits, not_digit]

/-! ## IPv4 addresses -/

theorem readSeparator_of_char {α : Type} {separator : Char} {index : Nat}
    {inner : List Char → Option (α × List Char)} (later : index ≠ 0) (text : List Char) :
    readSeparator separator index inner (separator :: text) = inner text := by
  simp [readSeparator, later]

theorem readIpv4Addr_of_head {char : Char} (text : List Char)
    (not_digit : toDigit 10 char = none) : readIpv4Addr (char :: text) = none := by
  simp [readIpv4Addr, readSeparator, readNumber_of_head text not_digit]

/-- Without a dot there is no IPv4 address. -/
theorem readIpv4Addr_eq_none {text : List Char} (free : '.' ∉ text) :
    readIpv4Addr text = none := by
  rw [readIpv4Addr]
  simp only [readSeparator, if_true, Option.bind_eq_bind]
  cases read : readNumber 10 3 false 256 text with
  | none => rfl
  | some result =>
      obtain ⟨first, rest⟩ := result
      have rest_free : '.' ∉ rest := fun member => free ((readNumber_suffix read).subset member)
      cases rest with
      | nil => rfl
      | cons char rest =>
          have other : char ≠ '.' := fun same => rest_free (by simp [same])
          simp [other]

theorem endsNumber_cons {char : Char} (not_digit : toDigit 16 char = none) (text : List Char) :
    EndsNumber (char :: text) := by
  intro first found
  obtain rfl := Option.some.inj found
  exact not_digit

theorem readOctet_toDigits {octet : Nat} (small : octet < 256) {rest : List Char}
    (ends : EndsNumber rest) :
    readNumber 10 3 false 256 (Nat.toDigits 10 octet ++ rest) = some (octet, rest) :=
  readNumber_toDigits (by decide) (by decide) small (by decide) (by decide) ends

theorem readIpv4Addr_fmtIpv4 {first second third fourth : Nat} (first_small : first < 256)
    (second_small : second < 256) (third_small : third < 256) (fourth_small : fourth < 256) :
    readIpv4Addr (fmtIpv4 first second third fourth) =
      some ((first, second, third, fourth), []) := by
  have dot : toDigit 16 '.' = none := by decide
  have last := @readOctet_toDigits fourth fourth_small [] nofun
  rw [List.append_nil] at last
  rw [readIpv4Addr, fmtIpv4]
  simp only [readSeparator, if_true, Option.bind_eq_bind, Nat.one_ne_zero, if_false,
    Nat.reduceEqDiff, Option.bind_some,
    readOctet_toDigits first_small (endsNumber_cons dot _),
    readOctet_toDigits second_small (endsNumber_cons dot _),
    readOctet_toDigits third_small (endsNumber_cons dot _), last]
  rfl

/-! ## Groups -/

/-- Nothing that could be one more group. -/
def EndsGroups (text : List Char) : Prop := text = [] ∨ ∃ more, text = ':' :: ':' :: more

theorem EndsGroups.endsNumber {text : List Char} (ends : EndsGroups text) : EndsNumber text := by
  rcases ends with rfl | ⟨more, rfl⟩
  · exact nofun
  · exact endsNumber_cons (by decide) _

theorem readGroup_toDigits {group : Nat} (small : group < 65536) {rest : List Char}
    (ends : EndsNumber rest) :
    readNumber 16 4 true 65536 (Nat.toDigits 16 group ++ rest) = some (group, rest) :=
  readNumber_toDigits (by decide) (by decide) small (by decide) (by decide) ends

theorem digitChar_ne_dot {radix value : Nat} (two_le : 2 ≤ radix) (radix_le : radix ≤ 16) :
    '.' ∉ Nat.toDigits radix value := by
  obtain ⟨digits, text_eq, small, -⟩ := toDigits_eq_map two_le value
  rw [text_eq, List.mem_map]
  rintro ⟨digit, member, dot⟩
  have read := toDigit_digitChar radix_le (small digit member)
  have no_digit := @toDigit_eq_none radix radix_le '.' (by decide)
  rw [dot, no_digit] at read
  cases read

/-- No group is read where the groups end. -/
theorem readGroups_ends {left index : Nat} {rest : List Char} (ends : EndsGroups rest)
    (free : '.' ∉ rest) : readGroups left index rest = ([], false, rest) := by
  cases left with
  | zero => rfl
  | succ left =>
      have nothing {α : Type} {inner : List Char → Option (α × List Char)}
          (at_colon : ∀ more, inner (':' :: more) = none) (at_end : inner [] = none) :
          readSeparator ':' index inner rest = none := by
        rcases ends with rfl | ⟨more, rfl⟩
        · by_cases first : index = 0 <;> simp [readSeparator, first, at_end]
        · by_cases first : index = 0 <;> simp [readSeparator, first, at_colon]
      have no_colon : toDigit 16 ':' = none := by decide
      have no_address : readSeparator ':' index readIpv4Addr rest = none :=
        nothing (fun more => readIpv4Addr_of_head more (by decide)) rfl
      have no_group : readSeparator ':' index (readNumber 16 4 true 65536) rest = none :=
        nothing (fun more => readNumber_of_head more no_colon) rfl
      rw [readGroups, no_address, no_group, ite_self]

theorem endsNumber_flatMap {groups : List Nat} {rest : List Char} (ends : EndsGroups rest) :
    EndsNumber ((groups.flatMap fun group => ':' :: Nat.toDigits 16 group) ++ rest) := by
  cases groups with
  | nil => exact ends.endsNumber
  | cons group groups => exact endsNumber_cons (by decide) _

theorem dot_notMem_flatMap (groups : List Nat) :
    '.' ∉ groups.flatMap fun group => ':' :: Nat.toDigits 16 group := by
  rw [List.mem_flatMap]
  rintro ⟨group, -, member⟩
  rcases List.mem_cons.mp member with colon | digit
  · exact absurd colon (by decide)
  · exact digitChar_ne_dot (by decide) (by decide) digit

/-- One group is read and the others after it. -/
theorem readGroups_cons {left index group : Nat} {text rest : List Char} (free : '.' ∉ text)
    (read : readSeparator ':' index (readNumber 16 4 true 65536) text = some (group, rest)) :
    readGroups (left + 1) index text =
      (group :: (readGroups left (index + 1) rest).1, (readGroups left (index + 1) rest).2) := by
  have no_address : readSeparator ':' index readIpv4Addr text = none := by
    unfold readSeparator
    split
    · exact readIpv4Addr_eq_none free
    · split
      · rfl
      · rename_i char text
        split
        · exact readIpv4Addr_eq_none fun member => free (List.mem_cons_of_mem char member)
        · rfl
  rw [readGroups, no_address, read, ite_self]

theorem readGroups_flatMap {groups : List Nat} (small : ∀ group ∈ groups, group < 65536)
    {left index : Nat} (later : index ≠ 0) (room : groups.length ≤ left) {rest : List Char}
    (ends : EndsGroups rest) (free : '.' ∉ rest) :
    readGroups left index ((groups.flatMap fun group => ':' :: Nat.toDigits 16 group) ++ rest) =
      (groups, false, rest) := by
  induction groups generalizing left index with
  | nil => exact readGroups_ends ends free
  | cons group groups ih =>
      obtain ⟨left, rfl⟩ : ∃ more, left = more + 1 :=
        Nat.exists_eq_add_of_lt (Nat.lt_of_lt_of_le (Nat.succ_pos _) room) |>.imp (by simp)
      obtain ⟨group_small, groups_small⟩ := List.forall_mem_cons.mp small
      have whole_free := mt List.mem_append.mp
        (not_or.mpr ⟨dot_notMem_flatMap (group :: groups), free⟩)
      have read := readGroup_toDigits group_small (@endsNumber_flatMap groups rest ends)
      have first : readSeparator ':' index (readNumber 16 4 true 65536)
          (((group :: groups).flatMap fun group => ':' :: Nat.toDigits 16 group) ++ rest) =
            some (group, (groups.flatMap fun group => ':' :: Nat.toDigits 16 group) ++ rest) := by
        rw [List.flatMap_cons, List.cons_append, List.cons_append, List.append_assoc,
          readSeparator_of_char later, read]
      rw [readGroups_cons whole_free first, ih groups_small (Nat.succ_ne_zero index)]
      simpa using room

theorem dot_notMem_fmtSubslice (groups : List Nat) : '.' ∉ fmtSubslice groups := by
  cases groups with
  | nil => exact List.not_mem_nil
  | cons first tail =>
      rw [fmtSubslice, List.mem_append, not_or]
      exact ⟨digitChar_ne_dot (by decide) (by decide), dot_notMem_flatMap tail⟩

theorem readGroups_fmtSubslice {groups : List Nat} (small : ∀ group ∈ groups, group < 65536)
    {left : Nat} (room : groups.length ≤ left) {rest : List Char} (ends : EndsGroups rest)
    (free : '.' ∉ rest) :
    readGroups left 0 (fmtSubslice groups ++ rest) = (groups, false, rest) := by
  cases groups with
  | nil => exact readGroups_ends ends free
  | cons first tail =>
      obtain ⟨left, rfl⟩ : ∃ more, left = more + 1 :=
        Nat.exists_eq_add_of_lt (Nat.lt_of_lt_of_le (Nat.succ_pos _) room) |>.imp (by simp)
      obtain ⟨first_small, tail_small⟩ := List.forall_mem_cons.mp small
      have whole_free := mt List.mem_append.mp
        (not_or.mpr ⟨dot_notMem_fmtSubslice (first :: tail), free⟩)
      have read := readGroup_toDigits first_small (@endsNumber_flatMap tail rest ends)
      have group : readSeparator ':' 0 (readNumber 16 4 true 65536)
          (fmtSubslice (first :: tail) ++ rest) =
            some (first, (tail.flatMap fun group => ':' :: Nat.toDigits 16 group) ++ rest) := by
        unfold readSeparator
        rw [if_pos rfl, fmtSubslice, List.append_assoc, read]
      rw [readGroups_cons whole_free group,
        readGroups_flatMap tail_small (by decide) (by simpa using room) ends free]

/-! ## Runs of zeros -/

/-- The span is a run of zeros of the groups. -/
def Span.IsZero (groups : List Nat) (span : Span) : Prop :=
  ∃ front back, groups = front ++ List.replicate span.len 0 ++ back ∧
    (span.len ≠ 0 → front.length = span.start)

/-- The longest run is one of zeros, and the current one is at the end. -/
structure SpanSearch.Valid (groups : List Nat) (search : SpanSearch) : Prop where
  index : search.index = groups.length
  longest : search.longest.IsZero groups
  current : ∃ front, groups = front ++ List.replicate search.current.len 0 ∧
    (search.current.len ≠ 0 → front.length = search.current.start)

theorem Span.IsZero.append {groups : List Nat} {span : Span} (isZero : span.IsZero groups)
    (group : Nat) : span.IsZero (groups ++ [group]) := by
  obtain ⟨front, back, split, start⟩ := isZero
  exact ⟨front, back ++ [group], by rw [split, List.append_assoc], start⟩

theorem SpanSearch.Valid.next {groups : List Nat} {search : SpanSearch}
    (valid : search.Valid groups) (group : Nat) :
    (search.next group).Valid (groups ++ [group]) := by
  rw [SpanSearch.next]
  split
  case isTrue zero =>
    obtain ⟨front, split, start⟩ := valid.current
    have longer : ∃ before, groups ++ [group] =
        before ++ List.replicate (search.current.len + 1) 0 ∧
          before.length =
            if search.current.len = 0 then search.index else search.current.start := by
      refine ⟨front, ?_, ?_⟩
      · rw [List.replicate_succ', ← List.append_assoc, ← split, zero]
      · split
        case isTrue none_yet =>
          rw [valid.index, split, none_yet]
          simp
        case isFalse some_yet => exact start some_yet
    obtain ⟨before, whole, before_start⟩ := longer
    refine ⟨by simp [valid.index], ?_, before, whole, fun _ => before_start⟩
    dsimp only
    split
    · exact ⟨before, [], by rw [whole, List.append_nil], fun _ => before_start⟩
    · exact valid.longest.append group
  case isFalse =>
    exact ⟨by simp [valid.index], valid.longest.append group, groups ++ [group], by simp, nofun⟩

theorem valid_search (groups : List Nat) : (groups.foldl SpanSearch.next {}).Valid groups := by
  induction groups using List.reverseRecOn with
  | nil => exact ⟨rfl, ⟨[], [], rfl, nofun⟩, [], rfl, nofun⟩
  | append_singleton groups group ih =>
      rw [List.foldl_concat]
      exact ih.next group

/-- The groups without their longest run of zeros. -/
theorem split_zeroes {groups : List Nat} (some_zeroes : (zeroes groups).len ≠ 0) :
    groups = groups.take (zeroes groups).start ++ List.replicate (zeroes groups).len 0 ++
        groups.drop ((zeroes groups).start + (zeroes groups).len) ∧
      (groups.take (zeroes groups).start).length = (zeroes groups).start := by
  obtain ⟨front, back, split, start⟩ := (valid_search groups).longest
  change groups = front ++ List.replicate (zeroes groups).len 0 ++ back at split
  have front_length : front.length = (zeroes groups).start := start some_zeroes
  generalize zeroes groups = span at *
  have taken : groups.take span.start = front := by
    rw [split, List.append_assoc, ← front_length, List.take_left]
  have dropped : groups.drop (span.start + span.len) = back := by
    rw [split, ← front_length]
    exact List.drop_left' (by simp)
  rw [taken, dropped]
  exact ⟨split, front_length⟩

/-! ## Addresses are read back -/

theorem readIpv6Addr_mapped {high low : Nat} (high_small : high < 65536)
    (low_small : low < 65536) : readIpv6Addr ("::ffff:".toList ++
        fmtIpv4 (high / 256) (high % 256) (low / 256) (low % 256)) =
      some ([0, 0, 0, 0, 0, 0xffff, high, low], []) := by
  have octet_small (group : Nat) : group % 256 < 256 := Nat.mod_lt group (by decide)
  have high_octet : high / 256 < 256 := by omega
  have low_octet : low / 256 < 256 := by omega
  have address := readIpv4Addr_fmtIpv4 high_octet (octet_small high) low_octet (octet_small low)
  generalize fmtIpv4 (high / 256) (high % 256) (low / 256) (low % 256) = text at address ⊢
  have colons : "::ffff:".toList ++ text =
      ':' :: ':' :: (Nat.toDigits 16 0xffff ++ ':' :: text) := by
    have digits : Nat.toDigits 16 0xffff = ['f', 'f', 'f', 'f'] := by decide
    rw [digits]
    rfl
  have start : readGroups 8 0 (':' :: ':' :: (Nat.toDigits 16 0xffff ++ ':' :: text)) =
      ([], false, ':' :: ':' :: (Nat.toDigits 16 0xffff ++ ':' :: text)) := by
    generalize ':' :: (Nat.toDigits 16 0xffff ++ ':' :: text) = after
    have no_address : readIpv4Addr (':' :: after) = none := readIpv4Addr_of_head after (by decide)
    have no_group : readNumber 16 4 true 65536 (':' :: after) = none :=
      readNumber_of_head after (by decide)
    simp [readGroups, readSeparator, no_address, no_group]
  have rest : readGroups 7 0 (Nat.toDigits 16 0xffff ++ ':' :: text) =
      ([0xffff, high, low], true, []) := by
    have no_address : readIpv4Addr (Nat.toDigits 16 0xffff ++ ':' :: text) = none :=
      @readIpv4Addr_of_head 'f' _ (by decide)
    have group := @readGroup_toDigits 0xffff (by decide) (':' :: text)
      (endsNumber_cons (by decide) text)
    have later : readGroups 6 1 (':' :: text) = ([high, low], true, []) := by
      have high_eq : high / 256 * 256 + high % 256 = high := Nat.div_add_mod' high 256
      have low_eq : low / 256 * 256 + low % 256 = low := Nat.div_add_mod' low 256
      simp [readGroups, readSeparator, address, high_eq, low_eq]
    rw [readGroups]
    simp [readSeparator, no_address, group, later]
  rw [colons, readIpv6Addr, start]
  simp [rest]

/-- What is written for eight groups is read as these. -/
theorem parse_format {groups : List Nat} (eight : groups.length = 8)
    (small : ∀ group ∈ groups, group < 65536) : parse (format groups) = some groups := by
  by_cases mapped : IsMapped groups
  · obtain ⟨high, low, pair⟩ : ∃ high low, groups.drop 6 = [high, low] :=
      List.length_eq_two.mp (by simp [eight])
    have groups_eq : groups = [0, 0, 0, 0, 0, 0xffff, high, low] := by
      rw [← List.take_append_drop 6 groups, pair, mapped]
      rfl
    have read := @readIpv6Addr_mapped high low (small high (by simp [groups_eq]))
      (small low (by simp [groups_eq]))
    have high_eq : groups.getD 6 0 = high := by rw [groups_eq]; rfl
    have low_eq : groups.getD 7 0 = low := by rw [groups_eq]; rfl
    rw [format, if_pos mapped, high_eq, low_eq]
    dsimp only
    rw [parse, read, groups_eq]
  · rw [format, if_neg mapped]
    dsimp only
    split
    case isTrue several =>
      obtain ⟨split, start⟩ := split_zeroes (show (zeroes groups).len ≠ 0 by omega)
      generalize zeroes groups = span at *
      have front_small : ∀ group ∈ groups.take span.start, group < 65536 :=
        fun group member => small group (List.mem_of_mem_take member)
      have back_small : ∀ group ∈ groups.drop (span.start + span.len), group < 65536 :=
        fun group member => small group (List.mem_of_mem_drop member)
      have lengths := congrArg List.length split
      generalize groups.take span.start = front at *
      generalize groups.drop (span.start + span.len) = back at *
      simp only [List.length_append, List.length_replicate, eight] at lengths
      have head_eq := @readGroups_fmtSubslice front front_small 8 (by omega)
        ("::".toList ++ fmtSubslice back) (.inr ⟨fmtSubslice back, rfl⟩)
        (by simp [dot_notMem_fmtSubslice])
      have tail_eq := @readGroups_fmtSubslice back back_small (8 - (front.length + 1)) (by omega)
        [] (.inl rfl) List.not_mem_nil
      rw [List.append_nil] at tail_eq
      have colons : "::".toList ++ fmtSubslice back = ':' :: ':' :: fmtSubslice back := rfl
      rw [colons] at head_eq
      rw [List.append_assoc, colons, parse, readIpv6Addr, head_eq]
      have fewer : front.length ≠ 8 := by omega
      have zeros : 8 - back.length - front.length = span.len := by omega
      simp only [if_neg fewer, tail_eq, zeros, Bool.false_eq_true, if_false]
      rw [← split]
    case isFalse =>
      have read := @readGroups_fmtSubslice groups small 8 (by omega) [] (.inl rfl)
        List.not_mem_nil
      rw [List.append_nil] at read
      rw [parse, readIpv6Addr, read]
      simp [eight]

example : parse "2001:db8::ff00:42:8329".toList =
    some [0x2001, 0xdb8, 0, 0, 0, 0xff00, 0x42, 0x8329] := by decide

/-! ## The characters of an address -/

/-- The characters that addresses are written with. -/
def addressChars : List Char := "0123456789abcdef:.".toList

theorem toDigits_subset {radix : Nat} (two_le : 2 ≤ radix) (radix_le : radix ≤ 16) (value : Nat) :
    Nat.toDigits radix value ⊆ addressChars := by
  have hexadecimal : ∀ digit < 16, Nat.digitChar digit ∈ addressChars := by decide
  obtain ⟨digits, text_eq, small, -⟩ := toDigits_eq_map two_le value
  intro char member
  rw [text_eq] at member
  obtain ⟨digit, listed, rfl⟩ := List.mem_map.mp member
  exact hexadecimal digit (Nat.lt_of_lt_of_le (small digit listed) radix_le)

theorem fmtSubslice_subset (groups : List Nat) : fmtSubslice groups ⊆ addressChars := by
  have digits (group : Nat) : Nat.toDigits 16 group ⊆ addressChars :=
    toDigits_subset (by decide) (by decide) group
  cases groups with
  | nil => exact List.nil_subset _
  | cons first tail =>
      refine List.append_subset.mpr ⟨digits first, fun char member => ?_⟩
      obtain ⟨group, -, inside⟩ := List.mem_flatMap.mp member
      rcases List.mem_cons.mp inside with rfl | digit
      · decide
      · exact digits group digit

theorem fmtIpv4_subset (first second third fourth : Nat) :
    fmtIpv4 first second third fourth ⊆ addressChars := by
  have digits (octet : Nat) : Nat.toDigits 10 octet ⊆ addressChars :=
    toDigits_subset (by decide) (by decide) octet
  have dot : '.' ∈ addressChars := by decide
  simp [fmtIpv4, List.append_subset, List.cons_subset, digits, dot]

theorem format_subset (groups : List Nat) : format groups ⊆ addressChars := by
  have colons : "::".toList ⊆ addressChars := by decide
  have mapped : "::ffff:".toList ⊆ addressChars := by decide
  unfold format
  split
  · exact List.append_subset.mpr ⟨mapped, fmtIpv4_subset ..⟩
  · dsimp only
    split
    · exact List.append_subset.mpr
        ⟨List.append_subset.mpr ⟨fmtSubslice_subset _, colons⟩, fmtSubslice_subset _⟩
    · exact fmtSubslice_subset groups

end Ipv6Text
