import Pelagos.Library.LineText
import Pelagos.Library.Patterns
import Pelagos.Library.Tokens

/-!
# The table of containers

The shim reads the containers from the table that `pelagos ps` prints.  The header and the message
for an empty table are recognised on every line by the way it begins, with the case ignored, so a
container can have a name that hides it.
-/

namespace Pelagos.DockerShim

open LineText Lines Text

/-- The case mappings of texts.  ASCII is mapped to upper case as usual.  In lower case a space is
mapped to itself and ends every context that the mapping of a character depends on, and no other
character is mapped to a space. -/
structure CaseMaps where
  /-- `char::to_uppercase`. -/
  upper : Char → List Char
  /-- `str::to_lowercase`. -/
  toLowercase : List Char → List Char
  upper_ascii : ∀ char, char.toNat < 128 → upper char = [char.toUpper]
  lower_nil : toLowercase [] = []
  lower_space : ∀ front back,
    toLowercase (front ++ ' ' :: back) = toLowercase front ++ ' ' :: toLowercase back
  lower_free : ∀ text, ' ' ∉ text → ' ' ∉ toLowercase text

/-- `str::to_uppercase`. -/
def CaseMaps.toUppercase (maps : CaseMaps) (chars : List Char) : List Char :=
  chars.flatMap maps.upper

/-- What `parse_pelagos_ps` keeps of a row. -/
structure PsEntry where
  name : String
  status : String
  image : String
  deriving DecidableEq

/-- A line that is not a row: empty, a log line, the header or the message for an empty table. -/
def isSkipped (maps : CaseMaps) (line : List Char) : Bool :=
  line.isEmpty || "[".toList.isPrefixOf line ||
    "NAME".toList.isPrefixOf (maps.toUppercase line) ||
    "no containers".toList.isPrefixOf (maps.toLowercase line)

/-- The entry of a line, if it has one. -/
def parsePsLine (maps : CaseMaps) (line : List Char) : Option PsEntry :=
  if isSkipped maps line then none
  else
    match tokens (String.ofList line) with
    | name :: status :: _ :: image :: _ => some { name, status, image }
    | _ => none

/-- `parse_pelagos_ps`. -/
def parsePelagosPs (maps : CaseMaps) (output : String) : List PsEntry :=
  ((linesOf '\n' output.toList).map chomp).filterMap (parsePsLine maps)

/-! ## The table that is printed -/

/-- A column that is one token. -/
structure Column where
  text : String
  nonempty : text ≠ ""
  visible : ∀ char ∈ text.toList, isWhiteSpace char = false

/-- A container on one line: four columns, the spaces behind the first three of them besides one,
and what follows them. -/
structure PsRow where
  name : Column
  status : Column
  pid : Column
  rootfs : Column
  nameGap : Nat
  statusGap : Nat
  pidGap : Nat
  rest : List Char
  no_log_line : name.text.toList.head? ≠ some '['
  rest_gap : rest = [] ∨ rest.head? = some ' '
  rest_free : '\n' ∉ rest

namespace PsRow

/-- The four columns and what follows them. -/
def lineWith (row : PsRow) (rest : List Char) : List Char :=
  row.name.text.toList ++ ' ' :: (List.replicate row.nameGap ' ' ++
    (row.status.text.toList ++ ' ' :: (List.replicate row.statusGap ' ' ++
      (row.pid.text.toList ++ ' ' :: (List.replicate row.pidGap ' ' ++
        (row.rootfs.text.toList ++ rest))))))

/-- The line without its newline. -/
def line (row : PsRow) : List Char := row.lineWith row.rest

def entry (row : PsRow) : PsEntry :=
  { name := row.name.text, status := row.status.text, image := row.rootfs.text }

/-- The row looks like the header, or like the message for an empty table. -/
def Hidden (maps : CaseMaps) (row : PsRow) : Prop :=
  "NAME".toList <+: maps.toUppercase row.name.text.toList ∨
    (maps.toLowercase row.name.text.toList = "no".toList ∧ row.nameGap = 0 ∧
      "containers".toList <+: maps.toLowercase row.status.text.toList)

instance (maps : CaseMaps) : DecidablePred (Hidden maps) :=
  fun _ => inferInstanceAs (Decidable (_ ∨ _))

end PsRow

/-- The header line, which begins with `NAME`, and one line for each row. -/
def psTable (header : List Char) (rows : List PsRow) : String :=
  String.ofList
    (['N', 'A', 'M', 'E'] ++ header ++ ['\n'] ++ rows.flatMap fun row => row.line ++ ['\n'])

/-! ## Reading a row -/

theorem tokens_chars_space (left right : List Char) :
    tokens (String.ofList (left ++ ' ' :: right)) =
      tokens (String.ofList left) ++ tokens (String.ofList right) := by
  have space : isWhiteSpace ' ' = true := rfl
  have whole : String.ofList (left ++ ' ' :: right) =
      String.ofList left ++ String.singleton ' ' ++ String.ofList right :=
    String.toList_inj.mp (by simp)
  rw [whole, tokens_append_space space]

theorem tokens_replicate_append (count : Nat) (chars : List Char) :
    tokens (String.ofList (List.replicate count ' ' ++ chars)) = tokens (String.ofList chars) := by
  induction count with
  | zero => rw [List.replicate_zero, List.nil_append]
  | succ count ih =>
      rw [List.replicate_succ, List.cons_append, ← ih]
      exact tokens_chars_space [] (List.replicate count ' ' ++ chars)

theorem tokens_column_space (column : Column) (gap : Nat) (chars : List Char) :
    tokens (String.ofList (column.text.toList ++ ' ' :: (List.replicate gap ' ' ++ chars))) =
      column.text :: tokens (String.ofList chars) := by
  rw [tokens_chars_space, tokens_replicate_append, String.ofList_toList,
    tokens_of_visible column.visible column.nonempty, List.singleton_append]

/-- A row has its four columns as the first tokens. -/
theorem tokens_lineWith (row : PsRow) {rest : List Char}
    (rest_gap : rest = [] ∨ rest.head? = some ' ') :
    ∃ more, tokens (String.ofList (row.lineWith rest)) =
      row.name.text :: row.status.text :: row.pid.text :: row.rootfs.text :: more := by
  rw [PsRow.lineWith, tokens_column_space, tokens_column_space, tokens_column_space]
  rcases rest_gap with rfl | starts
  · refine ⟨[], ?_⟩
    rw [List.append_nil, String.ofList_toList,
      tokens_of_visible row.rootfs.visible row.rootfs.nonempty]
  · obtain ⟨rest, rfl⟩ := List.head?_eq_some_iff.mp starts
    exact ⟨tokens (String.ofList rest), by rw [← tokens_column_space row.rootfs 0 rest]; rfl⟩

theorem Column.notMem (column : Column) {char : Char} (white : isWhiteSpace char = true) :
    char ∉ column.text.toList := by
  intro member
  rw [column.visible char member] at white
  cases white

/-- The upper case of a row begins like that of its name. -/
theorem header_prefix_iff (maps : CaseMaps) (row : PsRow) (rest : List Char) :
    "NAME".toList <+: maps.toUppercase (row.lineWith rest) ↔
      "NAME".toList <+: maps.toUppercase row.name.text.toList := by
  have space : maps.upper ' ' = [' '] := maps.upper_ascii ' ' (by decide)
  rw [PsRow.lineWith, CaseMaps.toUppercase, List.flatMap_append, List.flatMap_cons, space]
  exact prefix_append_separator (by decide)

/-- Two texts that are split at their first separators. -/
theorem prefix_split_iff {separator : Char} {front back left right : List Char}
    (front_free : separator ∉ front) (left_free : separator ∉ left) :
    front ++ separator :: back <+: left ++ separator :: right ↔ front = left ∧ back <+: right := by
  induction front generalizing left with
  | nil =>
      cases left with
      | nil => simp
      | cons char left =>
          have other : separator ≠ char := fun same => left_free (by simp [same])
          simp [List.cons_prefix_cons, other]
  | cons char front ih =>
      obtain ⟨char_ne, front_rest⟩ : separator ≠ char ∧ separator ∉ front := by
        simpa using front_free
      cases left with
      | nil => simp [List.cons_prefix_cons, Ne.symm char_ne]
      | cons other left =>
          obtain ⟨-, left_rest⟩ : separator ≠ other ∧ separator ∉ left := by simpa using left_free
          rw [List.cons_append, List.cons_append, List.cons_prefix_cons, ih front_rest left_rest,
            List.cons.injEq, and_assoc]

/-- The lower case of a row begins like the message only if its name is `no`, one space follows and
its status begins like the rest of the message. -/
theorem message_prefix_iff (maps : CaseMaps) (row : PsRow) (rest : List Char) :
    "no containers".toList <+: maps.toLowercase (row.lineWith rest) ↔
      maps.toLowercase row.name.text.toList = "no".toList ∧ row.nameGap = 0 ∧
        "containers".toList <+: maps.toLowercase row.status.text.toList := by
  have message : "no containers".toList = "no".toList ++ ' ' :: "containers".toList := by decide
  rw [PsRow.lineWith, maps.lower_space, message,
    prefix_split_iff (by decide) (maps.lower_free _ (row.name.notMem rfl)), eq_comm]
  refine and_congr_right fun _ => ?_
  cases row.nameGap with
  | zero =>
      rw [List.replicate_zero, List.nil_append, maps.lower_space]
      simp [prefix_append_separator]
  | succ gap =>
      rw [List.replicate_succ, List.cons_append, ← List.nil_append (' ' :: _), maps.lower_space,
        maps.lower_nil]
      simp [List.cons_prefix_cons]

theorem not_log_line (row : PsRow) (rest : List Char) :
    "[".toList.isPrefixOf (row.lineWith rest) = false := by
  have log_line := row.no_log_line
  cases name_eq : row.name.text.toList with
  | nil => exact absurd (String.toList_eq_nil_iff.mp name_eq) row.name.nonempty
  | cons first name =>
      have other : first ≠ '[' := by simpa [name_eq] using log_line
      have bracket : "[".toList = ['['] := by decide
      rw [PsRow.lineWith, name_eq, bracket]
      simp [List.isPrefixOf, Ne.symm other]

/-- A row is skipped when it is hidden and is read otherwise. -/
theorem parsePsLine_lineWith (maps : CaseMaps) (row : PsRow) {rest : List Char}
    (rest_gap : rest = [] ∨ rest.head? = some ' ') :
    parsePsLine maps (row.lineWith rest) = if row.Hidden maps then none else some row.entry := by
  have nonempty : (row.lineWith rest).isEmpty = false := by simp [PsRow.lineWith]
  have skipped : isSkipped maps (row.lineWith rest) = true ↔ row.Hidden maps := by
    rw [isSkipped, nonempty, not_log_line]
    simp only [Bool.false_or, Bool.or_eq_true, List.isPrefixOf_iff_prefix, header_prefix_iff,
      message_prefix_iff, PsRow.Hidden]
  obtain ⟨more, tokens_eq⟩ := tokens_lineWith row rest_gap
  simp only [parsePsLine, skipped, tokens_eq]
  rfl

theorem lineWith_eq (row : PsRow) (rest : List Char) :
    row.lineWith rest = row.lineWith [] ++ rest := by
  simp [PsRow.lineWith]

/-- The last column does not end with white space. -/
theorem getLast?_lineWith_nil (row : PsRow) : (row.lineWith []).getLast? ≠ some '\r' := by
  intro ends
  have nonempty : row.rootfs.text.toList ≠ [] :=
    fun empty => row.rootfs.nonempty (String.toList_eq_nil_iff.mp empty)
  obtain ⟨front, line_eq⟩ : ∃ front, row.lineWith [] = front ++ row.rootfs.text.toList :=
    ⟨row.name.text.toList ++ ' ' :: (List.replicate row.nameGap ' ' ++
      (row.status.text.toList ++ ' ' :: (List.replicate row.statusGap ' ' ++
        (row.pid.text.toList ++ ' ' :: List.replicate row.pidGap ' ')))), by simp [PsRow.lineWith]⟩
  rw [line_eq, List.getLast?_append_of_ne_nil _ nonempty] at ends
  exact row.rootfs.notMem rfl (List.mem_of_getLast? ends)

/-- Without its line ending a row keeps its columns. -/
theorem chomp_row (row : PsRow) :
    ∃ rest, (rest = [] ∨ rest.head? = some ' ') ∧
      chomp (row.line ++ ['\n']) = row.lineWith rest := by
  rw [chomp_newline]
  split
  case isTrue ends =>
    rcases row.rest_gap with empty | starts
    · rw [PsRow.line, empty] at ends
      exact absurd ends (getLast?_lineWith_nil row)
    · obtain ⟨rest, rest_eq⟩ := List.head?_eq_some_iff.mp starts
      refine ⟨(' ' :: rest).dropLast, ?_, ?_⟩
      · cases rest with
        | nil => exact .inl rfl
        | cons char rest => exact .inr rfl
      · rw [PsRow.line, lineWith_eq, rest_eq, List.dropLast_append_of_ne_nil (List.cons_ne_nil _ _),
          ← lineWith_eq]
  case isFalse => exact ⟨row.rest, row.rest_gap, rfl⟩

theorem newline_notMem_line (row : PsRow) : '\n' ∉ row.line := by
  have free (column : Column) : '\n' ∉ column.text.toList := column.notMem rfl
  simp [PsRow.line, PsRow.lineWith, free, row.rest_free]

theorem isLine_row (row : PsRow) : IsLine '\n' (row.line ++ ['\n']) := by
  exact ⟨row.line, rfl, newline_notMem_line row⟩

/-! ## Reading the table -/

theorem isLine_header {header : List Char} (header_free : '\n' ∉ header) :
    IsLine '\n' (['N', 'A', 'M', 'E'] ++ header ++ ['\n']) := by
  refine ⟨['N', 'A', 'M', 'E'] ++ header, rfl, ?_⟩
  simp [header_free]

theorem parsePsLine_header (maps : CaseMaps) (header : List Char) :
    parsePsLine maps (chomp (['N', 'A', 'M', 'E'] ++ header ++ ['\n'])) = none := by
  obtain ⟨more, chomped⟩ : ∃ more, chomp (['N', 'A', 'M', 'E'] ++ header ++ ['\n']) =
      ['N', 'A', 'M', 'E'] ++ more := by
    rw [chomp_newline]
    split
    case isTrue ends =>
      cases header with
      | nil => simp at ends
      | cons char header =>
          exact ⟨(char :: header).dropLast,
            List.dropLast_append_of_ne_nil (List.cons_ne_nil char header)⟩
    case isFalse => exact ⟨header, rfl⟩
  have name : "NAME".toList = ['N', 'A', 'M', 'E'] := by decide
  have upper : maps.toUppercase (['N', 'A', 'M', 'E'] ++ more) =
      ['N', 'A', 'M', 'E'] ++ maps.toUppercase more := by
    simp [CaseMaps.toUppercase, maps.upper_ascii]
  have begins : "NAME".toList.isPrefixOf (maps.toUppercase (['N', 'A', 'M', 'E'] ++ more)) =
      true := by
    rw [upper, name, List.isPrefixOf_iff_prefix]
    exact List.prefix_append _ _
  have skipped : isSkipped maps (['N', 'A', 'M', 'E'] ++ more) = true := by
    simp only [isSkipped, begins, Bool.or_true, Bool.true_or]
  rw [chomped, parsePsLine, if_pos skipped]

/-- The rows are read in order, except for those that are hidden. -/
theorem parsePelagosPs_eq (maps : CaseMaps) {header : List Char} (header_free : '\n' ∉ header)
    (rows : List PsRow) :
    parsePelagosPs maps (psTable header rows) =
      rows.filterMap fun row => if row.Hidden maps then none else some row.entry := by
  have header_line := isLine_header header_free
  have header_skipped := parsePsLine_header maps header
  simp only [parsePelagosPs, psTable, String.toList_ofList]
  rw [linesOf_append header_line, List.map_cons, List.filterMap_cons_none header_skipped]
  induction rows with
  | nil => simp
  | cons row rows ih =>
      obtain ⟨rest, rest_gap, chomped⟩ := chomp_row row
      rw [List.flatMap_cons, linesOf_append (isLine_row row), List.map_cons, List.filterMap_cons,
        ih, List.filterMap_cons, chomped, parsePsLine_lineWith maps row rest_gap]

/-! ## The case of ASCII text -/

theorem eq_space_of_toLower {char : Char} (lowered : char.toLower = ' ') : char = ' ' := by
  delta Char.toLower at lowered
  split at lowered
  case isTrue upper =>
    have low : 65 ≤ char.val.toNat := UInt32.le_iff_toNat_le.mp upper.1
    have high : char.val.toNat ≤ 90 := UInt32.le_iff_toNat_le.mp upper.2
    have value := congrArg (UInt32.toNat ∘ Char.val) lowered
    simp only [Function.comp_apply, UInt32.toNat_add] at value
    change (char.val.toNat + 32) % 2 ^ 32 = 32 at value
    omega
  case isFalse => exact lowered

/-- The mappings of a text of ASCII characters. -/
def asciiCase : CaseMaps where
  upper char := [char.toUpper]
  toLowercase chars := chars.map Char.toLower
  upper_ascii _ _ := rfl
  lower_nil := rfl
  lower_space front back := by simp
  lower_free text free member := by
    obtain ⟨char, inside, lowered⟩ := List.mem_map.mp member
    exact free (eq_space_of_toLower lowered ▸ inside)

/-- A running container with the given name. -/
def runningRow (name : Column) (no_log_line : name.text.toList.head? ≠ some '[') : PsRow where
  name
  status := ⟨"running", by decide, List.forall_iff_forall_mem.mp (by decide)⟩
  pid := ⟨"7", by decide, List.forall_iff_forall_mem.mp (by decide)⟩
  rootfs := ⟨"alpine", by decide, List.forall_iff_forall_mem.mp (by decide)⟩
  nameGap := 3
  statusGap := 3
  pidGap := 3
  rest := []
  no_log_line
  rest_gap := .inl rfl
  rest_free := List.not_mem_nil

/-! ## Rows that are lost -/

/-- The table reads back as its rows exactly when none of them is hidden. -/
theorem parse_ps_table_iff (maps : CaseMaps) (header : List Char) (header_free : '\n' ∉ header)
    (rows : List PsRow) :
    parsePelagosPs maps (psTable header rows) = rows.map PsRow.entry ↔
      ∀ row ∈ rows, ¬row.Hidden maps := by
  rw [parsePelagosPs_eq maps header_free]
  constructor
  · intro same row member hidden
    have lengths := congrArg List.length same
    rw [List.length_map, List.filterMap_length_eq_length] at lengths
    have read := lengths row member
    rw [if_pos hidden] at read
    cases read
  · intro shown
    rw [← List.filterMap_eq_map]
    apply List.filterMap_congr
    intro row member
    rw [if_neg (shown row member)]
    rfl

theorem parse_ps_table_web :
    parsePelagosPs asciiCase (psTable [' '] [runningRow
      ⟨"web", by decide, List.forall_iff_forall_mem.mp (by decide)⟩ (by decide)]) =
        [{ name := "web", status := "running", image := "alpine" }] := by
  refine (parse_ps_table_iff asciiCase [' '] (by decide) [_]).mpr ?_
  intro row member
  obtain rfl := List.mem_singleton.mp member
  decide

/-- A container called `named-db` is missing. -/
theorem named_container_lost :
    parsePelagosPs asciiCase (psTable [' '] [runningRow
      ⟨"named-db", by decide, List.forall_iff_forall_mem.mp (by decide)⟩ (by decide)]) ≠
        [{ name := "named-db", status := "running", image := "alpine" }] := by
  rw [parsePelagosPs_eq asciiCase (by decide)]
  decide

end Pelagos.DockerShim
