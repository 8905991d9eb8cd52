import Pelagos.Library.ShellFields

/-!
# The init script of the VM

`/init` reads the time and the tags of the shares from the kernel's command line, sets the clock and
mounts the shares.  A command that fails is only reported.
-/

namespace Pelagos.Guest

open ShellFields

/-- A command of `/init`. -/
inductive InitCommand where
  /-- `date -s`. -/
  | setDate (utc : String)
  /-- `mkdir -p`. -/
  | makeDir (path : String)
  /-- `mount -t virtiofs`. -/
  | mountVirtiofs (tag path : String)
  deriving DecidableEq

/-- A line break behind `tr ' ' '\n'`. -/
def isBreak (char : Char) : Bool := char == ' ' || char == '\n'

/-- The lines behind `tr ' ' '\n'`. -/
def parameterLines (cmdline : String) : List String :=
  (cmdline.toList.splitOnP isBreak).map String.ofList

/-- `grep '^clock\.utc='`, `head -1` and `cut -d= -f2`. -/
def clockParameter (cmdline : String) : String :=
  ((parameterLines cmdline).findSome? (Text.stripPrefix · "clock.utc=")).elim ""
    (Text.firstPiece '=')

/-- Set the clock, if there is a time; `date` wants a space for the `T`. -/
def clockCommands (utc : String) : List InitCommand :=
  if utc = "" then []
  else [.setDate (String.ofList (utc.toList.map fun char => if char = 'T' then ' ' else char))]

/-- The tags in the order in which the loops meet them. -/
def tagParameters (expand : String → List String) (cmdline : String) : List String :=
  ((words cmdline).flatMap expand).flatMap fun kv =>
    match Text.stripPrefix kv "virtiofs.tags=" with
    | none => []
    | some tags => (fieldsAt ',' tags).flatMap expand

/-- The share of the named volumes is mounted last and elsewhere. -/
def shareCommands (tags : List String) : List InitCommand :=
  (tags.flatMap fun tag =>
    if tag = "pelagos-volumes" then []
    else [.makeDir ("/mnt/" ++ tag), .mountVirtiofs tag ("/mnt/" ++ tag)]) ++
  [.makeDir "/var/lib/pelagos"] ++
  if "pelagos-volumes" ∈ tags then
    [.makeDir "/var/lib/pelagos/volumes",
      .mountVirtiofs "pelagos-volumes" "/var/lib/pelagos/volumes"]
  else []

/-- The part of `/init` that depends on the command line, with what pathname expansion makes of a
word in the root directory. -/
def init (expand : String → List String) (procCmdline : String) : List InitCommand :=
  clockCommands (clockParameter procCmdline) ++ shareCommands (tagParameters expand procCmdline)

theorem parameterLines_append {char : Char} (is_break : isBreak char = true)
    (left right : String) :
    parameterLines (left ++ String.singleton char ++ right) =
      parameterLines left ++ parameterLines right := by
  simp [parameterLines, List.splitOnP_append_cons _ _ is_break]

theorem parameterLines_of_free {text : String} (free : ∀ char ∈ text.toList, isBreak char = false) :
    parameterLines text = [text] := by
  simp [parameterLines, List.splitOnP_eq_singleton free]

/-- A line with a time is part of the command line. -/
theorem no_clock_of_not_contains {cmdline : String}
    (no_clock : Text.contains cmdline "clock.utc=" = false) :
    ∀ line ∈ parameterLines cmdline, Text.stripPrefix line "clock.utc=" = none := by
  intro line member
  obtain ⟨piece, piece_mem, rfl⟩ := List.mem_map.mp member
  rw [Text.stripPrefix, if_neg]
  intro starts
  have piece_eq : (String.ofList piece).toList = piece := String.toList_ofList
  rw [Text.startsWith, List.isPrefixOf_iff_prefix, piece_eq] at starts
  have contained : Text.contains cmdline "clock.utc=" = true :=
    decide_eq_true (starts.isInfix.trans (infix_of_mem_splitOnP piece_mem))
  rw [no_clock] at contained
  exact Bool.false_ne_true contained

/-- Without a time in front, the next parameters decide. -/
theorem clockParameter_append {char : Char} (is_break : isBreak char = true) {left : String}
    (no_clock : ∀ line ∈ parameterLines left, Text.stripPrefix line "clock.utc=" = none)
    (right : String) :
    clockParameter (left ++ String.singleton char ++ right) = clockParameter right := by
  rw [clockParameter, parameterLines_append is_break, List.findSome?_append,
    List.findSome?_eq_none_iff.mpr no_clock, Option.none_or]
  rfl

/-- A time without further signs is read as it is. -/
theorem clockParameter_time {char : Char} (is_break : isBreak char = true) {time : String}
    (unbroken : ∀ char ∈ ("clock.utc=" ++ time).toList, isBreak char = false)
    (no_equals : '=' ∉ time.toList) (right : String) :
    clockParameter ("clock.utc=" ++ time ++ String.singleton char ++ right) = time := by
  have read : (parameterLines ("clock.utc=" ++ time ++ String.singleton char ++ right)).findSome?
      (Text.stripPrefix · "clock.utc=") = some time := by
    rw [parameterLines_append is_break, parameterLines_of_free unbroken, List.singleton_append,
      List.findSome?_cons, Text.stripPrefix_append]
  rw [clockParameter, read, Option.elim_some, Text.firstPiece_of_free no_equals]

/-- A word that is not a list of tags adds none. -/
theorem tagParameters_append {expand : String → List String} {blank : Char}
    (is_blank : isBlank blank = true) (left right : String) :
    tagParameters expand (left ++ String.singleton blank ++ right) =
      tagParameters expand left ++ tagParameters expand right := by
  rw [tagParameters, words_append_blank is_blank, List.flatMap_append, List.flatMap_append]
  rfl

theorem tagParameters_of_literal {expand : String → List String} (keeps : KeepsLiterals expand)
    {word : String} (visible : ∀ char ∈ word.toList, isBlank char = false) (nonempty : word ≠ "")
    (literal : IsLiteral word) :
    tagParameters expand word =
      match Text.stripPrefix word "virtiofs.tags=" with
      | none => []
      | some tags => (fieldsAt ',' tags).flatMap expand := by
  rw [tagParameters, words_of_visible visible nonempty, List.flatMap_singleton, keeps word literal,
    List.flatMap_singleton]

end Pelagos.Guest
