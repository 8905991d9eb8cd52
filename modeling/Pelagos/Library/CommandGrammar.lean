import Pelagos.Library.Text

/-!
# Command-line grammars

A grammar declares global flags and subcommands with flags of their own.  A word that begins with a
hyphen is a flag wherever a flag may stand, and the value of a flag does not begin with a hyphen.
The arguments behind the named operands of a subcommand that takes trailing ones are left out; the
flags that `clap` still reads there, up to the first trailing word, are not judged.
-/

namespace CommandGrammar

structure Flag where
  short : Option Char := none
  long : Option String := none
  takesValue : Bool
  /-- The flag may also stand behind the subcommand. -/
  everywhere : Bool := false
  deriving DecidableEq

structure Command where
  name : String
  flags : List Flag
  /-- Named operands that have to be given. -/
  required : Nat
  /-- Named operands that may be given. -/
  operands : Nat
  trailing : Bool
  deriving DecidableEq

structure Grammar where
  flags : List Flag
  commands : List Command

/-- How a word reads where a flag may stand. -/
inductive WordKind where
  | operand
  /-- Flags that are complete with this word. -/
  | complete
  /-- A flag whose value is the next word. -/
  | awaiting
  | unknown
  deriving DecidableEq

/-- A word behind two hyphens. -/
def readLong (flags : List Flag) (chars : List Char) : WordKind :=
  match Text.splitOnce '=' chars with
  | some (name, _) =>
      match flags.find? fun flag => flag.long = some (String.ofList name) with
      | some flag => if flag.takesValue then .complete else .unknown
      | none => .unknown
  | none =>
      match flags.find? fun flag => flag.long = some (String.ofList chars) with
      | some flag => if flag.takesValue then .awaiting else .complete
      | none => .unknown

/-- A word behind one hyphen: switches, and at last perhaps a flag with its value. -/
def readShort (flags : List Flag) : List Char → WordKind
  | [] => .complete
  | char :: rest =>
      match flags.find? fun flag => flag.short = some char with
      | some flag =>
          if flag.takesValue then if rest.isEmpty then .awaiting else .complete
          else readShort flags rest
      | none => .unknown

/-- The word does not begin with a hyphen, or it is only a hyphen. -/
def plain (word : String) : Bool :=
  match word.toList with
  | '-' :: _ :: _ => false
  | _ => true

def kind (flags : List Flag) (word : String) : WordKind :=
  match word.toList with
  | ['-', '-'] => .unknown
  | '-' :: '-' :: long => readLong flags long
  | '-' :: char :: rest => readShort flags (char :: rest)
  | _ => .operand

/-- The words behind a subcommand whose first operands have been seen; trailing arguments are not
judged. -/
def Command.reads (command : Command) : Nat → List String → Bool
  | seen, [] => command.required ≤ seen
  | seen, word :: words =>
      if command.trailing && command.operands ≤ seen then true
      else
        match kind command.flags word with
        | .operand => seen < command.operands && command.reads (seen + 1) words
        | .complete => command.reads seen words
        | .awaiting =>
            match words with
            | [] => false
            | value :: words => plain value && command.reads seen words
        | .unknown => false

/-- The subcommand with this name, with the flags that may stand behind every subcommand. -/
def Grammar.command? (grammar : Grammar) (name : String) : Option Command :=
  (grammar.commands.find? fun command => command.name = name).map fun command =>
    { command with flags := command.flags ++ grammar.flags.filter Flag.everywhere }

/-- The words behind a subcommand use its flags and those for every subcommand only. -/
def Grammar.reads (grammar : Grammar) (name : String) (words : List String) : Bool :=
  match grammar.command? name with
  | some command => command.reads 0 words
  | none => false

/-- The words name a subcommand and use declared flags only, each with its value. -/
def Grammar.accepts (grammar : Grammar) : List String → Bool
  | [] => false
  | word :: words =>
      match kind grammar.flags word with
      | .operand => grammar.reads word words
      | .complete => grammar.accepts words
      | .awaiting =>
          match words with
          | [] => false
          | value :: words => plain value && grammar.accepts words
      | .unknown => false

/-- The flag may stand directly behind the subcommand. -/
def Grammar.declares (grammar : Grammar) (name flag : String) (read : WordKind) : Bool :=
  match grammar.command? name with
  | some command =>
      !(command.trailing && command.operands ≤ 0) && kind command.flags flag = read
  | none => false

/-- How many operands a subcommand needs and takes, and whether it takes trailing arguments. -/
def Grammar.shape? (grammar : Grammar) (name : String) : Option (Nat × Nat × Bool) :=
  (grammar.command? name).map fun command => (command.required, command.operands, command.trailing)

/-- A flag before each of the values. -/
def repeated (flag : String) (values : List String) : List String :=
  values.flatMap fun value => [flag, value]

/-- A flag without a value, if it is given. -/
def switch (given : Bool) (flag : String) : List String := if given then [flag] else []

theorem readLong_ne_operand (flags : List Flag) (chars : List Char) :
    readLong flags chars ≠ .operand := by
  unfold readLong
  split <;> split <;> try split
  all_goals exact WordKind.noConfusion

theorem readShort_ne_operand (flags : List Flag) (chars : List Char) :
    readShort flags chars ≠ .operand := by
  fun_induction readShort flags chars with
  | case4 _ _ _ _ _ ih => exact ih
  | _ => exact WordKind.noConfusion

/-- The words that are not read as flags do not depend on the flags. -/
theorem kind_eq_operand_iff {flags : List Flag} {word : String} :
    kind flags word = .operand ↔ plain word = true := by
  unfold kind plain
  split
  · simp [*]
  · simp [*, readLong_ne_operand]
  · simp [*, readShort_ne_operand]
  · rename_i not_escape not_long not_short
    split
    · rename_i char rest chars
      exact absurd chars (not_short char rest)
    · simp

namespace Command

theorem reads_of_few {command : Command} (enough : command.required ≤ command.operands) {seen : Nat}
    {words : List String} (few : seen + words.length < command.required) :
    command.reads seen words = false := by
  fun_induction command.reads seen words with
  | case1 seen => simpa using few
  | case2 seen word words full =>
      simp only [Bool.and_eq_true, decide_eq_true_eq] at full
      omega
  | case3 seen word words _ _ ih =>
      rw [ih (by rw [List.length_cons] at few; omega), Bool.and_false]
  | case4 seen word words _ _ ih => exact ih (by rw [List.length_cons] at few; omega)
  | case5 => rfl
  | case6 seen word _ _ value words ih =>
      rw [ih (by rw [List.length_cons, List.length_cons] at few; omega), Bool.and_false]
  | case7 => rfl

variable {command : Command} {seen : Nat}
  (leads : (command.trailing && decide (command.operands ≤ seen)) = false)
include leads

theorem reads_awaiting {flag : String} (awaits : kind command.flags flag = .awaiting)
    (value : String) (words : List String) :
    command.reads seen (flag :: value :: words) = (plain value && command.reads seen words) := by
  rw [reads, leads, awaits]
  rfl

theorem reads_complete {flag : String} (completes : kind command.flags flag = .complete)
    (words : List String) : command.reads seen (flag :: words) = command.reads seen words := by
  rw [reads.eq_def]
  dsimp only
  rw [leads, completes]
  rfl

theorem reads_repeated {flag : String} (awaits : kind command.flags flag = .awaiting)
    (values words : List String) :
    command.reads seen (repeated flag values ++ words) =
      (values.all plain && command.reads seen words) := by
  induction values with
  | nil => rfl
  | cons value values ih =>
      have split : repeated flag (value :: values) ++ words =
          flag :: value :: (repeated flag values ++ words) := rfl
      rw [split, reads_awaiting leads awaits, ih, List.all_cons, Bool.and_assoc]

theorem reads_switch {flag : String} (completes : kind command.flags flag = .complete)
    (given : Bool) (words : List String) :
    command.reads seen (switch given flag ++ words) = command.reads seen words := by
  cases given with
  | false => rfl
  | true => exact reads_complete leads completes words

/-- A word that does not begin with a hyphen is the next operand. -/
theorem reads_operand {word : String} (operand : plain word = true)
    (takes : seen < command.operands) (words : List String) :
    command.reads seen (word :: words) = command.reads (seen + 1) words := by
  rw [reads.eq_def]
  dsimp only
  rw [leads, kind_eq_operand_iff.mpr operand]
  simp [takes]

/-- Where all words are needed as operands, none of them is a flag. -/
theorem plain_of_reads (enough : command.required ≤ command.operands) {word : String}
    {words : List String} (needed : seen + words.length < command.required)
    (read : command.reads seen (word :: words) = true) : plain word = true := by
  rw [reads.eq_def] at read
  dsimp only at read
  rw [leads] at read
  cases kind_eq : kind command.flags word with
  | operand => exact kind_eq_operand_iff.mp kind_eq
  | complete =>
      rw [kind_eq] at read
      dsimp only at read
      rw [reads_of_few enough needed] at read
      cases read
  | awaiting =>
      rw [kind_eq] at read
      cases words with
      | nil => cases read
      | cons value words =>
          dsimp only at read
          have few : seen + words.length < command.required := by
            rw [List.length_cons] at needed
            omega
          rw [reads_of_few enough few] at read
          simp at read
  | unknown =>
      rw [kind_eq] at read
      cases read

end Command

namespace Grammar

variable {grammar : Grammar}

theorem accepts_awaiting {flag : String} (awaits : kind grammar.flags flag = .awaiting)
    (value : String) (words : List String) :
    grammar.accepts (flag :: value :: words) = (plain value && grammar.accepts words) := by
  rw [accepts, awaits]

theorem accepts_operand {name : String} (operand : plain name = true) (words : List String) :
    grammar.accepts (name :: words) = grammar.reads name words := by
  rw [accepts.eq_def]
  dsimp only
  rw [kind_eq_operand_iff.mpr operand]

theorem declares_iff {name flag : String} {read : WordKind} :
    grammar.declares name flag read = true ↔
      ∃ command, grammar.command? name = some command ∧
        (command.trailing && decide (command.operands ≤ 0)) = false ∧
          kind command.flags flag = read := by
  unfold declares
  cases grammar.command? name with
  | none => simp
  | some command =>
      simp only [Bool.and_eq_true, Bool.not_eq_true', decide_eq_true_eq, Option.some.injEq,
        exists_eq_left']

theorem reads_repeated {name flag : String} (takes : grammar.declares name flag .awaiting = true)
    (values words : List String) :
    grammar.reads name (repeated flag values ++ words) =
      (values.all plain && grammar.reads name words) := by
  obtain ⟨command, found, leads, awaits⟩ := declares_iff.mp takes
  simp only [reads, found]
  exact Command.reads_repeated leads awaits values words

theorem reads_value {name flag : String} (takes : grammar.declares name flag .awaiting = true)
    (value : String) (words : List String) :
    grammar.reads name (flag :: value :: words) = (plain value && grammar.reads name words) := by
  obtain ⟨command, found, leads, awaits⟩ := declares_iff.mp takes
  simp only [reads, found]
  exact Command.reads_awaiting leads awaits value words

theorem reads_switch {name flag : String} (takes : grammar.declares name flag .complete = true)
    (given : Bool) (words : List String) :
    grammar.reads name (switch given flag ++ words) = grammar.reads name words := by
  obtain ⟨command, found, leads, completes⟩ := declares_iff.mp takes
  simp only [reads, found]
  exact Command.reads_switch leads completes given words

theorem shape?_eq_some {name : String} {required operands : Nat} {trailing : Bool} :
    grammar.shape? name = some (required, operands, trailing) ↔
      ∃ command, grammar.command? name = some command ∧ command.required = required ∧
        command.operands = operands ∧ command.trailing = trailing := by
  simp [shape?, Option.map_eq_some_iff]

theorem reads_single {name : String} (shape : grammar.shape? name = some (1, 1, false))
    (word : String) : grammar.reads name [word] = plain word := by
  obtain ⟨command, found, needs, takes, none_trailing⟩ := shape?_eq_some.mp shape
  have leads : (command.trailing && decide (command.operands ≤ 0)) = false := by
    rw [none_trailing, Bool.false_and]
  rw [reads, found, Bool.eq_iff_iff]
  dsimp only
  constructor
  · exact Command.plain_of_reads leads (by omega) (by rw [needs]; decide)
  · intro operand
    rw [Command.reads_operand leads operand (by omega), Command.reads, needs]
    rfl

theorem reads_pair {name : String} (shape : grammar.shape? name = some (2, 2, false))
    (first second : String) :
    grammar.reads name [first, second] = (plain first && plain second) := by
  obtain ⟨command, found, needs, takes, none_trailing⟩ := shape?_eq_some.mp shape
  have leads (seen : Nat) : (command.trailing && decide (command.operands ≤ seen)) = false := by
    rw [none_trailing, Bool.false_and]
  rw [reads, found, Bool.eq_iff_iff, Bool.and_eq_true]
  dsimp only
  constructor
  · intro read
    have operand := Command.plain_of_reads (leads 0) (by omega) (by simp [needs]) read
    rw [Command.reads_operand (leads 0) operand (by omega)] at read
    exact ⟨operand, Command.plain_of_reads (leads 1) (by omega) (by rw [needs]; decide) read⟩
  · rintro ⟨first_operand, second_operand⟩
    rw [Command.reads_operand (leads 0) first_operand (by omega),
      Command.reads_operand (leads 1) second_operand (by omega), Command.reads, needs]
    rfl

/-- What follows the operands of a subcommand with trailing arguments is not looked at. -/
theorem reads_trailing {name : String} (shape : grammar.shape? name = some (1, 1, true))
    {word : String} (operand : plain word = true) (words : List String) :
    grammar.reads name (word :: words) = true := by
  obtain ⟨command, found, needs, takes, trailing⟩ := shape?_eq_some.mp shape
  have leads : (command.trailing && decide (command.operands ≤ 0)) = false := by
    rw [takes]
    simp
  rw [reads, found]
  dsimp only
  rw [Command.reads_operand leads operand (by omega)]
  cases words with
  | nil => simp [Command.reads, needs]
  | cons next words =>
      rw [Command.reads.eq_def]
      simp [takes, trailing]

end Grammar

end CommandGrammar
