import Pelagos.DockerShim.Invocations
import Pelagos.Library.Patterns
import Pelagos.Library.Serde
import Pelagos.Library.Tokens

/-!
# Dockerfiles in the docker shim

Before it runs the build, the shim looks for base images in the Dockerfile and pulls each with a
container of its own.  The end of the image of a `FROM` line is found in an upper-cased copy and cut
out of the line itself, and the name of the container is cut at its fortieth byte.  Both cuts are
byte offsets that need not fall between characters.
-/

namespace Pelagos.DockerShim

open Serde Text

/-- What the shim uses of Unicode: the case mappings and the class of letters and numbers.  ASCII is
mapped as usual, and no other character has an upper case that starts like some end of `FROM `. -/
structure Unicode where
  /-- `char::to_uppercase`. -/
  upper : Char → List Char
  /-- `str::to_lowercase`. -/
  lower : String → String
  isAlphanumeric : Char → Bool
  upper_ascii : ∀ char, char.toNat < 128 → upper char = [char.toUpper]
  upper_outside : ∀ char, 128 ≤ char.toNat → ∀ tail, tail ≠ [] → tail <:+ "FROM ".toList →
    ¬upper char <+: tail ∧ ¬tail <+: upper char

/-- `str::to_uppercase`. -/
def Unicode.toUppercase (unicode : Unicode) (chars : List Char) : List Char :=
  chars.flatMap unicode.upper

/-- The text behind the first bytes, if they end with a character. -/
def dropBytes (count : Nat) (chars : List Char) : Option (List Char) :=
  (takeBytes count chars).map fun front => chars.drop front.length

/-- A leading `--platform=…` is not part of the image. -/
def withoutFlag (imagePart : String) : String :=
  if startsWith imagePart "--" then (tokens imagePart)[1]?.getD "" else imagePart

/-- A trimmed line that `parse_from_images` looks at. -/
def isFromLine (unicode : Unicode) (trimmed : String) : Bool :=
  trimmed ≠ "" && !startsWith trimmed "#" &&
    "FROM ".toList.isPrefixOf (unicode.toUppercase trimmed.toList)

/-- The image and the alias of a trimmed `FROM` line; `none` where a slice panics. -/
def readFromLine (unicode : Unicode) (trimmed : String) : Option (String × Option String) :=
  (dropBytes 5 trimmed.toList).bind fun tail =>
    let rest := trim (String.ofList tail)
    match splitAt? " AS ".toList (unicode.toUppercase rest.toList) with
    | none => some (withoutFlag rest, none)
    | some (before, _) =>
        let idx := byteLength before
        (takeBytes idx rest.toList).bind fun imagePart =>
          (dropBytes (idx + 4) rest.toList).map fun stage =>
            (withoutFlag (trim (String.ofList imagePart)), some (trim (String.ofList stage)))

/-- The loop of `parse_from_images` over the lines, with the stage names seen before. -/
def parseFromLines (unicode : Unicode) (stageNames : List String) :
    List String → Option (List String)
  | [] => some []
  | line :: lines =>
      if isFromLine unicode (trim line) then
        (readFromLine unicode (trim line)).bind fun (image, stage) =>
          let stageNames := (stage.map unicode.lower).toList ++ stageNames
          if image = "" || image = "scratch" || startsWith image "$" ||
              unicode.lower image ∈ stageNames then
            parseFromLines unicode stageNames lines
          else (parseFromLines unicode stageNames lines).map (image :: ·)
      else parseFromLines unicode stageNames lines

/-- `parse_from_images`; `none` where a slice panics. -/
def parseFromImages (unicode : Unicode) (dockerfile : String) : Option (List String) :=
  parseFromLines unicode [] (lines dockerfile)

/-- The `--build-arg KEY=VALUE` pairs. -/
def argMap (buildArgs : List String) : HashMap String String :=
  buildArgs.foldl
    (fun args arg =>
      match splitOnce '=' arg.toList with
      | none => args
      | some (key, value) => args.insert (String.ofList key) (String.ofList value))
    ∅

/-- Replace `${KEY}` and then `$KEY`, one key after the other. -/
def replaceArgs (entries : List (String × String)) (text : String) : String :=
  entries.foldl
    (fun text entry =>
      replace (replace text ("$\x7b" ++ entry.1 ++ "\x7d") entry.2) ("$" ++ entry.1) entry.2)
    text

/-- The text in which `pull_base_images` looks for images. -/
def substituteText (order : MapOrder String String) (buildArgs : List String) (raw : String) :
    String :=
  let args := argMap buildArgs
  if args.keys = ∅ then raw else replaceArgs (order.entries args) raw

/-- The name part of the image has a dot or a slash. -/
def isRegistryImage (image : String) : Bool :=
  let namePart := firstPiece ':' image
  decide ('.' ∈ namePart.toList) || decide ('/' ∈ namePart.toList)

/-- The loop of `pull_base_images`; `results` are the codes of the probes, and `none` is a panic. -/
def probeImages (unicode : Unicode) (results : Nat → Int32) (count : Nat) :
    List String → Option Int32
  | [] => some 0
  | image :: images =>
      if isRegistryImage image then
        (probeName unicode.isAlphanumeric image).bind fun _ =>
          if results count = 0 then probeImages unicode results (count + 1) images
          else some (results count)
      else probeImages unicode results count images

/-- `pull_base_images` for what reading the Dockerfile returns. -/
def pullBaseImages (unicode : Unicode) (order : MapOrder String String) (results : Nat → Int32)
    (raw : Option String) (buildArgs : List String) : Option Int32 :=
  match raw with
  | none => some 1
  | some raw =>
      (parseFromImages unicode (substituteText order buildArgs raw)).bind
        (probeImages unicode results 0)

/-! ## Slices at byte offsets -/

theorem takeBytes_zero_iff {chars front : List Char} :
    takeBytes 0 chars = some front ↔ ∃ back, chars = front ++ back ∧ byteLength front = 0 := by
  have taken : takeBytes 0 chars = some [] := by
    cases chars with
    | nil => rfl
    | cons char chars => rfl
  rw [taken, Option.some.injEq]
  constructor
  · rintro rfl
    exact ⟨chars, rfl, rfl⟩
  · rintro ⟨back, -, length_eq⟩
    exact (byteLength_eq_zero_iff.mp length_eq).symm

theorem takeBytes_eq_some_iff {count : Nat} {chars front : List Char} :
    takeBytes count chars = some front ↔
      ∃ back, chars = front ++ back ∧ byteLength front = count := by
  induction chars generalizing count front with
  | nil =>
      cases count with
      | zero => exact takeBytes_zero_iff
      | succ count =>
          refine iff_of_false (by simp [takeBytes]) ?_
          rintro ⟨back, same, length_eq⟩
          obtain ⟨rfl, -⟩ := List.append_eq_nil_iff.mp same.symm
          cases length_eq
  | cons char chars ih =>
      have positive := char.utf8Size_pos
      cases count with
      | zero => exact takeBytes_zero_iff
      | succ count =>
          rw [takeBytes]
          constructor
          · intro taken
            split at taken
            · obtain ⟨later, later_taken, rfl⟩ := Option.map_eq_some_iff.mp taken
              obtain ⟨back, rfl, length_eq⟩ := ih.mp later_taken
              exact ⟨back, rfl, by rw [byteLength_cons]; omega⟩
            · cases taken
          · rintro ⟨back, same, length_eq⟩
            cases front with
            | nil => cases length_eq
            | cons first front =>
                obtain ⟨rfl, rfl⟩ := List.cons.inj same
                rw [byteLength_cons] at length_eq
                have taken := ih.mpr ⟨back, rfl, (by omega :
                  byteLength front = count + 1 - char.utf8Size)⟩
                rw [if_pos (by omega), taken]
                rfl

theorem dropBytes_eq_some_iff {count : Nat} {chars back : List Char} :
    dropBytes count chars = some back ↔
      ∃ front, chars = front ++ back ∧ byteLength front = count := by
  rw [dropBytes, Option.map_eq_some_iff]
  constructor
  · rintro ⟨front, taken, rfl⟩
    obtain ⟨back, rfl, length_eq⟩ := takeBytes_eq_some_iff.mp taken
    exact ⟨front, by rw [List.drop_left], length_eq⟩
  · rintro ⟨front, rfl, length_eq⟩
    exact ⟨front, takeBytes_eq_some_iff.mpr ⟨back, rfl, length_eq⟩, List.drop_left⟩

theorem byteLength_of_ascii {chars : List Char} (ascii : ∀ char ∈ chars, char.toNat < 128) :
    byteLength chars = chars.length := by
  induction chars with
  | nil => rfl
  | cons char chars ih =>
      obtain ⟨char_ascii, rest_ascii⟩ := List.forall_mem_cons.mp ascii
      have one : char.utf8Size = 1 := by
        rw [Char.utf8Size_eq_one_iff, UInt32.le_iff_toNat_le]
        exact Nat.le_of_lt_succ char_ascii
      rw [byteLength_cons, List.length_cons, ih rest_ascii, one, Nat.add_comm]

/-- What looks like the beginning of a `FROM` line in upper case is ASCII in the line itself. -/
theorem ascii_of_upper (unicode : Unicode) {tail chars : List Char}
    (ending : tail <:+ "FROM ".toList) (upper_eq : tail <+: unicode.toUppercase chars) :
    ∃ front back, chars = front ++ back ∧ front.length = tail.length ∧
      ∀ char ∈ front, char.toNat < 128 := by
  induction tail generalizing chars with
  | nil => exact ⟨[], chars, rfl, rfl, by simp⟩
  | cons letter tail ih =>
      cases chars with
      | nil => exact absurd (List.prefix_nil.mp upper_eq) (by simp)
      | cons char chars =>
          rw [Unicode.toUppercase, List.flatMap_cons] at upper_eq
          have ascii : char.toNat < 128 := by
            by_contra wide
            obtain ⟨not_front, not_behind⟩ :=
              unicode.upper_outside char (Nat.le_of_not_lt wide) _ (by simp) ending
            rcases List.prefix_or_prefix_of_prefix upper_eq (List.prefix_append _ _) with
              behind | front
            · exact not_behind behind
            · exact not_front front
          rw [unicode.upper_ascii char ascii, List.singleton_append] at upper_eq
          obtain ⟨-, rest_eq⟩ := List.cons_prefix_cons.mp upper_eq
          obtain ⟨front, back, rfl, length_eq, front_ascii⟩ :=
            ih ((List.suffix_cons letter tail).trans ending) rest_eq
          exact ⟨char :: front, back, rfl, by simp [length_eq],
            List.forall_mem_cons.mpr ⟨ascii, front_ascii⟩⟩

/-- The first slice of a `FROM` line never panics. -/
theorem dropBytes_fromLine {unicode : Unicode} {trimmed : String}
    (from_line : isFromLine unicode trimmed = true) :
    dropBytes 5 trimmed.toList = some (trimmed.toList.drop 5) := by
  have upper_eq : "FROM ".toList <+: unicode.toUppercase trimmed.toList := by
    rw [isFromLine, Bool.and_eq_true] at from_line
    exact List.isPrefixOf_iff_prefix.mp from_line.2
  obtain ⟨front, back, chars_eq, length_eq, ascii⟩ :=
    ascii_of_upper unicode List.suffix_rfl upper_eq
  have five : front.length = 5 := length_eq
  rw [chars_eq, ← five, List.drop_left, dropBytes_eq_some_iff]
  exact ⟨front, rfl, (byteLength_of_ascii ascii).trans rfl⟩

/-! ## The lines of the stages -/

/-- The text behind `FROM `. -/
def fromRest (trimmed : String) : String := trim (String.ofList (trimmed.toList.drop 5))

/-- The bytes at which ` AS ` begins and ends in upper case are ends of characters of the line. -/
def AliasAligned (unicode : Unicode) (rest : String) : Prop :=
  ∀ before behind,
    splitAt? " AS ".toList (unicode.toUppercase rest.toList) = some (before, behind) →
      ∃ front middle back, rest.toList = front ++ middle ++ back ∧
        byteLength front = byteLength before ∧ byteLength middle = 4

/-- The image and the stage that stand behind `FROM `. -/
inductive Reads (unicode : Unicode) (rest : String) : String → Option String → Prop
  | plain (unnamed : splitAt? " AS ".toList (unicode.toUppercase rest.toList) = none) :
      Reads unicode rest (withoutFlag rest) none
  | staged {before behind front middle back : List Char}
      (named : splitAt? " AS ".toList (unicode.toUppercase rest.toList) = some (before, behind))
      (rest_eq : rest.toList = front ++ middle ++ back)
      (front_length : byteLength front = byteLength before)
      (middle_length : byteLength middle = 4) :
      Reads unicode rest (withoutFlag (trim (String.ofList front)))
        (some (trim (String.ofList back)))

theorem readFromLine_eq {unicode : Unicode} {trimmed : String}
    (from_line : isFromLine unicode trimmed = true) :
    readFromLine unicode trimmed =
      match splitAt? " AS ".toList (unicode.toUppercase (fromRest trimmed).toList) with
      | none => some (withoutFlag (fromRest trimmed), none)
      | some (before, _) =>
          (takeBytes (byteLength before) (fromRest trimmed).toList).bind fun imagePart =>
            (dropBytes (byteLength before + 4) (fromRest trimmed).toList).map fun stage =>
              (withoutFlag (trim (String.ofList imagePart)),
                some (trim (String.ofList stage))) := by
  simp only [readFromLine, dropBytes_fromLine from_line, Option.bind_some, fromRest]

/-- Of two beginnings of a text, the one with fewer bytes begins the other. -/
theorem prefix_of_byteLength_le {front most : List Char}
    (comparable : front <+: most ∨ most <+: front) (shorter : byteLength front ≤ byteLength most) :
    front <+: most := by
  rcases comparable with begins | ⟨later, rfl⟩
  · exact begins
  · cases later with
    | nil => rw [List.append_nil]
    | cons char later =>
        have positive := char.utf8Size_pos
        rw [byteLength_append, byteLength_cons] at shorter
        omega

/-- A text is cut at two bytes exactly where three parts of it end. -/
theorem takeBytes_dropBytes_iff {start count : Nat} {rest front back : List Char} :
    takeBytes start rest = some front ∧ dropBytes (start + count) rest = some back ↔
      ∃ middle, rest = front ++ middle ++ back ∧
        byteLength front = start ∧ byteLength middle = count := by
  rw [takeBytes_eq_some_iff, dropBytes_eq_some_iff]
  constructor
  · rintro ⟨⟨tail, rest_eq, front_length⟩, most, rest_eq', most_length⟩
    obtain ⟨middle, rfl⟩ : front <+: most :=
      prefix_of_byteLength_le
        (List.prefix_or_prefix_of_prefix ⟨tail, rest_eq.symm⟩ ⟨back, rest_eq'.symm⟩) (by omega)
    rw [byteLength_append] at most_length
    exact ⟨middle, rest_eq', front_length, by omega⟩
  · rintro ⟨middle, rfl, rfl, rfl⟩
    exact ⟨⟨middle ++ back, List.append_assoc .., rfl⟩, front ++ middle, rfl, byteLength_append ..⟩

theorem readFromLine_eq_some_iff {unicode : Unicode} {trimmed image : String}
    {stage : Option String} (from_line : isFromLine unicode trimmed = true) :
    readFromLine unicode trimmed = some (image, stage) ↔
      Reads unicode (fromRest trimmed) image stage := by
  rw [readFromLine_eq from_line]
  cases split : splitAt? " AS ".toList (unicode.toUppercase (fromRest trimmed).toList) with
  | none =>
      constructor
      · intro read
        obtain ⟨rfl, rfl⟩ := Prod.mk.inj (Option.some.inj read)
        exact .plain split
      · rintro (_ | ⟨named, -, -, -⟩)
        · rfl
        · rw [split] at named
          cases named
  | some found =>
      obtain ⟨before, behind⟩ := found
      constructor
      · intro read
        obtain ⟨front, taken, read⟩ := Option.bind_eq_some_iff.mp read
        obtain ⟨back, dropped, read⟩ := Option.map_eq_some_iff.mp read
        obtain ⟨rfl, rfl⟩ := Prod.mk.inj read
        obtain ⟨middle, rest_eq, front_length, middle_length⟩ :=
          takeBytes_dropBytes_iff.mp ⟨taken, dropped⟩
        exact .staged split rest_eq front_length middle_length
      · rintro (unnamed | ⟨named, rest_eq, front_length, middle_length⟩)
        · rw [split] at unnamed
          cases unnamed
        · rw [split] at named
          obtain ⟨rfl, rfl⟩ := Prod.mk.inj (Option.some.inj named)
          obtain ⟨taken, dropped⟩ :=
            takeBytes_dropBytes_iff.mpr ⟨_, rest_eq, front_length, middle_length⟩
          simp only [taken, dropped, Option.bind_some, Option.map_some]

theorem readFromLine_isSome_iff {unicode : Unicode} {trimmed : String}
    (from_line : isFromLine unicode trimmed = true) :
    (readFromLine unicode trimmed).isSome = true ↔ AliasAligned unicode (fromRest trimmed) := by
  constructor
  · intro read before behind split
    obtain ⟨⟨image, stage⟩, read⟩ := Option.isSome_iff_exists.mp read
    rcases (readFromLine_eq_some_iff from_line).mp read with
      unnamed | ⟨named, rest_eq, front_length, middle_length⟩
    · rw [split] at unnamed
      cases unnamed
    · rw [split] at named
      obtain ⟨rfl, rfl⟩ := Prod.mk.inj (Option.some.inj named)
      exact ⟨_, _, _, rest_eq, front_length, middle_length⟩
  · intro aligned
    have read : ∃ image stage, Reads unicode (fromRest trimmed) image stage := by
      cases split : splitAt? " AS ".toList (unicode.toUppercase (fromRest trimmed).toList) with
      | none => exact ⟨_, _, .plain split⟩
      | some found =>
          obtain ⟨front, middle, back, rest_eq, front_length, middle_length⟩ :=
            aligned found.1 found.2 split
          exact ⟨_, _, .staged split rest_eq front_length middle_length⟩
    obtain ⟨image, stage, read⟩ := read
    exact Option.isSome_iff_exists.mpr ⟨_, (readFromLine_eq_some_iff from_line).mpr read⟩

/-! ## The images that are pulled -/

/-- Neither empty nor `scratch` nor a variable. -/
def isReference (image : String) : Bool :=
  image ≠ "" && image ≠ "scratch" && !startsWith image "$"

theorem isSkipped_iff {unicode : Unicode} {image : String} {stageNames : List String} :
    (decide (image = "") || decide (image = "scratch") || startsWith image "$" ||
        decide (unicode.lower image ∈ stageNames)) = true ↔
      ¬(isReference image = true ∧ unicode.lower image ∉ stageNames) := by
  simp only [isReference, Bool.or_eq_true, Bool.and_eq_true, decide_eq_true_eq,
    Bool.not_eq_true', ← Bool.not_eq_true (startsWith image "$")]
  tauto

/-- The line gives a stage a name that is this one in lower case. -/
def NamesStage (unicode : Unicode) (name line : String) : Prop :=
  isFromLine unicode (trim line) = true ∧
    ∃ image stage, Reads unicode (fromRest (trim line)) image (some stage) ∧
      unicode.lower stage = name

/-- The image stands on a line, and no line up to this one gives its name to a stage. -/
def NeedsImage (unicode : Unicode) (lines : List String) (image : String) : Prop :=
  ∃ earlier line later stage, lines = earlier ++ line :: later ∧
    isFromLine unicode (trim line) = true ∧ Reads unicode (fromRest (trim line)) image stage ∧
    isReference image = true ∧
    ∀ named ∈ earlier ++ [line], ¬NamesStage unicode (unicode.lower image) named

/-- The name made of the image has at most forty bytes, or a character ends at the fortieth. -/
def NameAligned (unicode : Unicode) (image : String) : Prop :=
  let safe := image.toList.map fun char =>
    if unicode.isAlphanumeric char || char = '-' then char else '-'
  byteLength safe ≤ 40 ∨ ∃ front back, safe = front ++ back ∧ byteLength front = 40

theorem probeName_isSome_iff (unicode : Unicode) (image : String) :
    (probeName unicode.isAlphanumeric image).isSome = true ↔ NameAligned unicode image := by
  simp only [probeName, NameAligned, Option.isSome_map, Option.isSome_iff_exists,
    takeBytes_eq_some_iff, utf8ByteSize_ofList]
  constructor
  · rintro ⟨front, back, safe_eq, length_eq⟩
    by_cases short : byteLength (image.toList.map fun char =>
        if unicode.isAlphanumeric char || char = '-' then char else '-') ≤ 40
    · exact .inl short
    · exact .inr ⟨front, back, safe_eq, by omega⟩
  · rintro (short | ⟨front, back, safe_eq, length_eq⟩)
    · exact ⟨_, [], (List.append_nil _).symm, (Nat.min_eq_left short).symm⟩
    · refine ⟨front, back, safe_eq, ?_⟩
      rw [safe_eq, byteLength_append]
      omega

theorem needsImage_cons_iff {unicode : Unicode} {line image : String} {lines : List String} :
    NeedsImage unicode (line :: lines) image ↔
      ¬NamesStage unicode (unicode.lower image) line ∧
        (isFromLine unicode (trim line) = true ∧ isReference image = true ∧
          (∃ stage, Reads unicode (fromRest (trim line)) image stage) ∨
        NeedsImage unicode lines image) := by
  constructor
  · rintro ⟨earlier, found, later, stage, lines_eq, from_line, read, reference, unnamed⟩
    cases earlier with
    | nil =>
        obtain ⟨rfl, rfl⟩ := List.cons.inj lines_eq
        exact ⟨unnamed _ (by simp), .inl ⟨from_line, reference, stage, read⟩⟩
    | cons first earlier =>
        obtain ⟨rfl, rfl⟩ := List.cons.inj lines_eq
        exact ⟨unnamed _ (by simp), .inr ⟨earlier, found, later, stage, rfl, from_line, read,
          reference, fun named member => unnamed named (List.mem_cons_of_mem _ member)⟩⟩
  · rintro ⟨unnamed, ⟨from_line, reference, stage, read⟩ | later_needs⟩
    · exact ⟨[], line, lines, stage, rfl, from_line, read, reference, by simpa using unnamed⟩
    · obtain ⟨earlier, found, later, stage, rfl, from_line, read, reference, later_unnamed⟩ :=
        later_needs
      exact ⟨line :: earlier, found, later, stage, rfl, from_line, read, reference,
        List.forall_mem_cons.mpr ⟨unnamed, later_unnamed⟩⟩

theorem not_needsImage_nil {unicode : Unicode} {image : String} :
    ¬NeedsImage unicode [] image := by
  rintro ⟨earlier, line, later, stage, lines_eq, -⟩
  simp at lines_eq

theorem parseFromLines_isSome_iff {unicode : Unicode} {lines : List String} :
    ∀ {stageNames : List String}, (parseFromLines unicode stageNames lines).isSome = true ↔
      ∀ line ∈ lines, isFromLine unicode (trim line) = true →
        AliasAligned unicode (fromRest (trim line)) := by
  induction lines with
  | nil => simp [parseFromLines]
  | cons line lines ih =>
      intro stageNames
      rw [parseFromLines, List.forall_mem_cons]
      by_cases from_line : isFromLine unicode (trim line) = true
      · rw [if_pos from_line, imp_iff_right from_line, ← readFromLine_isSome_iff from_line]
        cases readFromLine unicode (trim line) with
        | none => simp
        | some read =>
            rw [Option.bind_some, iff_true_intro (Option.isSome_some), true_and]
            dsimp only
            split
            · exact ih
            · rw [Option.isSome_map]
              exact ih
      · rw [if_neg from_line, ih]
        simp [from_line]

theorem exists_reads_iff {unicode : Unicode} {line found image : String} {stage : Option String}
    (from_line : isFromLine unicode (trim line) = true)
    (read : readFromLine unicode (trim line) = some (found, stage)) :
    (∃ stage, Reads unicode (fromRest (trim line)) image stage) ↔ image = found := by
  constructor
  · rintro ⟨other, reads⟩
    rw [← readFromLine_eq_some_iff from_line, read] at reads
    exact (Prod.mk.inj (Option.some.inj reads)).1.symm
  · rintro rfl
    exact ⟨stage, (readFromLine_eq_some_iff from_line).mp read⟩

theorem namesStage_iff {unicode : Unicode} {line found name : String} {stage : Option String}
    (from_line : isFromLine unicode (trim line) = true)
    (read : readFromLine unicode (trim line) = some (found, stage)) :
    NamesStage unicode name line ↔ stage.map unicode.lower = some name := by
  constructor
  · rintro ⟨-, image, other, reads, lower_eq⟩
    rw [← readFromLine_eq_some_iff from_line, read] at reads
    obtain ⟨-, rfl⟩ := Prod.mk.inj (Option.some.inj reads)
    rw [Option.map_some, lower_eq]
  · intro named
    obtain ⟨other, rfl, lower_eq⟩ := Option.map_eq_some_iff.mp named
    exact ⟨from_line, found, other, (readFromLine_eq_some_iff from_line).mp read, lower_eq⟩

/-- The images of the list, for the stages that have been named before. -/
theorem mem_parseFromLines_iff {unicode : Unicode} {lines : List String} {image : String} :
    ∀ {stageNames images : List String}, parseFromLines unicode stageNames lines = some images →
      (image ∈ images ↔ unicode.lower image ∉ stageNames ∧ NeedsImage unicode lines image) := by
  induction lines with
  | nil =>
      intro stageNames images parsed
      cases parsed
      simp [not_needsImage_nil]
  | cons line lines ih =>
      intro stageNames images parsed
      rw [parseFromLines] at parsed
      rw [needsImage_cons_iff]
      by_cases from_line : isFromLine unicode (trim line) = true
      · rw [if_pos from_line] at parsed
        obtain ⟨⟨found, stage⟩, read, parsed⟩ := Option.bind_eq_some_iff.mp parsed
        have image_iff : (∃ stage, Reads unicode (fromRest (trim line)) image stage) ↔
            image = found :=
          exists_reads_iff from_line read
        have skipped_iff : unicode.lower image ∉ (stage.map unicode.lower).toList ++ stageNames ↔
            unicode.lower image ∉ stageNames ∧
              ¬NamesStage unicode (unicode.lower image) line := by
          rw [namesStage_iff from_line read, List.mem_append, Option.mem_toList, not_or, and_comm]
        rw [image_iff, ← and_assoc, ← skipped_iff]
        dsimp only at parsed
        split at parsed
        · rename_i skipped
          rw [ih parsed]
          refine and_congr_right fun unnamed => (or_iff_right ?_).symm
          rintro ⟨-, reference, rfl⟩
          exact isSkipped_iff.mp skipped ⟨reference, unnamed⟩
        · rename_i kept
          rw [isSkipped_iff, not_not] at kept
          obtain ⟨later, later_parsed, rfl⟩ := Option.map_eq_some_iff.mp parsed
          rw [List.mem_cons, ih later_parsed, and_or_left]
          refine or_congr_left ⟨?_, fun needed => needed.2.2.2⟩
          rintro rfl
          exact ⟨kept.2, from_line, kept.1, rfl⟩
      · rw [if_neg from_line] at parsed
        rw [ih parsed]
        simp [NamesStage, from_line]

/-! ## The pulls -/

theorem probeImages_isSome {unicode : Unicode} {results : Nat → Int32} {images : List String}
    (aligned : ∀ image ∈ images, isRegistryImage image = true → NameAligned unicode image) :
    ∀ count, (probeImages unicode results count images).isSome = true := by
  induction images with
  | nil => exact fun _ => rfl
  | cons image images ih =>
      obtain ⟨image_aligned, rest_aligned⟩ := List.forall_mem_cons.mp aligned
      intro count
      rw [probeImages]
      split
      · rename_i registry
        obtain ⟨name, probe⟩ := Option.isSome_iff_exists.mp
          ((probeName_isSome_iff unicode image).mpr (image_aligned registry))
        rw [probe, Option.bind_some]
        split
        · exact ih rest_aligned _
        · rfl
      · exact ih rest_aligned _

/-- When every probe succeeds, the name of every image is cut. -/
theorem nameAligned_of_probeImages {unicode : Unicode} {images : List String} :
    ∀ {count : Nat}, (probeImages unicode (fun _ => 0) count images).isSome = true →
      ∀ image ∈ images, isRegistryImage image = true → NameAligned unicode image := by
  induction images with
  | nil => simp
  | cons image images ih =>
      intro count returned
      rw [probeImages] at returned
      rw [List.forall_mem_cons]
      split at returned
      · obtain ⟨_, ended⟩ := Option.isSome_iff_exists.mp returned
        obtain ⟨name, probe, ended⟩ := Option.bind_eq_some_iff.mp ended
        rw [if_pos rfl] at ended
        exact ⟨fun _ => (probeName_isSome_iff unicode image).mp (Option.isSome_of_eq_some probe),
          ih (Option.isSome_of_eq_some ended)⟩
      · rename_i local_image
        exact ⟨fun registry => absurd registry local_image, ih returned⟩

/-- Pulling the base images panics for some results of the probes unless every ` AS ` found in upper
case and every fortieth byte of a name fall between characters. -/
theorem pullBaseImages_never_panics_iff (unicode : Unicode) (order : MapOrder String String)
    (raw : String) (buildArgs : List String) :
    (∀ results, (pullBaseImages unicode order results (some raw) buildArgs).isSome = true) ↔
      let content := lines (substituteText order buildArgs raw)
      (∀ line ∈ content, isFromLine unicode (trim line) = true →
        AliasAligned unicode (fromRest (trim line))) ∧
      ∀ image, NeedsImage unicode content image → isRegistryImage image = true →
        NameAligned unicode image := by
  dsimp only
  have parses_iff : (parseFromImages unicode (substituteText order buildArgs raw)).isSome = true ↔
      _ := parseFromLines_isSome_iff
  rw [← parses_iff]
  constructor
  · intro returned
    obtain ⟨code, pulled⟩ := Option.isSome_iff_exists.mp (returned fun _ => 0)
    obtain ⟨images, parsed, probed⟩ := Option.bind_eq_some_iff.mp pulled
    refine ⟨Option.isSome_of_eq_some parsed, fun image needed => ?_⟩
    have listed : image ∈ images := (mem_parseFromLines_iff parsed).mpr ⟨by simp, needed⟩
    exact nameAligned_of_probeImages (Option.isSome_of_eq_some probed) image listed
  · rintro ⟨returned, aligned⟩ results
    obtain ⟨images, parsed⟩ := Option.isSome_iff_exists.mp returned
    simp only [pullBaseImages, parsed, Option.bind_some]
    refine probeImages_isSome (fun image listed => ?_) 0
    exact aligned image ((mem_parseFromLines_iff parsed).mp listed).2

/-- A case mapping in which the upper case of the dotless `i` is shorter than the letter. -/
def shorterUpper (char : Char) : List Char :=
  if char.toNat < 128 then [char.toUpper]
  else if char = 'ı' then ['I']
  else if char = 'é' then ['É']
  else [char]

theorem shorterUpper_outside {char : Char} (wide : 128 ≤ char.toNat) :
    ∃ big, shorterUpper char = [big] ∧ big ∉ "FROM ".toList := by
  rw [shorterUpper, if_neg (Nat.not_lt.mpr wide)]
  split
  · exact ⟨'I', rfl, by decide⟩
  · split
    · exact ⟨'É', rfl, by decide⟩
    · refine ⟨char, rfl, fun member => ?_⟩
      have ascii : ∀ letter ∈ "FROM ".toList, letter.toNat < 128 :=
        List.forall_iff_forall_mem.mp (by decide)
      exact absurd (ascii char member) (Nat.not_lt.mpr wide)

def shorterCase : Unicode where
  upper := shorterUpper
  lower := String.toLower
  isAlphanumeric := Char.isAlphanum
  upper_ascii _ ascii := if_pos ascii
  upper_outside char wide tail nonempty ending := by
    obtain ⟨big, upper_eq, outside⟩ := shorterUpper_outside wide
    have free : big ∉ tail := fun member => outside (ending.subset member)
    rw [upper_eq]
    constructor
    · intro front
      exact free (front.subset (List.mem_singleton_self big))
    · intro front
      obtain ⟨first, member⟩ := List.exists_mem_of_ne_nil tail nonempty
      exact free (List.mem_singleton.mp (front.subset member) ▸ member)

/-- The image ends inside of the `é` when the bytes are counted in upper case. -/
theorem dotless_i_panics :
    ¬∀ results, (pullBaseImages shorterCase (MapOrder.sorted String) results
      (some "FROM ıé AS x") []).isSome = true := by
  intro returns
  have returned := returns fun _ => 0
  revert returned
  decide

end Pelagos.DockerShim
