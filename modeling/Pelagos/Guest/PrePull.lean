import Pelagos.Guest.Dockerfile
import Pelagos.Guest.Substitution

/-!
# The images that a build needs

Which images a Dockerfile needs is said by its instructions: a `FROM` with its flags, its base and
perhaps the name of its stage.  An instruction is one physical line here; continued lines and here
documents are not put together.  The scan of `handle_build` goes by the positions of words on lines
that start with `FROM`, and pulls one image of those that differ in case only.
-/

namespace Pelagos.Guest

open Text

/-! ## Instructions -/

/-- The base of a `FROM` instruction, and the name that its `AS` clause declares. -/
structure FromInstruction where
  base : String
  stage : Option String

/-- A word `--flag=value`. -/
def isFlag (word : String) : Bool := startsWith word "--" && decide ('=' ∈ word.toList)

/-- The name behind `AS`, after the base. -/
def stageName : List String → Option String
  | _ :: clause :: stage :: _ => if asciiLower clause = "as" then some stage else none
  | _ => none

/-- The line, taken by itself, is an instruction with this keyword. -/
def hasKeyword (keyword line : String) : Bool :=
  (tokens (trim line)).head?.map asciiUpper = some keyword

/-- Read a `FROM` instruction. -/
def fromInstruction (line : String) : Option FromInstruction :=
  if hasKeyword "FROM" line then
    let words := (tokens (trim line)).tail.dropWhile isFlag
    some { base := words.head?.getD "", stage := stageName words }
  else none

/-- The build arguments over the first defaults that `ARG` instructions declare. -/
def declaredVars (buildArgs : List String) (lines : List String) : HashMap String String :=
  buildVars buildArgs (lines.filter (hasKeyword "ARG"))

/-- Neither empty nor unresolved nor `scratch`; as for `handle_build`, a reference is unresolved
when it starts with a dollar. -/
def namesImage (ref : String) : Bool :=
  ref ≠ "" && !startsWith ref "$" && asciiLower ref ≠ "scratch"

/-- The images that the instructions need in turn, each with the name of its stage; the aliases are
the names of earlier stages. -/
def needsFrom (vars : HashMap String String) (aliases : List String) :
    List FromInstruction → List (String × Option String)
  | [] => []
  | ⟨base, stage⟩ :: instructions =>
      let ref := referenceSubstitution base vars
      let later := needsFrom vars ((stage.map asciiLower).toList ++ aliases) instructions
      if namesImage ref ∧ asciiLower ref ∉ aliases then (ref, stage) :: later else later

/-- The images that a Dockerfile needs. -/
def needs (buildArgs : List String) (content : String) : List (String × Option String) :=
  needsFrom (declaredVars buildArgs (lines content)) [] ((lines content).filterMap fromInstruction)

/-- Some instruction needs the image. -/
def Needed (buildArgs : List String) (content : String) (ref : String) : Prop :=
  ∃ stage, (ref, stage) ∈ needs buildArgs content

/-! ## Lines that the scan reads as they are meant -/

/-- A line that starts with `FROM` is an instruction without flags whose base is ASCII, or a single
word. -/
def PlainFrom (line : String) : Prop :=
  startsWith (asciiUpper (trim line)) "FROM" = true →
    (tokens (trim line)).length ≤ 1 ∨
      hasKeyword "FROM" line = true ∧
        ∀ base ∈ (tokens (trim line))[1]?, isFlag base = false ∧
          ∀ char, Piece.copied char ∈ pieces base → char.toNat < 128

/-- A line that starts with `ARG` is an instruction, or declares no default. -/
def PlainArg (line : String) : Prop :=
  startsWith (asciiUpper (trim line)) "ARG" = true →
    hasKeyword "ARG" line = true ∨ '=' ∉ line.toList

/-! ## One line -/

theorem startsWith_of_hasKeyword {keyword line : String} (has : hasKeyword keyword line = true) :
    startsWith (asciiUpper (trim line)) keyword = true := by
  rw [hasKeyword, decide_eq_true_eq, Option.map_eq_some_iff] at has
  obtain ⟨word, head, rfl⟩ := has
  obtain ⟨words, tokens_eq⟩ := List.head?_eq_some_iff.mp head
  rw [startsWith, List.isPrefixOf_iff_prefix, asciiUpper, asciiUpper, String.toList_ofList,
    String.toList_ofList]
  exact (prefix_of_tokens_cons (head?_trim line) tokens_eq).map _

theorem declaredVars_eq {buildArgs lines : List String} (plain : ∀ line ∈ lines, PlainArg line) :
    declaredVars buildArgs lines = buildVars buildArgs lines := by
  have defaults_eq : argDefaults (lines.filter (hasKeyword "ARG")) = argDefaults lines := by
    rw [argDefaults, argDefaults, List.foldl_filter]
    refine List.foldl_ext _ _ _ fun vars line member => ?_
    dsimp only
    split
    · rfl
    · rename_i other
      split
      · rename_i starts
        rcases plain line member starts with keyword | no_default
        · exact absurd keyword other
        · have free : '=' ∉
              (trim (String.ofList ((trim line).toList.drop 3))).toList := by
            intro inside
            have in_drop := mem_of_mem_trim inside
            rw [String.toList_ofList] at in_drop
            exact no_default (mem_of_mem_trim (List.mem_of_mem_drop in_drop))
          rw [splitOnce_eq_none_iff.mpr free]
      · rfl
  rw [declaredVars, buildVars, buildVars, defaults_eq]

theorem substituteBuildArgs_of_ascii {text : String} (vars : HashMap String String)
    (ascii : ∀ char, Piece.copied char ∈ pieces text → char.toNat < 128) :
    substituteBuildArgs text vars = referenceSubstitution text vars := by
  rw [substituteBuildArgs_eq, referenceSubstitution]
  refine congrArg String.ofList (List.flatMap_congr fun piece member => ?_)
  cases piece with
  | copied char =>
      have plain : (Piece.copied char).Plain := ascii char member
      exact Piece.emitted_of_plain vars plain
  | braced name => rfl
  | named name => rfl

theorem withAlias_cons (aliases : List String) (keyword : String) (words : List String) :
    withAlias aliases (keyword :: words) =
      ((stageName words).map asciiLower).toList ++ aliases := by
  rcases words with _ | ⟨base, _ | ⟨clause, _ | ⟨stage, words⟩⟩⟩
  · rfl
  · rfl
  · rfl
  · simp only [withAlias, stageName]
    split
    · rfl
    · rfl

/-- The scan of a plain line goes by the instruction. -/
theorem baseImagesFrom_cons {line : String} (plain : PlainFrom line)
    (vars : HashMap String String) (aliases pulled lines : List String) :
    baseImagesFrom vars aliases pulled (line :: lines) =
      match fromInstruction line with
      | none => baseImagesFrom vars aliases pulled lines
      | some ⟨base, stage⟩ =>
          let ref := referenceSubstitution base vars
          let aliases := (stage.map asciiLower).toList ++ aliases
          if isSkipped ref aliases pulled then baseImagesFrom vars aliases pulled lines
          else ref :: baseImagesFrom vars aliases (asciiLower ref :: pulled) lines := by
  rw [baseImagesFrom, fromInstruction]
  by_cases starts : startsWith (asciiUpper (trim line)) "FROM" = true
  · rw [if_pos starts]
    have plain_line := plain starts
    by_cases keyword : hasKeyword "FROM" line = true
    · rw [if_pos keyword]
      dsimp only
      rcases words_eq : tokens (trim line) with _ | ⟨word, _ | ⟨base, words⟩⟩
      · rfl
      · rfl
      · have word_plain : isFlag base = false ∧
            ∀ char, Piece.copied char ∈ pieces base → char.toNat < 128 := by
          rcases plain_line with short | ⟨-, word_plain⟩
          · simp [words_eq] at short
          · exact word_plain base (by simp [words_eq])
        have no_flags : (base :: words).dropWhile isFlag = base :: words :=
          List.dropWhile_cons_of_neg (by simp [word_plain.1])
        have base_eq := substituteBuildArgs_of_ascii vars word_plain.2
        simp only [withAlias_cons, List.getElem?_cons_succ, List.getElem?_cons_zero,
          Option.getD_some, base_eq, List.tail_cons, no_flags, List.head?_cons]
    · rw [if_neg keyword]
      dsimp only
      have short : (tokens (trim line)).length ≤ 1 := by
        rcases plain_line with short | ⟨is_keyword, -⟩
        · exact short
        · exact absurd is_keyword keyword
      rcases words_eq : tokens (trim line) with _ | ⟨word, _ | ⟨base, words⟩⟩
      · rfl
      · rfl
      · simp [words_eq] at short
  · rw [if_neg starts, if_neg (mt startsWith_of_hasKeyword starts)]

/-! ## The set of images -/

theorem isSkipped_iff {ref : String} {aliases pulled : List String} :
    isSkipped ref aliases pulled = true ↔
      ¬namesImage ref = true ∨ asciiLower ref ∈ pulled ∨ asciiLower ref ∈ aliases := by
  simp only [isSkipped, namesImage, Bool.or_eq_true, Bool.and_eq_true, decide_eq_true_eq,
    Bool.not_eq_true', ← Bool.not_eq_true (startsWith ref "$")]
  tauto

/-- The scan pulls what an instruction needs, unless it gives this name to its own stage. -/
theorem exists_need_of_mem {vars : HashMap String String} {lines : List String} {ref : String}
    (plain : ∀ line ∈ lines, PlainFrom line) :
    ∀ {aliases pulled : List String}, ref ∈ baseImagesFrom vars aliases pulled lines →
      ∃ stage, (ref, stage) ∈ needsFrom vars aliases (lines.filterMap fromInstruction) ∧
        stage.map asciiLower ≠ some (asciiLower ref) := by
  induction lines with
  | nil => simp [baseImagesFrom]
  | cons line lines ih =>
      obtain ⟨line_plain, rest_plain⟩ := List.forall_mem_cons.mp plain
      intro aliases pulled member
      rw [baseImagesFrom_cons line_plain] at member
      cases read : fromInstruction line with
      | none =>
          rw [read] at member
          rw [List.filterMap_cons_none read]
          exact ih rest_plain member
      | some instruction =>
          obtain ⟨base, stage⟩ := instruction
          rw [read] at member
          rw [List.filterMap_cons_some read, needsFrom]
          dsimp only at member ⊢
          split at member
          · obtain ⟨own, need, different⟩ := ih rest_plain member
            refine ⟨own, ?_, different⟩
            split
            · exact List.mem_cons_of_mem _ need
            · exact need
          · rename_i kept
            simp only [isSkipped_iff, not_or, not_not, List.mem_append, Option.mem_toList] at kept
            obtain ⟨names, -, unnamed, fresh⟩ := kept
            rw [if_pos ⟨names, fresh⟩]
            rcases List.mem_cons.mp member with rfl | member
            · exact ⟨stage, List.mem_cons_self .., unnamed⟩
            · obtain ⟨own, need, different⟩ := ih rest_plain member
              exact ⟨own, List.mem_cons_of_mem _ need, different⟩

/-- Something that differs at most in case from what an instruction needs is pulled. -/
theorem exists_pulled_of_need {vars : HashMap String String} {lines : List String}
    {ref : String} {stage : Option String} (plain : ∀ line ∈ lines, PlainFrom line)
    (different : stage.map asciiLower ≠ some (asciiLower ref)) :
    ∀ {aliases pulled : List String},
      (ref, stage) ∈ needsFrom vars aliases (lines.filterMap fromInstruction) →
        asciiLower ref ∈ pulled ∨
          ∃ image ∈ baseImagesFrom vars aliases pulled lines,
            asciiLower image = asciiLower ref := by
  induction lines with
  | nil => simp [needsFrom]
  | cons line lines ih =>
      obtain ⟨line_plain, rest_plain⟩ := List.forall_mem_cons.mp plain
      intro aliases pulled need
      rw [baseImagesFrom_cons line_plain]
      cases read : fromInstruction line with
      | none =>
          rw [List.filterMap_cons_none read] at need
          exact ih rest_plain need
      | some instruction =>
          obtain ⟨base, own⟩ := instruction
          rw [List.filterMap_cons_some read, needsFrom] at need
          dsimp only at need ⊢
          generalize referenceSubstitution base vars = first at need ⊢
          have here_or_later : (namesImage first = true ∧ asciiLower first ∉ aliases ∧
              ref = first ∧ stage = own) ∨
              (ref, stage) ∈ needsFrom vars ((own.map asciiLower).toList ++ aliases)
                (lines.filterMap fromInstruction) := by
            split at need
            · rename_i needed
              rcases List.mem_cons.mp need with same | later
              · obtain ⟨rfl, rfl⟩ := Prod.mk.inj same
                exact .inl ⟨needed.1, needed.2, rfl, rfl⟩
              · exact .inr later
            · exact .inr need
          split
          · rename_i skipped
            rcases here_or_later with ⟨names, fresh, rfl, rfl⟩ | later
            · rcases isSkipped_iff.mp skipped with unnamed | earlier | named
              · exact absurd names unnamed
              · exact .inl earlier
              · rw [List.mem_append, Option.mem_toList] at named
                exact absurd (named.resolve_right fresh) different
            · exact ih rest_plain later
          · rcases here_or_later with ⟨-, -, rfl, -⟩ | later
            · exact .inr ⟨ref, List.mem_cons_self .., rfl⟩
            · rcases ih rest_plain later with earlier | ⟨image, member, same⟩
              · rcases List.mem_cons.mp earlier with same | earlier
                · exact .inr ⟨first, List.mem_cons_self .., same.symm⟩
                · exact .inl earlier
              · exact .inr ⟨image, List.mem_cons_of_mem _ member, same⟩

/-- The set of images that are pulled is the set that is needed exactly when every image is needed
by a stage that is not named after it, and no two images that are needed differ in case only. -/
theorem baseImages_eq_needs_iff {buildArgs : List String} {content : String}
    (from_plain : ∀ line ∈ lines content, PlainFrom line)
    (arg_plain : ∀ line ∈ lines content, PlainArg line) :
    (∀ ref, ref ∈ baseImages buildArgs content ↔ Needed buildArgs content ref) ↔
      (∀ ref, Needed buildArgs content ref →
        ∃ stage, (ref, stage) ∈ needs buildArgs content ∧
          stage.map asciiLower ≠ some (asciiLower ref)) ∧
      ∀ ref other, Needed buildArgs content ref → Needed buildArgs content other →
        asciiLower ref = asciiLower other → ref = other := by
  have pulled_needed : ∀ ref ∈ baseImages buildArgs content,
      ∃ stage, (ref, stage) ∈ needs buildArgs content ∧
        stage.map asciiLower ≠ some (asciiLower ref) := by
    intro ref member
    rw [needs, declaredVars_eq arg_plain]
    exact exists_need_of_mem from_plain member
  have needed_pulled : ∀ ref stage, (ref, stage) ∈ needs buildArgs content →
      stage.map asciiLower ≠ some (asciiLower ref) →
        ∃ image ∈ baseImages buildArgs content, asciiLower image = asciiLower ref := by
    intro ref stage need different
    rw [needs, declaredVars_eq arg_plain] at need
    have pulled := @exists_pulled_of_need _ _ _ _ from_plain different [] [] need
    exact pulled.resolve_left List.not_mem_nil
  constructor
  · intro same_set
    refine ⟨fun ref need => pulled_needed ref ((same_set ref).mpr need), ?_⟩
    intro ref other need other_need same
    exact List.inj_on_of_nodup_map (nodup_baseImages buildArgs content)
      ((same_set ref).mpr need) ((same_set other).mpr other_need) same
  · rintro ⟨unnamed, cases_apart⟩ ref
    constructor
    · intro member
      obtain ⟨stage, need, -⟩ := pulled_needed ref member
      exact ⟨stage, need⟩
    · intro need
      obtain ⟨stage, unnamed_need, different⟩ := unnamed ref need
      obtain ⟨image, member, same⟩ := needed_pulled ref stage unnamed_need different
      obtain ⟨image_stage, image_need, -⟩ := pulled_needed image member
      rwa [cases_apart ref image need ⟨image_stage, image_need⟩ same.symm]

theorem plainFrom_of_ascii {line : String} (keyword : hasKeyword "FROM" line = true)
    (word_plain : ∀ base ∈ (tokens (trim line))[1]?,
      isFlag base = false ∧ base.toList.Forall (·.toNat < 128)) : PlainFrom line := by
  refine fun _ => .inr ⟨keyword, fun base second => ?_⟩
  obtain ⟨not_flag, ascii⟩ := word_plain base second
  exact ⟨not_flag, fun char copied =>
    List.forall_iff_forall_mem.mp ascii char (mem_of_copied copied)⟩

/-- A build in two stages; the first is the base of the second. -/
def twoStages : String := "FROM alpine AS tools\nFROM Tools"

theorem twoStages_pulled :
    baseImages [] twoStages = ["alpine"] ∧
      ∀ ref, ref ∈ baseImages [] twoStages ↔ Needed [] twoStages ref := by
  have lines_eq : lines twoStages = ["FROM alpine AS tools", "FROM Tools"] := by decide
  have needs_eq : needs [] twoStages = [("alpine", some "tools")] := by decide
  refine ⟨by decide, (baseImages_eq_needs_iff ?_ ?_).mpr ⟨?_, ?_⟩⟩
  · rw [lines_eq, List.forall_mem_cons, List.forall_mem_singleton]
    exact ⟨plainFrom_of_ascii (by decide) (by decide), plainFrom_of_ascii (by decide) (by decide)⟩
  · rw [lines_eq, List.forall_mem_cons, List.forall_mem_singleton]
    refine ⟨fun starts => ?_, fun starts => ?_⟩
    · revert starts
      decide
    · revert starts
      decide
  · rintro ref ⟨stage, need⟩
    refine ⟨stage, need, ?_⟩
    rw [needs_eq, List.mem_singleton] at need
    obtain ⟨rfl, rfl⟩ := Prod.mk.inj need
    decide
  · rintro ref other ⟨stage, need⟩ ⟨other_stage, other_need⟩ -
    rw [needs_eq, List.mem_singleton] at need other_need
    exact (Prod.mk.inj need).1.trans (Prod.mk.inj other_need).1.symm

/-- The flag is pulled, and the image is not. -/
theorem flag_pulled :
    ¬∀ ref, ref ∈ baseImages [] "FROM --platform=linux/amd64 alpine" ↔
      Needed [] "FROM --platform=linux/amd64 alpine" ref := by
  intro same_set
  have pulled : "--platform=linux/amd64" ∈ baseImages [] "FROM --platform=linux/amd64 alpine" := by
    decide
  have needs_eq : needs [] "FROM --platform=linux/amd64 alpine" = [("alpine", none)] := by decide
  obtain ⟨stage, need⟩ := (same_set _).mp pulled
  rw [needs_eq] at need
  simp at need

end Pelagos.Guest
