import Pelagos.Library.SymbolicLinks
import Pelagos.Wire.Handlers

/-!
# Copies out of a container

The guest cuts the source into a parent and a name for `tar -cC parent name`, and the archive
carries that name.  The host chooses only the directory in which it unpacks.
-/

namespace Pelagos.CommandLine

open FileTree LexicalPath
open Wire.Guest (dropTail parentOf fileName)

/-! ## The two halves -/

/-- The argument is an option of `tar`. -/
def isOption (argument : String) : Bool := Text.startsWith argument "-" && argument ≠ "-"

/-- What `tar -cC parent name` archives. -/
def archived (container : FileSystem) (parent name : String) : Option Place :=
  (container.chdir [] parent).bind fun dir =>
    if name = "." then some dir
    else if isOption name then none
    else if (container.entry (name :: dir)).isSome then some (name :: dir) else none

/-- What the members of the archive are put under. -/
def memberRoot (name : String) : Place := if name = "." then [] else [name]

/-- `Path::parent`. -/
def pathParent (path : String) : Option String :=
  let trimmed := dropTail path.toList.reverse
  if trimmed = [] ∨ trimmed = ['/'] then none
  else some (String.ofList (dropTail (trimmed.dropWhile (· ≠ '/'))).reverse)

/-- The directory in which `cp_from_command` lets `tar` unpack. -/
def unpackDir (host : FileSystem) (workingDir : Place) (localDst : String) : Option Place :=
  let dstDir :=
    if (host.chdir workingDir localDst).isSome then localDst else (pathParent localDst).getD "."
  host.chdir workingDir dstDir

/-- The files of the host when the command returns 0. -/
def cpFromCommand (container host : FileSystem) (tar : Unpacker Content) (workingDir : Place)
    (src localDst : String) : Option (Files Content) :=
  (archived container (parentOf src) (fileName src)).bind fun object =>
    (unpackDir host workingDir localDst).bind fun dir =>
      tar.run host.toFiles (memberRoot (fileName src) ++ dir) (container.below object)

/-! ## Where the copy is asked for -/

/-- The place below an existing directory, or the destination itself, if its parent exists. -/
def destination (host : FileSystem) (workingDir : Place) (src localDst : String) : Option Place :=
  match host.chdir workingDir localDst with
  | some dir => some ((lastName src).toList ++ dir)
  | none =>
      let parent := (pathParent localDst).getD "."
      (host.chdir workingDir (if parent = "" then "." else parent)).bind fun dir =>
        (lastName localDst).map fun name => name :: dir

/-- The arguments of `tar` denote the object, and if the command returns 0, the object is at its
destination. -/
def CopiedOut (container host : FileSystem) (tar : Unpacker Content) (workingDir : Place)
    (src localDst : String) (object place : Place) : Prop :=
  archived container (parentOf src) (fileName src) = some object ∧
    ∀ after, cpFromCommand container host tar workingDir src localDst = some after →
      after.Holds place (container.below object)

/-! ## Parents and names -/

theorem body_concat_separator (chars : List Char) :
    body (String.ofList (chars ++ ['/'])) = body (String.ofList chars) := by
  have parts := body_append (String.ofList chars) ""
  have nothing : body "" = [] := by decide
  rw [nothing, List.append_nil] at parts
  rw [← parts]
  exact congrArg body (String.toList_inj.mp (by simp))

theorem body_concat_dot (chars : List Char) :
    body (String.ofList (chars ++ ['/', '.'])) = body (String.ofList chars) := by
  have parts := body_append (String.ofList chars) "."
  have nothing : body "." = [] := by decide
  rw [nothing, List.append_nil] at parts
  rw [← parts]
  exact congrArg body (String.toList_inj.mp (by simp))

/-- The end of a path that Rust leaves out does not matter for its components. -/
theorem dropTail_spec {rev : List Char} (nonempty : rev ≠ []) :
    dropTail rev ≠ [] ∧ ((dropTail rev).getLast? = some '/' ↔ rev.getLast? = some '/') ∧
      body (String.ofList (dropTail rev).reverse) = body (String.ofList rev.reverse) ∧
      (dropTail rev = ['/'] ∨
        (dropTail rev).head? ≠ some '/' ∧ ¬['.', '/'] <+: dropTail rev) := by
  fun_induction dropTail rev with
  | case1 => simp
  | case2 rest not_root ih =>
      have rest_nonempty : rest ≠ [] := fun empty => not_root (by rw [empty])
      obtain ⟨some_left, absolute_iff, body_eq, ends⟩ := ih rest_nonempty
      refine ⟨some_left, ?_, ?_, ends⟩
      · rw [absolute_iff, List.getLast?_cons_of_ne_nil rest_nonempty]
      · rw [body_eq, List.reverse_cons, body_concat_separator]
  | case3 rest ih =>
      obtain ⟨some_left, absolute_iff, body_eq, ends⟩ := ih (by simp)
      refine ⟨some_left, ?_, ?_, ends⟩
      · rw [absolute_iff, List.getLast?_cons_cons]
      · rw [body_eq, List.reverse_cons, List.reverse_cons, List.reverse_cons,
          body_concat_separator, List.append_assoc]
        exact (body_concat_dot _).symm
  | case4 rev not_root not_separator not_dot =>
      refine ⟨nonempty, Iff.rfl, rfl, .inr ⟨?_, ?_⟩⟩
      · intro head
        obtain ⟨rest, rfl⟩ := List.head?_eq_some_iff.mp head
        exact not_separator rest rfl
      · rintro ⟨rest, rfl⟩
        exact not_dot rest rfl

theorem body_of_free {name : List Char} (free : '/' ∉ name) :
    body (String.ofList name) = (component? name).toList := by
  rw [body, String.toList_ofList, List.splitOn_eq_singleton free]
  cases named : component? name with
  | none => simp [named]
  | some part => simp [named]

/-- What stands behind the last separator that counts is a component. -/
theorem component?_ne_none {trimmed name above : List Char} (visible : trimmed.head? ≠ some '/')
    (not_dot : ¬['.', '/'] <+: trimmed) (trimmed_eq : trimmed = name ++ '/' :: above) :
    component? name.reverse ≠ none := by
  have name_nonempty : name ≠ [] := by
    rintro rfl
    exact visible (by rw [trimmed_eq]; rfl)
  have not_single_dot : name ≠ ['.'] := by
    rintro rfl
    exact not_dot ⟨above, by rw [trimmed_eq]; rfl⟩
  have proper : ¬(name.reverse = [] ∨ name.reverse = ['.']) := by
    simpa [List.reverse_eq_iff] using ⟨name_nonempty, not_single_dot⟩
  rw [component?, if_neg proper]
  split
  · simp
  · simp

/-- What stands behind the last separator that counts is the last component. -/
theorem component?_of_trimmed {trimmed name rest : List Char} {parts : List Component}
    {part : Component} (visible : trimmed.head? ≠ some '/') (not_dot : ¬['.', '/'] <+: trimmed)
    (trimmed_eq : trimmed = name ++ rest) (free : '/' ∉ name.reverse)
    (stops : rest = [] ∨ ∃ above, rest = '/' :: above)
    (body_eq : body (String.ofList trimmed.reverse) = parts ++ [part]) :
    component? name.reverse = some part ∧ (rest = [] ∧ parts = [] ∨
      ∃ above, rest = '/' :: above ∧ body (String.ofList above.reverse) = parts) := by
  have name_body := body_of_free free
  rcases stops with rfl | ⟨above, rfl⟩
  · have one_part : (component? name.reverse).toList = parts ++ [part] := by
      rw [← name_body, ← body_eq, trimmed_eq, List.append_nil]
    cases named : component? name.reverse with
    | none => simp [named] at one_part
    | some other =>
        rw [named, Option.toList_some, ← List.nil_append [other]] at one_part
        obtain ⟨nil_eq, same⟩ := List.append_inj' one_part rfl
        exact ⟨by rw [List.singleton_inj.mp same], .inl ⟨rfl, nil_eq.symm⟩⟩
  · have parts_eq : body (String.ofList above.reverse) ++ (component? name.reverse).toList =
        parts ++ [part] := by
      rw [← name_body, ← body_eq, trimmed_eq, ← body_append]
      exact congrArg body (String.toList_inj.mp (by simp))
    obtain ⟨other, named⟩ :=
      Option.ne_none_iff_exists'.mp (component?_ne_none visible not_dot trimmed_eq)
    rw [named, Option.toList_some] at parts_eq
    obtain ⟨above_eq, same⟩ := List.append_inj' parts_eq rfl
    exact ⟨by rw [named, List.singleton_inj.mp same], .inr ⟨above, rfl, above_eq⟩⟩

/-- A path with a component, cut in front of it. -/
theorem dropTail_cut {path : String} {parts : List Component} {part : Component}
    (body_eq : body path = parts ++ [part]) :
    let trimmed := dropTail path.toList.reverse
    trimmed ≠ [] ∧ trimmed ≠ ['/'] ∧
      component? (trimmed.takeWhile (· ≠ '/')).reverse = some part ∧
      (trimmed.dropWhile (· ≠ '/') = [] ∧ parts = [] ∧ isAbsolute path = false ∨
        ∃ above, trimmed.dropWhile (· ≠ '/') = '/' :: above ∧
          body (String.ofList above.reverse) = parts ∧
            (isAbsolute path = true ↔ above = [] ∨ above.getLast? = some '/')) := by
  intro trimmed
  have nonempty : path.toList.reverse ≠ [] := by
    intro empty
    have none_left : path = "" := by simpa using empty
    rw [none_left] at body_eq
    have nothing : body "" = [] := by decide
    simp [nothing] at body_eq
  obtain ⟨some_left, absolute_iff, trimmed_body, ends⟩ := dropTail_spec nonempty
  rw [List.reverse_reverse, String.ofList_toList, body_eq] at trimmed_body
  have absolute_eq : isAbsolute path = true ↔ trimmed.getLast? = some '/' := by
    rw [absolute_iff, List.getLast?_reverse, isAbsolute, beq_iff_eq]
  have not_root : trimmed ≠ ['/'] := by
    intro root
    have nothing : body (String.ofList ['/']) = [] := by decide
    have root_body : [] = parts ++ [part] := by
      rw [← trimmed_body, show dropTail path.toList.reverse = ['/'] from root]
      exact nothing.symm
    simp at root_body
  obtain ⟨visible, not_dot⟩ := ends.resolve_left not_root
  refine ⟨some_left, not_root, ?_⟩
  have trimmed_eq : trimmed = trimmed.takeWhile (· ≠ '/') ++ trimmed.dropWhile (· ≠ '/') :=
    List.takeWhile_append_dropWhile.symm
  have free : '/' ∉ (trimmed.takeWhile (· ≠ '/')).reverse := by
    intro member
    have different := List.mem_takeWhile_imp (List.mem_reverse.mp member)
    simp at different
  have stops : trimmed.dropWhile (· ≠ '/') = [] ∨
      ∃ above, trimmed.dropWhile (· ≠ '/') = '/' :: above := by
    have head := List.head?_dropWhile_not (· ≠ '/') trimmed
    cases rest_eq : trimmed.dropWhile (· ≠ '/') with
    | nil => exact .inl rfl
    | cons separator above =>
        rw [rest_eq] at head
        obtain rfl : separator = '/' := by simpa using head
        exact .inr ⟨above, rfl⟩
  obtain ⟨named, cut⟩ :=
    component?_of_trimmed visible not_dot trimmed_eq free stops trimmed_body
  refine ⟨named, ?_⟩
  rcases cut with ⟨nothing, rfl⟩ | ⟨above, rest_eq, above_body⟩
  · refine .inl ⟨nothing, rfl, ?_⟩
    rw [← Bool.not_eq_true, absolute_eq, trimmed_eq, nothing, List.append_nil]
    intro ending
    exact free (List.mem_reverse.mpr (List.mem_of_getLast? ending))
  · refine .inr ⟨above, rest_eq, above_body, ?_⟩
    rw [absolute_eq, trimmed_eq, rest_eq, List.getLast?_append_cons]
    cases above with
    | nil => simp
    | cons first above => simp [List.getLast?_cons_cons]

/-- What is left in front of the last component. -/
theorem parent_of_body {path : String} {parts : List Component} {part : Component}
    (body_eq : body path = parts ++ [part]) :
    let parent := String.ofList
      (dropTail ((dropTail path.toList.reverse).dropWhile (· ≠ '/'))).reverse
    body parent = parts ∧ isAbsolute parent = isAbsolute path := by
  intro parent
  obtain ⟨-, -, -, cut⟩ := dropTail_cut body_eq
  rcases cut with ⟨nothing, rfl, relative⟩ | ⟨above, rest_eq, above_body, absolute_iff⟩
  · have parent_eq : parent = "" := by
      simp only [parent, nothing]
      rfl
    rw [parent_eq, relative]
    exact ⟨by decide, rfl⟩
  · obtain ⟨-, ends_iff, rest_body, -⟩ := @dropTail_spec ('/' :: above) (by simp)
    have parent_eq : parent = String.ofList (dropTail ('/' :: above)).reverse := by
      simp only [parent, rest_eq]
    rw [parent_eq]
    refine ⟨?_, ?_⟩
    · rw [rest_body, List.reverse_cons, body_concat_separator, above_body]
    · rw [Bool.eq_iff_iff, absolute_iff, isAbsolute, String.toList_ofList, List.head?_reverse,
        beq_iff_eq, ends_iff]
      cases above with
      | nil => simp
      | cons first above => simp [List.getLast?_cons_cons]

theorem pathParent_of_body {path : String} {parts : List Component} {part : Component}
    (body_eq : body path = parts ++ [part]) :
    ∃ parent, pathParent path = some parent ∧ body parent = parts ∧
      isAbsolute parent = isAbsolute path := by
  obtain ⟨some_left, not_root, -⟩ := dropTail_cut body_eq
  refine ⟨_, ?_, parent_of_body body_eq⟩
  rw [pathParent]
  simp [some_left, not_root]

theorem parentOf_of_body {path : String} {parts : List Component} {part : Component}
    (absolute : isAbsolute path = true) (body_eq : body path = parts ++ [part]) :
    body (parentOf path) = parts ∧ isAbsolute (parentOf path) = true := by
  obtain ⟨parent_body, parent_absolute⟩ := parent_of_body body_eq
  rw [absolute] at parent_absolute
  have nonempty : dropTail ((dropTail path.toList.reverse).dropWhile (· ≠ '/')) ≠ [] := by
    intro empty
    rw [empty] at parent_absolute
    exact absurd parent_absolute (by decide)
  rw [parentOf, if_neg nonempty]
  exact ⟨parent_body, parent_absolute⟩

/-- What `tar` is given for a last component. -/
def nameOf : Component → String
  | .normal name => name
  | _ => "."

theorem fileName_of_body {path : String} {parts : List Component} {part : Component}
    (body_eq : body path = parts ++ [part]) :
    fileName path = nameOf part := by
  obtain ⟨-, -, named, -⟩ := dropTail_cut body_eq
  rw [fileName]
  generalize ((dropTail path.toList.reverse).takeWhile (· ≠ '/')).reverse = piece at named ⊢
  rw [component?] at named
  split at named
  · cases named
  · rename_i proper
    split at named
    · rename_i dots
      obtain rfl := Option.some.inj named
      rw [dots]
      rfl
    · rename_i not_dots
      obtain rfl := Option.some.inj named
      have not_special : ¬(String.ofList piece = "" ∨ String.ofList piece = "." ∨
          String.ofList piece = "..") := by
        rintro (same | same | same)
        · exact proper (.inl (by simpa using congrArg String.toList same))
        · exact proper (.inr (by simpa using congrArg String.toList same))
        · exact not_dots (by simpa using congrArg String.toList same)
      exact if_neg not_special

theorem root_of_body {path : String} (absolute : isAbsolute path = true)
    (body_eq : body path = []) : parentOf path = "/" ∧ fileName path = "." := by
  have nonempty : path.toList.reverse ≠ [] := by
    intro empty
    have none_left : path = "" := by simpa using empty
    rw [none_left] at absolute
    exact absurd absolute (by decide)
  obtain ⟨-, absolute_iff, trimmed_body, ends⟩ := dropTail_spec nonempty
  rw [List.reverse_reverse, String.ofList_toList, body_eq] at trimmed_body
  have root : dropTail path.toList.reverse = ['/'] := by
    by_contra not_root
    obtain ⟨visible, not_dot⟩ := ends.resolve_left not_root
    have ending : (dropTail path.toList.reverse).getLast? = some '/' := by
      rw [absolute_iff, List.getLast?_reverse]
      exact beq_iff_eq.mp absolute
    obtain ⟨name, above, trimmed_eq, free⟩ :=
      List.eq_append_cons_of_mem (List.mem_of_getLast? ending)
    have proper := component?_ne_none visible not_dot trimmed_eq
    have parts_eq := body_append (String.ofList above.reverse) (String.ofList name.reverse)
    have whole_eq : String.ofList (dropTail path.toList.reverse).reverse =
        String.ofList above.reverse ++ "/" ++ String.ofList name.reverse :=
      String.toList_inj.mp (by simp [trimmed_eq])
    have name_body := @body_of_free name.reverse (by simpa using free)
    rw [whole_eq, parts_eq, name_body, List.append_eq_nil_iff,
      Option.toList_eq_nil_iff] at trimmed_body
    exact proper trimmed_body.2
  rw [parentOf, fileName, root]
  exact ⟨by decide, by decide⟩

/-! ## What the arguments of `tar` denote -/

/-- The source ends with a name that is no option, with no separator behind a symbolic link, or it
names the root. -/
def NamedForTar (container : FileSystem) (src : String) : Prop :=
  match (body src).getLast? with
  | none => True
  | some (.normal name) =>
      isOption name = false ∧
        (endsInSlash src = true →
          ∀ dir, container.walk [] (body src).dropLast = some dir →
            ∀ target, container.entry (name :: dir) ≠ some (.leaf (.link target)))
  | some _ => container.walk [] (body src).dropLast = some []

theorem nonempty_of_isAbsolute {path : String} (absolute : isAbsolute path = true) : path ≠ "" := by
  rintro rfl
  exact absurd absolute (by decide)

theorem chdir_of_nonempty {fs : FileSystem} {workingDir : Place} {path : String}
    (nonempty : path ≠ "") :
    fs.chdir workingDir path =
      (fs.walk (origin workingDir path) (body path)).filter fun place =>
        fs.entry place = some .directory :=
  if_neg nonempty

theorem walk_concat {fs : FileSystem} {place : Place} {parts : List Component} {part : Component} :
    fs.walk place (parts ++ [part]) = (fs.walk place parts).bind fun dir => fs.enter dir part := by
  simp [FileSystem.walk, List.foldlM_append]

theorem ne_dot_of_normal {path name : String} (member : Component.normal name ∈ body path) :
    name ≠ "." := by
  rintro rfl
  have text_eq := body_text member
  have nothing : body (Component.normal ".").text = [] := by decide
  rw [nothing] at text_eq
  cases text_eq

theorem origin_root (path : String) : origin [] path = [] := by
  rw [origin]
  split
  · rfl
  · rfl

/-- The directory in front of the last component. -/
theorem chdir_parentOf {container : FileSystem} {src : String} {parts : List Component}
    {part : Component} (absolute : isAbsolute src = true) (body_eq : body src = parts ++ [part]) :
    container.chdir [] (parentOf src) =
      (container.walk [] parts).filter fun place => container.entry place = some .directory := by
  obtain ⟨parent_body, parent_absolute⟩ := parentOf_of_body absolute body_eq
  rw [chdir_of_nonempty (nonempty_of_isAbsolute parent_absolute), origin_root, parent_body]

theorem archived_normal_iff {container : FileSystem} {src name : String} {object : Place}
    {parts : List Component} (absolute : isAbsolute src = true)
    (body_eq : body src = parts ++ [.normal name])
    (found : container.named [] src = some object) :
    archived container (parentOf src) (fileName src) = some object ↔
      isOption name = false ∧
        (endsInSlash src = true → ∀ dir, container.walk [] parts = some dir →
          ∀ target, container.entry (name :: dir) ≠ some (.leaf (.link target))) := by
  have not_dot : name ≠ "." := @ne_dot_of_normal src name (by simp [body_eq])
  rw [FileSystem.named, body_eq, List.getLast?_concat, List.dropLast_concat, origin_root] at found
  obtain ⟨dir, walked, found⟩ := Option.bind_eq_some_iff.mp found
  split at found
  · rename_i stands
    obtain ⟨directory, present⟩ := stands
    have file_name : fileName src = name := fileName_of_body body_eq
    rw [archived, chdir_parentOf absolute body_eq, file_name, walked]
    simp only [Option.filter_some, directory, decide_true, if_true, Option.bind_some, not_dot,
      if_false, present, Option.some.injEq, forall_eq']
    cases option : isOption name with
    | true => simp
    | false =>
        simp only [Bool.false_eq_true, if_false, Option.some.injEq, true_and]
        split at found
        · rename_i slash
          obtain ⟨leads, is_directory⟩ := Option.filter_eq_some_iff.mp found
          rw [decide_eq_true_eq] at is_directory
          rw [imp_iff_right slash]
          constructor
          · rintro rfl target is_link
            rw [is_directory] at is_link
            cases is_link
          · intro no_link
            obtain ⟨stands, entry_eq⟩ := Option.isSome_iff_exists.mp present
            have itself := container.leads_self entry_eq fun target same =>
              no_link target (by rw [entry_eq, same])
            exact Option.some.inj (itself.symm.trans leads)
        · rename_i no_slash
          exact iff_of_true (Option.some.inj found) fun slash => absurd slash no_slash
  · cases found

theorem archived_iff {container : FileSystem} {src : String} {object : Place}
    (absolute : isAbsolute src = true) (found : container.named [] src = some object) :
    archived container (parentOf src) (fileName src) = some object ↔ NamedForTar container src := by
  rcases List.eq_nil_or_concat' (body src) with empty | ⟨parts, part, body_eq⟩
  · obtain ⟨parent_eq, name_eq⟩ := root_of_body absolute empty
    rw [FileSystem.named, empty, List.getLast?_nil] at found
    dsimp only at found
    rw [chdir_of_nonempty (nonempty_of_isAbsolute absolute), origin_root, empty] at found
    have root_chdir : container.chdir [] "/" = some object := found
    rw [NamedForTar, empty, archived, parent_eq, name_eq, root_chdir]
    exact iff_of_true rfl trivial
  · rw [NamedForTar, body_eq, List.getLast?_concat, List.dropLast_concat]
    cases part with
    | normal name => exact archived_normal_iff absolute body_eq found
    | parentDir =>
        have name_eq : fileName src = "." := fileName_of_body body_eq
        rw [FileSystem.named, body_eq, List.getLast?_concat] at found
        dsimp only at found
        rw [chdir_of_nonempty (nonempty_of_isAbsolute absolute), origin_root, body_eq, walk_concat,
          Option.filter_eq_some_iff] at found
        obtain ⟨dir, walked, entered⟩ := Option.bind_eq_some_iff.mp found.1
        unfold FileSystem.enter at entered
        split at entered
        · rename_i directory
          obtain rfl : dir.tail = object := Option.some.inj entered
          rw [archived, chdir_parentOf absolute body_eq, name_eq, walked]
          simp only [Option.filter_some, directory, decide_true, if_true, Option.bind_some,
            Option.some.injEq]
          cases dir with
          | nil => simp
          | cons top dir => simp
        · cases entered
    | rootDir =>
        have proper := @body_proper src .rootDir (by simp [body_eq])
        simp at proper
    | curDir =>
        have proper := @body_proper src .curDir (by simp [body_eq])
        simp at proper

/-! ## Where the copy lands -/

theorem memberRoot_fileName {src : String} (absolute : isAbsolute src = true) :
    memberRoot (fileName src) = (lastName src).toList := by
  rcases List.eq_nil_or_concat' (body src) with empty | ⟨parts, part, body_eq⟩
  · rw [(root_of_body absolute empty).2, lastName, empty]
    rfl
  · rw [fileName_of_body body_eq, lastName, body_eq, List.getLast?_concat]
    cases part with
    | normal name =>
        have not_dot : name ≠ "." := @ne_dot_of_normal src name (by simp [body_eq])
        exact if_neg not_dot
    | parentDir => rfl
    | rootDir => rfl
    | curDir => rfl

/-- What stands at the destination when `tar` has unpacked next to it. -/
theorem holds_destination_iff {host : FileSystem} {tar : Unpacker Content}
    {object after : Files Content} {dir : Place} {name : String} {srcName : Option String}
    (fresh : host.entry (name :: dir) ≠ some .directory)
    (top : srcName = none → object.entry [] = some .directory)
    (unpacked : tar.run host.toFiles (srcName.toList ++ dir) object = some after) :
    after.Holds (name :: dir) object ↔
      some name = srcName ∨ host.toFiles.Holds (name :: dir) object := by
  cases srcName with
  | none =>
      have here := tar.not_holds_inside (top rfl) fresh unpacked
      have before : ¬host.toFiles.Holds (name :: dir) object :=
        fun holds => fresh (holds [] .directory (top rfl))
      simp [here, before]
  | some own =>
      by_cases same : name = own
      · subst same
        exact iff_of_true (tar.written unpacked) (.inl rfl)
      · rw [Option.some.injEq, or_iff_right same]
        have untouched : ∀ rel,
            after.entry (rel ++ name :: dir) = host.entry (rel ++ name :: dir) := by
          refine fun rel => tar.kept unpacked _ fun other _ equal => same ?_
          rw [Option.toList_some, List.singleton_append, List.append_cons,
            List.append_cons other] at equal
          have tops := List.append_inj' (List.append_cancel_right equal) rfl
          exact List.singleton_inj.mp tops.2
        simp only [Files.Holds, untouched]

/-- A directory below the parent is one that the path leads to. -/
theorem not_directory_of_chdir {host : FileSystem} {workingDir dir : Place}
    {path parent name : String} {parts : List Component}
    (body_eq : body path = parts ++ [.normal name]) (parent_body : body parent = parts)
    (parent_absolute : isAbsolute parent = isAbsolute path)
    (nonempty : parent ≠ "") (parent_dir : host.chdir workingDir parent = some dir)
    (no_dir : host.chdir workingDir path = none) :
    host.entry (name :: dir) ≠ some .directory := by
  intro directory
  have path_nonempty : path ≠ "" := by
    rintro rfl
    have nothing : body "" = [] := by decide
    simp [nothing] at body_eq
  have origin_eq : origin workingDir parent = origin workingDir path := by
    rw [origin, origin, parent_absolute]
  rw [chdir_of_nonempty nonempty, parent_body, origin_eq, Option.filter_eq_some_iff,
    decide_eq_true_eq] at parent_dir
  obtain ⟨walked, dir_directory⟩ := parent_dir
  have itself := host.leads_self directory (fun target => by simp)
  have entered : host.enter dir (.normal name) = some (name :: dir) := by
    unfold FileSystem.enter
    simp [dir_directory, directory, itself]
  rw [chdir_of_nonempty path_nonempty, body_eq, walk_concat, walked, Option.bind_some, entered,
    Option.filter_some, directory] at no_dir
  simp at no_dir

theorem directory_of_nameless {container : FileSystem} {workingDir object : Place} {src : String}
    (found : container.named workingDir src = some object) (nameless : lastName src = none) :
    (container.below object).entry [] = some .directory := by
  have by_chdir : container.chdir workingDir src = some object := by
    rw [lastName] at nameless
    rw [FileSystem.named] at found
    cases last_eq : (body src).getLast? with
    | none => simpa only [last_eq] using found
    | some part =>
        cases part with
        | normal name => simp [last_eq] at nameless
        | parentDir => simpa only [last_eq] using found
        | rootDir => simpa only [last_eq] using found
        | curDir => simpa only [last_eq] using found
  rw [FileSystem.chdir] at by_chdir
  split at by_chdir
  · cases by_chdir
  · exact of_decide_eq_true (Option.filter_eq_some_iff.mp by_chdir).2

/-- The copy is what was asked for exactly when the arguments of `tar` denote the source, and the
destination is a directory or has the name of the source, unless it already holds the same, or
nothing is unpacked. -/
theorem copiedOut_iff {container host : FileSystem} {tar : Unpacker Content} {workingDir : Place}
    {src localDst : String} {object place : Place} (absolute : isAbsolute src = true)
    (found : container.named [] src = some object)
    (parent_exists : destination host workingDir src localDst = some place) :
    CopiedOut container host tar workingDir src localDst object place ↔
      NamedForTar container src ∧
        ((host.chdir workingDir localDst).isSome = true ∨ lastName localDst = lastName src ∨
          host.toFiles.Holds place (container.below object) ∨ pathParent localDst = some "" ∨
          ∃ dir, unpackDir host workingDir localDst = some dir ∧
            tar.run host.toFiles ((lastName src).toList ++ dir) (container.below object) =
              none) := by
  rw [CopiedOut, archived_iff absolute found]
  refine and_congr_right fun denotes => ?_
  have archive_eq := (archived_iff absolute found).mpr denotes
  rw [cpFromCommand, archive_eq, memberRoot_fileName absolute, Option.bind_some]
  cases is_dir : host.chdir workingDir localDst with
  | some dir =>
      refine iff_of_true (fun after copied => ?_) (.inl rfl)
      obtain ⟨target, target_eq, unpacked⟩ := Option.bind_eq_some_iff.mp copied
      obtain rfl : dir = target := by
        simpa only [unpackDir, is_dir, Option.isSome_some, if_true, Option.some.injEq]
          using target_eq
      obtain rfl : (lastName src).toList ++ dir = place := by
        simpa only [destination, is_dir, Option.some.injEq] using parent_exists
      exact tar.written unpacked
  | none =>
      simp only [destination, is_dir] at parent_exists
      obtain ⟨dir, parent_dir, placed⟩ := Option.bind_eq_some_iff.mp parent_exists
      obtain ⟨name, last_eq, rfl⟩ := Option.map_eq_some_iff.mp placed
      obtain ⟨parts, body_eq⟩ := body_of_lastName last_eq
      obtain ⟨parent, parent_eq, parent_body, parent_absolute⟩ := pathParent_of_body body_eq
      rw [parent_eq, Option.getD_some] at parent_dir
      have unpack_eq : unpackDir host workingDir localDst = host.chdir workingDir parent := by
        simp [unpackDir, is_dir, parent_eq]
      rw [unpack_eq, parent_eq, last_eq, Option.some.injEq]
      by_cases bare : parent = ""
      · have no_dir : host.chdir workingDir parent = none := if_pos bare
        rw [no_dir]
        exact iff_of_true (fun after copied => by cases copied) (.inr (.inr (.inr (.inl bare))))
      · rw [if_neg bare] at parent_dir
        rw [parent_dir, Option.bind_some]
        cases run_eq : tar.run host.toFiles ((lastName src).toList ++ dir)
            (container.below object) with
        | none =>
            refine iff_of_true (fun after copied => by cases copied) ?_
            exact .inr (.inr (.inr (.inr ⟨dir, rfl, run_eq⟩)))
        | some after =>
            have fresh := not_directory_of_chdir body_eq parent_body parent_absolute bare parent_dir
              is_dir
            have holds_iff := holds_destination_iff fresh (directory_of_nameless found) run_eq
            simp [holds_iff, run_eq, bare]

/-! ## The documented example -/

/-- One directory under the root, with at most one file. -/
def oneDirectory (top : String) (file : Option (String × List UInt8)) : FileSystem :=
  .ofFiles (.ofList
    ([([], .directory), ([top], .directory)] ++
      (file.map fun file => ([file.1, top], .leaf (.file file.2))).toList)
    (by
      cases file with
      | none => simp [Files.listed]
      | some file => simp [Files.listed])) 40

/-- The example of the help text. -/
theorem os_release_copied_out :
    CopiedOut (oneDirectory "etc" (some ("os-release", [65]))) (oneDirectory "tmp" none)
      overlaid [] "/etc/os-release" "/tmp/os-release" ["os-release", "etc"]
      ["os-release", "tmp"] := by
  refine (copiedOut_iff (by decide) (by decide) (by decide)).mpr ⟨?_, .inr (.inl (by decide))⟩
  have src_body : body "/etc/os-release" = [.normal "etc", .normal "os-release"] := by decide
  rw [NamedForTar, src_body]
  exact ⟨by decide, fun slash => absurd slash (by decide)⟩

/-- With another name for the copy, the file lands under its own name. -/
theorem new_name_is_lost :
    ¬CopiedOut (oneDirectory "etc" (some ("os-release", [65]))) (oneDirectory "tmp" none)
      overlaid [] "/etc/os-release" "/tmp/release" ["os-release", "etc"] ["release", "tmp"] := by
  rintro ⟨-, copied⟩
  have unpacks := @overlaid_vacant Content (oneDirectory "tmp" none).toFiles
    ((oneDirectory "etc" (some ("os-release", [65]))).below ["os-release", "etc"]) "os-release"
    ["tmp"] (by decide) (by decide)
  obtain ⟨after, unpacked⟩ := Option.isSome_iff_exists.mp unpacks
  have archive_eq : archived (oneDirectory "etc" (some ("os-release", [65])))
      (parentOf "/etc/os-release") (fileName "/etc/os-release") =
        some ["os-release", "etc"] := by decide
  have dir_eq : unpackDir (oneDirectory "tmp" none) [] "/tmp/release" = some ["tmp"] := by decide
  have name_eq : fileName "/etc/os-release" = "os-release" := by decide
  have returned : cpFromCommand (oneDirectory "etc" (some ("os-release", [65])))
      (oneDirectory "tmp" none) overlaid [] "/etc/os-release" "/tmp/release" = some after := by
    rw [cpFromCommand, archive_eq, Option.bind_some, dir_eq, Option.bind_some, name_eq]
    exact unpacked
  have landed := copied after returned [] (.leaf (.file [65])) (by decide)
  have untouched : after.entry ["release", "tmp"] = none := by
    refine (overlaid.kept unpacked ["release", "tmp"] fun rel _ same => ?_).trans (by decide)
    cases rel with
    | nil => simp at same
    | cons first rel =>
        have lengths := congrArg List.length same
        simp at lengths
  rw [List.nil_append, untouched] at landed
  cases landed

end Pelagos.CommandLine
