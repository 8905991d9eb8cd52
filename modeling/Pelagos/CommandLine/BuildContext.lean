import Pelagos.Library.SymbolicLinks

/-!
# The context of a build

The host reduces the path of the Dockerfile to its last name.  A file from outside the context is
copied to this name in a scratch copy of the context; otherwise the name alone tells the guest
which file of the context it is to open.
-/

namespace Pelagos.CommandLine

open FileTree LexicalPath

/-- One of the two machines that take part in a build. -/
structure Machine where
  files : Files Content
  /-- How many links its kernel follows in one path. -/
  links : Nat
  /-- The directory that it makes for the context. -/
  made : files.Vacancy

namespace Machine

/-- The files of the machine with a copy of the context in its new directory. -/
def holding (machine : Machine) (context : Files Content) : Files Content :=
  machine.files.graft machine.made context

/-- Where a path leads that starts in the new directory. -/
def arrive (machine : Machine) (files : Files Content) (path : String) : Option Place :=
  files.arrive machine.links machine.made.place (steps path)

end Machine

/-! ## The two halves -/

/-- The Dockerfile is no part of the context, as far as `build_command` can tell. -/
def isExternal (context dockerfile : String) : Bool :=
  isAbsolute dockerfile && (stripPrefix dockerfile context).isNone

/-- `build_command`, up to the archive and the name that it sends. -/
def buildCommand (host : Machine) (workingDir : Place) (dockerfile context : String) :
    Option (Files Content × String) :=
  (host.files.chdir host.links workingDir context).bind fun dir =>
    if isExternal context dockerfile then
      let scratch := host.holding (host.files.below dir)
      let name := (lastName dockerfile).getD "Dockerfile"
      (scratch.arrive host.links (origin workingDir dockerfile) (steps dockerfile)).bind
        fun source =>
          (host.arrive scratch name).bind fun target =>
            (scratch.copyFile source target).map fun prepared =>
              (prepared.below host.made.place, name)
    else some (host.files.below dir, (lastName dockerfile).getD dockerfile)

/-- `handle_build`, up to the extracted context and the file that `{ctx_dir}/{dockerfile}` is. -/
def handleBuild (guest : Machine) (archive : Files Content) (dockerfile : String) :
    Files Content × Option Place :=
  let extracted := guest.holding archive
  (extracted, guest.arrive extracted dockerfile)

/-- The guest opens a file with the content of the Dockerfile, and every other file of the
extracted context is as it was in the directory on the host. -/
def ContextKept (host guest : Machine) (workingDir : Place) (dockerfile context : String)
    (dir : Place) (content : List UInt8) : Prop :=
  ∀ archive name, buildCommand host workingDir dockerfile context = some (archive, name) →
    ∃ place, (handleBuild guest archive name).2 = some place ∧
      (handleBuild guest archive name).1.entry place = some (.leaf (.file content)) ∧
      ∀ rel, rel ++ guest.made.place ≠ place →
        (handleBuild guest archive name).1.entry (rel ++ guest.made.place) =
          host.files.entry (rel ++ dir)

/-- Under the name, the guest opens a file with the content in a copy of the context. -/
def Machine.Opens (guest : Machine) (context : Files Content) (name : String)
    (content : List UInt8) : Prop :=
  ∃ place, guest.arrive (guest.holding context) name = some place ∧
    (guest.holding context).entry place = some (.leaf (.file content))

/-- The link of the name leads out of both copies of the context to the same file of it, or to
files that have the content already. -/
def LedAlike (host guest : Machine) (dir : Place) (name : String) (content : List UInt8) : Prop :=
  let context := host.files.below dir
  ∀ target, host.arrive (host.holding context) name = some target →
    (host.holding context).entry target ≠ some .directory →
      (∃ rel, target = rel ++ host.made.place ∧
        guest.arrive (guest.holding context) name = some (rel ++ guest.made.place)) ∨
      guest.Opens context name content ∧ ∀ rel, target = rel ++ host.made.place →
        context.entry rel = some (.leaf (.file content))

/-! ## Copies of the context -/

theorem holding_below (machine : Machine) (context : Files Content) (rel : Place) :
    (machine.holding context).entry (rel ++ machine.made.place) = context.entry rel :=
  Files.graft_below rel

/-- A name that is no link in the context is found in its copy. -/
theorem arrive_of_no_link {machine : Machine} {context : Files Content} {path name : String}
    (last_eq : lastName path = some name) (top : context.entry [] = some .directory)
    (no_link : ∀ target, context.entry [name] ≠ some (.leaf (.link target))) :
    machine.arrive (machine.holding context) name = some (name :: machine.made.place) := by
  have directory : (machine.holding context).entry machine.made.place = some .directory :=
    (holding_below machine context []).trans top
  have no_link_there : ∀ target, (machine.holding context).entry (name :: machine.made.place) ≠
      some (.leaf (.link target)) := by
    intro target
    rw [← List.singleton_append, holding_below]
    exact no_link target
  rw [Machine.arrive, steps_of_lastName last_eq, Files.arrive_eq_some]
  exact .into directory no_link_there .here

theorem opens_of_no_link {guest : Machine} {context : Files Content} {path name : String}
    {content : List UInt8} (last_eq : lastName path = some name)
    (top : context.entry [] = some .directory)
    (no_link : ∀ target, context.entry [name] ≠ some (.leaf (.link target))) :
    guest.Opens context name content ↔ context.entry [name] = some (.leaf (.file content)) := by
  rw [Machine.Opens, arrive_of_no_link last_eq top no_link, ← holding_below guest context]
  simp

/-- The source outside the copy is found while the copy stands beside it. -/
theorem source_of_read {host : Machine} {context : Files Content} {workingDir dir : Place}
    {dockerfile : String} {content : List UInt8} (absolute : isAbsolute dockerfile = true)
    (named : host.files.read host.links dir dockerfile = some content) :
    ∃ source, (host.holding context).arrive host.links (origin workingDir dockerfile)
        (steps dockerfile) = some source ∧
      host.files.entry source = some (.leaf (.file content)) := by
  obtain ⟨source, arrived, file⟩ := Files.read_eq_some.mp named
  have root_eq : ∀ place, origin place dockerfile = [] := fun place => if_pos absolute
  rw [root_eq, Files.arrive_eq_some] at arrived
  refine ⟨source, ?_, file⟩
  rw [root_eq, Files.arrive_eq_some]
  refine arrived.mono (fun place stands found => Files.graft_kept found) ?_
  rw [file]
  exact Option.some_ne_none _

/-! ## A Dockerfile of the context -/

theorem contextKept_internal_iff {host guest : Machine} {workingDir dir : Place}
    {dockerfile context name : String} {content : List UInt8}
    (found : host.files.chdir host.links workingDir context = some dir)
    (internal : isExternal context dockerfile = false) (last_eq : lastName dockerfile = some name) :
    ContextKept host guest workingDir dockerfile context dir content ↔
      guest.Opens (host.files.below dir) name content := by
  have sent : buildCommand host workingDir dockerfile context =
      some (host.files.below dir, name) := by
    simp [buildCommand, found, internal, last_eq]
  constructor
  · intro kept
    obtain ⟨place, opened, file, -⟩ := kept _ _ sent
    exact ⟨place, opened, file⟩
  · rintro ⟨place, opened, file⟩ archive named sent_too
    obtain ⟨rfl, rfl⟩ := Prod.mk.inj (Option.some.inj (sent.symm.trans sent_too))
    exact ⟨place, opened, file, fun rel _ => holding_below guest _ rel⟩

/-! ## A Dockerfile from outside -/

section External

variable {host guest : Machine} {context prepared : Files Content} {target : Place}
  {bytes : List UInt8}

/-- What the guest extracts when the Dockerfile has been written to the target. -/
theorem extracted_entry (written : (host.holding context).write target bytes = some prepared)
    (rel : Place) :
    (guest.holding (prepared.below host.made.place)).entry (rel ++ guest.made.place) =
      if rel ++ host.made.place = target then some (.leaf (.file bytes))
      else context.entry rel := by
  rw [holding_below]
  change prepared.entry (rel ++ host.made.place) = _
  rw [Files.entry_of_write written, holding_below]

/-- Elsewhere it extracts the context. -/
theorem extracted_eq_holding
    (written : (host.holding context).write target bytes = some prepared) {place : Place}
    (unchanged : ∀ rel, place = rel ++ guest.made.place → rel ++ host.made.place = target →
      context.entry rel = some (.leaf (.file bytes))) :
    (guest.holding (prepared.below host.made.place)).entry place =
      (guest.holding context).entry place := by
  by_cases below : ∃ rel, place = rel ++ guest.made.place
  · obtain ⟨rel, rfl⟩ := below
    rw [extracted_entry written, holding_below]
    split
    · rename_i hit
      exact (unchanged rel rfl hit).symm
    · rfl
  · have outside := not_exists.mp below
    exact (Files.graft_outside outside).trans (Files.graft_outside outside).symm

/-- The Dockerfile in the archive changes no directory and no link. -/
theorem sameWays_extracted (written : (host.holding context).write target bytes = some prepared)
    (no_way : (host.holding context).NoWay target) :
    (guest.holding (prepared.below host.made.place)).SameWays (guest.holding context) := by
  refine Files.sameWays_of_agree fun place => ?_
  by_cases hit : ∃ rel, place = rel ++ guest.made.place ∧ rel ++ host.made.place = target
  · obtain ⟨rel, rfl, rfl⟩ := hit
    have extracted := @extracted_entry host guest _ _ _ _ written rel
    rw [if_pos rfl] at extracted
    rw [Files.NoWay, holding_below] at no_way
    refine .inr ⟨⟨by simp [extracted], by simp [extracted]⟩, ?_⟩
    rwa [Files.NoWay, holding_below]
  · exact .inl (extracted_eq_holding written fun rel below there => absurd ⟨rel, below, there⟩ hit)

/-- The two ways in which a written Dockerfile comes out right. -/
theorem opens_extracted_iff {name : String} {content : List UInt8}
    (written : (host.holding context).write target bytes = some prepared)
    (no_way : (host.holding context).NoWay target)
    (bytes_eq : ∀ rel, rel ++ host.made.place = target → bytes = content) :
    (∃ place, guest.arrive (guest.holding (prepared.below host.made.place)) name = some place ∧
      (guest.holding (prepared.below host.made.place)).entry place =
        some (.leaf (.file content)) ∧
      ∀ rel, rel ++ guest.made.place ≠ place →
        (guest.holding (prepared.below host.made.place)).entry (rel ++ guest.made.place) =
          context.entry rel) ↔
    (∃ rel, target = rel ++ host.made.place ∧
      guest.arrive (guest.holding context) name = some (rel ++ guest.made.place)) ∨
    guest.Opens context name content ∧ ∀ rel, target = rel ++ host.made.place →
      context.entry rel = some (.leaf (.file content)) := by
  have same := @sameWays_extracted host guest _ _ _ _ written no_way
  have arrive_eq : guest.arrive (guest.holding (prepared.below host.made.place)) name =
      guest.arrive (guest.holding context) name := same.arrive_eq _ _ _
  rw [arrive_eq]
  constructor
  · rintro ⟨place, opened, holds, others⟩
    by_cases hit : ∃ rel, target = rel ++ host.made.place ∧ place = rel ++ guest.made.place
    · obtain ⟨rel, target_eq, rfl⟩ := hit
      exact .inl ⟨rel, target_eq, opened⟩
    · refine .inr ⟨⟨place, opened, ?_⟩, fun rel target_eq => ?_⟩
      · rw [← holds]
        refine (extracted_eq_holding written fun rel below there => ?_).symm
        exact absurd ⟨rel, there.symm, below⟩ hit
      · have kept_there := others rel fun same => hit ⟨rel, target_eq, same.symm⟩
        rw [extracted_entry written, if_pos target_eq.symm, bytes_eq rel target_eq.symm]
          at kept_there
        exact kept_there.symm
  · rintro (⟨rel, target_eq, opened⟩ | ⟨⟨place, opened, holds⟩, already⟩)
    · refine ⟨_, opened, ?_, fun other different => ?_⟩
      · rw [extracted_entry written, if_pos target_eq.symm, bytes_eq rel target_eq.symm]
      · rw [extracted_entry written, if_neg]
        intro hit
        exact different (by rw [List.append_cancel_right (hit.trans target_eq)])
    · have unchanged : ∀ place,
          (guest.holding (prepared.below host.made.place)).entry place =
            (guest.holding context).entry place := by
        refine fun place => extracted_eq_holding written fun rel _ there => ?_
        rw [bytes_eq rel there, already rel there.symm]
      refine ⟨place, opened, (unchanged place).trans holds, fun rel _ => ?_⟩
      rw [unchanged, holding_below]

end External

/-- What `build_command` sends for an external Dockerfile, which it reads from `source`. -/
theorem buildCommand_external_iff {host : Machine} {workingDir dir : Place}
    {dockerfile context name : String} {content : List UInt8}
    (found : host.files.chdir host.links workingDir context = some dir)
    (named : host.files.read host.links dir dockerfile = some content)
    (external : isExternal context dockerfile = true) (last_eq : lastName dockerfile = some name) :
    ∃ source, host.files.entry source = some (.leaf (.file content)) ∧
      ∀ sent, buildCommand host workingDir dockerfile context = some sent ↔
        ∃ target, host.arrive (host.holding (host.files.below dir)) name = some target ∧
          ∃ prepared, (host.holding (host.files.below dir)).write target
              (if target = source then [] else content) = some prepared ∧
            (prepared.below host.made.place, name) = sent := by
  have absolute : isAbsolute dockerfile = true := (Bool.and_eq_true_iff.mp external).1
  obtain ⟨source, source_eq, file⟩ :=
    @source_of_read host (host.files.below dir) workingDir dir dockerfile content absolute named
  have source_bytes : (host.holding (host.files.below dir)).bytesAt source = some content :=
    Files.bytesAt_eq_some.mpr (Files.graft_kept file)
  refine ⟨source, file, fun sent => ?_⟩
  simp only [buildCommand, found, external, last_eq, source_eq, source_bytes, Files.copyFile,
    Option.bind_some, Option.getD_some, if_true, Option.bind_eq_some_iff, Option.map_eq_some_iff]

theorem contextKept_external_iff {host guest : Machine} {workingDir dir : Place}
    {dockerfile context name : String} {content : List UInt8}
    (found : host.files.chdir host.links workingDir context = some dir)
    (named : host.files.read host.links dir dockerfile = some content)
    (external : isExternal context dockerfile = true) (last_eq : lastName dockerfile = some name) :
    ContextKept host guest workingDir dockerfile context dir content ↔
      LedAlike host guest dir name content := by
  obtain ⟨source, file, sent_iff⟩ := buildCommand_external_iff found named external last_eq
  have top : host.files.entry dir = some .directory := Files.directory_of_chdir found
  have made_directory : (host.holding (host.files.below dir)).Settled host.made.place :=
    .inl ((holding_below host _ []).trans top)
  -- The source was there before the scratch directory, so it is none of the files in it.
  have bytes_eq : ∀ target rel, rel ++ host.made.place = target →
      (if target = source then [] else content) = content := by
    rintro _ rel rfl
    refine if_neg ?_
    rintro rfl
    rw [host.files.none_below host.made.vacant] at file
    cases file
  constructor
  · intro kept target arrived no_directory
    have settled := (Files.arrive_eq_some.mp arrived).settled made_directory
    obtain ⟨prepared, written⟩ :=
      settled.written no_directory (if target = source then [] else content)
    have sent := (sent_iff _).mpr ⟨target, arrived, prepared, written, rfl⟩
    exact (opens_extracted_iff written (settled.noWay no_directory) (bytes_eq target)).mp
      (kept _ _ sent)
  · intro alike archive sent_name sent
    obtain ⟨target, arrived, prepared, written, sent_eq⟩ := (sent_iff _).mp sent
    obtain ⟨rfl, rfl⟩ := Prod.mk.inj sent_eq
    have no_directory := Files.not_directory_of_write written
    have settled := (Files.arrive_eq_some.mp arrived).settled made_directory
    exact (opens_extracted_iff written (settled.noWay no_directory) (bytes_eq target)).mpr
      (alike target arrived no_directory)

theorem ledAlike_of_no_link {host guest : Machine} {dir : Place} {path name : String}
    {content : List UInt8} (last_eq : lastName path = some name)
    (top : host.files.entry dir = some .directory)
    (no_link : ∀ target, host.files.entry (name :: dir) ≠ some (.leaf (.link target))) :
    LedAlike host guest dir name content := by
  intro target arrived _
  have in_scratch := @arrive_of_no_link host (host.files.below dir) path name last_eq top no_link
  have in_guest := @arrive_of_no_link guest (host.files.below dir) path name last_eq top no_link
  rw [in_scratch] at arrived
  exact .inl ⟨[name], (Option.some.inj arrived).symm, in_guest⟩

/-- The context is kept exactly when the Dockerfile counts as external, and the context has no link
of its last name or one that leads alike on both machines, or when the context has, under this
name and not in any directory of it, a file with the same content or a link to one. -/
theorem contextKept_iff {host guest : Machine} {workingDir dir : Place}
    {dockerfile context : String} {content : List UInt8}
    (found : host.files.chdir host.links workingDir context = some dir)
    (named : host.files.read host.links dir dockerfile = some content) :
    ∃ name, lastName dockerfile = some name ∧
      (ContextKept host guest workingDir dockerfile context dir content ↔
        isExternal context dockerfile = true ∧
            ((∀ target, host.files.entry (name :: dir) ≠ some (.leaf (.link target))) ∨
              LedAlike host guest dir name content) ∨
          isExternal context dockerfile = false ∧
            (host.files.entry (name :: dir) = some (.leaf (.file content)) ∨
              (∃ target, host.files.entry (name :: dir) = some (.leaf (.link target))) ∧
                guest.Opens (host.files.below dir) name content)) := by
  have top : host.files.entry dir = some .directory := Files.directory_of_chdir found
  obtain ⟨name, last_eq⟩ := Option.isSome_iff_exists.mp (Files.lastName_of_read top named)
  refine ⟨name, last_eq, ?_⟩
  cases route : isExternal context dockerfile with
  | true =>
      rw [contextKept_external_iff found named route last_eq]
      have without_link := @ledAlike_of_no_link host guest dir dockerfile name content last_eq top
      simpa using without_link
  | false =>
      rw [contextKept_internal_iff found route last_eq]
      have without_link := @opens_of_no_link guest (host.files.below dir) dockerfile name content
        last_eq top
      by_cases link : ∃ target, host.files.entry (name :: dir) = some (.leaf (.link target))
      · obtain ⟨target, is_link⟩ := link
        simp [is_link]
      · rw [without_link (not_exists.mp link)]
        simp only [Files.below, List.singleton_append, Bool.false_eq_true, false_and, link,
          or_false, false_or, true_and]

/-! ## Two Dockerfiles of one name -/

/-- A context with a Dockerfile at its top and another in a directory. -/
def developer : Machine where
  files := .ofList
    [([], .directory), (["tmp"], .directory), (["app"], .directory),
      (["Dockerfile", "app"], .leaf (.file [0])), (["docker", "app"], .directory),
      (["Dockerfile", "docker", "app"], .leaf (.file [1]))]
    (by decide)
  links := 32
  made := ⟨"pelagos-ctx-prep-1", ["tmp"], by decide, by decide⟩

/-- A guest before its first build. -/
def freshGuest : Machine where
  files := .ofList [([], .directory), (["tmp"], .directory)] (by decide)
  links := 40
  made := ⟨"pelagos-build-1", ["tmp"], by decide, by decide⟩

/-- The absolute path of the inner Dockerfile, of which a relative context is no prefix. -/
theorem absolute_path_is_kept :
    ContextKept developer freshGuest [] "/app/docker/Dockerfile" "app" ["app"] [1] := by
  obtain ⟨name, last_eq, kept_iff⟩ := @contextKept_iff developer freshGuest [] ["app"]
    "/app/docker/Dockerfile" "app" [1] (by decide) (by decide)
  have name_eq : lastName "/app/docker/Dockerfile" = some "Dockerfile" := by decide
  obtain rfl : "Dockerfile" = name := Option.some.inj (name_eq.symm.trans last_eq)
  refine kept_iff.mpr (.inl ⟨by decide, .inl fun target => ?_⟩)
  have top_file : developer.files.entry ["Dockerfile", "app"] = some (.leaf (.file [0])) := by
    decide
  simp [top_file]

/-- Given relative to the context, the inner Dockerfile is mistaken for the outer one. -/
theorem nested_dockerfile_is_mistaken :
    ¬ContextKept developer freshGuest [] "docker/Dockerfile" "app" ["app"] [1] := by
  have name_eq : lastName "docker/Dockerfile" = some "Dockerfile" := by decide
  have top_file : (developer.files.below ["app"]).entry ["Dockerfile"] =
      some (.leaf (.file [0])) := by
    decide
  rw [contextKept_internal_iff (by decide) (by decide) name_eq,
    opens_of_no_link name_eq (by decide) (by simp [top_file]), top_file]
  decide

end Pelagos.CommandLine
