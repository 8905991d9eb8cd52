import Pelagos.Library.FileTree

/-!
# Symbolic links

How the kernel follows a path through directories and symbolic links.  `FileSystem` says only where
each link leads; `Files.arrive` follows the targets themselves, and gives up after so many links.
-/

namespace FileTree

open LexicalPath

/-- What a leaf of a file system is. -/
inductive Content where
  | file (bytes : List UInt8)
  | link (target : String)
  deriving DecidableEq

/-- Where the path of a process in `workingDir` starts. -/
def origin (workingDir : Place) (path : String) : Place :=
  if isAbsolute path then [] else workingDir

/-- The path ends with a separator, or with one and a dot. -/
def endsInSlash (path : String) : Bool :=
  (path.toList.splitOn '/').getLast? = some [] || (path.toList.splitOn '/').getLast? = some ['.']

/-- The components of a path; a separator at its end asks for a directory. -/
def steps (path : String) : List Component :=
  body path ++ if endsInSlash path then [.curDir] else []

theorem steps_of_lastName {path name : String} (last_eq : lastName path = some name) :
    steps name = [.normal name] := by
  obtain ⟨parts, body_eq⟩ := body_of_lastName last_eq
  have member : .normal name ∈ body path := by simp [body_eq]
  have name_body : body name = [.normal name] := body_text member
  obtain ⟨free, nonempty, not_dot, -⟩ := proper_of_mem_body member
  have no_slash : endsInSlash name = false := by
    simp [endsInSlash, List.splitOn_eq_singleton free, nonempty, not_dot]
  simp [steps, name_body, no_slash]

/-- A tree in which the kernel follows symbolic links. -/
structure FileSystem extends Files Content where
  /-- The place that is reached from a place by following the link that may stand there. -/
  leads : Place → Option Place
  leads_self : ∀ {place stands}, toFiles.entry place = some stands →
    (∀ target, stands ≠ .leaf (.link target)) → leads place = some place

namespace FileSystem

variable (fs : FileSystem)

/-- Follow one component out of a directory. -/
def enter (place : Place) (part : Component) : Option Place :=
  if fs.entry place = some .directory then
    match part with
    | .normal name =>
        if (fs.entry (name :: place)).isSome then fs.leads (name :: place) else none
    | part => some (follow place part)
  else none

/-- Follow components one after the other, and links at the end too. -/
def walk (place : Place) (path : List Component) : Option Place := path.foldlM fs.enter place

/-- The directory that `chdir` goes to. -/
def chdir (workingDir : Place) (path : String) : Option Place :=
  if path = "" then none
  else (fs.walk (origin workingDir path) (body path)).filter fun place =>
    fs.entry place = some .directory

/-- What a path names; a link at its end is followed only in front of a separator. -/
def named (workingDir : Place) (path : String) : Option Place :=
  match (body path).getLast? with
  | some (.normal name) =>
      (fs.walk (origin workingDir path) (body path).dropLast).bind fun dir =>
        if fs.entry dir = some .directory ∧ (fs.entry (name :: dir)).isSome then
          if endsInSlash path then
            (fs.leads (name :: dir)).filter fun place => fs.entry place = some .directory
          else some (name :: dir)
        else none
  | _ => fs.chdir workingDir path

end FileSystem

/-! ## Following links -/

namespace Files

variable {tree other : Files Content}

/-- Follow components out of directories, and the targets of links with `again`. -/
def arriveWith (tree : Files Content) (again : Place → List Component → Option Place) :
    Place → List Component → Option Place
  | place, [] => some place
  | place, part :: path =>
      if tree.entry place = some .directory then
        match part with
        | .normal name =>
            match tree.entry (name :: place) with
            | some (.leaf (.link target)) => again (origin place target) (steps target ++ path)
            | _ => tree.arriveWith again (name :: place) path
        | part => tree.arriveWith again (follow place part) path
      else none

/-- The place that a path leads to through at most so many links.  Nothing may stand there yet. -/
def arrive (tree : Files Content) : Nat → Place → List Component → Option Place
  | 0 => tree.arriveWith fun _ _ => none
  | links + 1 => tree.arriveWith (tree.arrive links)

/-- The runs of `arrive`. -/
inductive Arrives (tree : Files Content) : Nat → Place → List Component → Place → Prop
  | here {links place} : Arrives tree links place [] place
  | into {links place name path there} (directory : tree.entry place = some .directory)
      (no_link : ∀ target, tree.entry (name :: place) ≠ some (.leaf (.link target)))
      (rest : Arrives tree links (name :: place) path there) :
      Arrives tree links place (.normal name :: path) there
  | along {links place name target path there} (directory : tree.entry place = some .directory)
      (link : tree.entry (name :: place) = some (.leaf (.link target)))
      (rest : Arrives tree links (origin place target) (steps target ++ path) there) :
      Arrives tree (links + 1) place (.normal name :: path) there
  | around {links place part path there} (directory : tree.entry place = some .directory)
      (special : ∀ name, part ≠ .normal name)
      (rest : Arrives tree links (follow place part) path there) :
      Arrives tree links place (part :: path) there

theorem arriveWith_into {again : Place → List Component → Option Place} {place : Place}
    {name : String} {path : List Component} (directory : tree.entry place = some .directory)
    (no_link : ∀ target, tree.entry (name :: place) ≠ some (.leaf (.link target))) :
    tree.arriveWith again place (.normal name :: path) =
      tree.arriveWith again (name :: place) path := by
  rw [arriveWith, if_pos directory]
  split
  · rename_i target link
    exact absurd link (no_link target)
  · rfl

theorem arriveWith_along {again : Place → List Component → Option Place} {place : Place}
    {name target : String} {path : List Component} (directory : tree.entry place = some .directory)
    (link : tree.entry (name :: place) = some (.leaf (.link target))) :
    tree.arriveWith again place (.normal name :: path) =
      again (origin place target) (steps target ++ path) := by
  simp only [arriveWith, if_pos directory, link]

theorem arriveWith_around {again : Place → List Component → Option Place} {place : Place}
    {part : Component} {path : List Component} (directory : tree.entry place = some .directory)
    (special : ∀ name, part ≠ .normal name) :
    tree.arriveWith again place (part :: path) =
      tree.arriveWith again (follow place part) path := by
  rw [arriveWith, if_pos directory]
  exact special

theorem arriveWith_outside {again : Place → List Component → Option Place} {place : Place}
    {part : Component} {path : List Component} (outside : tree.entry place ≠ some .directory) :
    tree.arriveWith again place (part :: path) = none := by
  cases part with
  | normal name => rw [arriveWith, if_neg outside]
  | rootDir => simp only [arriveWith, if_neg outside]
  | curDir => simp only [arriveWith, if_neg outside]
  | parentDir => simp only [arriveWith, if_neg outside]

theorem arrives_of_arriveWith {again : Place → List Component → Option Place} {links : Nat}
    {place there : Place} {path : List Component}
    (sound : ∀ place path, again place path = some there →
      ∃ fewer, links = fewer + 1 ∧ Arrives tree fewer place path there)
    (arrived : tree.arriveWith again place path = some there) :
    Arrives tree links place path there := by
  induction path generalizing place with
  | nil =>
      obtain rfl : place = there := Option.some.inj arrived
      exact .here
  | cons part path ih =>
      by_cases directory : tree.entry place = some .directory
      · cases part with
        | normal name =>
            by_cases link : ∃ target, tree.entry (name :: place) = some (.leaf (.link target))
            · obtain ⟨target, link⟩ := link
              rw [arriveWith_along directory link] at arrived
              obtain ⟨fewer, rfl, rest⟩ := sound _ _ arrived
              exact .along directory link rest
            · have no_link := not_exists.mp link
              rw [arriveWith_into directory no_link] at arrived
              exact .into directory no_link (ih arrived)
        | rootDir =>
            rw [arriveWith_around directory (by simp)] at arrived
            exact .around directory (by simp) (ih arrived)
        | curDir =>
            rw [arriveWith_around directory (by simp)] at arrived
            exact .around directory (by simp) (ih arrived)
        | parentDir =>
            rw [arriveWith_around directory (by simp)] at arrived
            exact .around directory (by simp) (ih arrived)
      · rw [arriveWith_outside directory] at arrived
        cases arrived

theorem arrives_of_arrive {links : Nat} {place there : Place} {path : List Component}
    (arrived : tree.arrive links place path = some there) :
    Arrives tree links place path there := by
  induction links generalizing place path with
  | zero => exact arrives_of_arriveWith (fun place path found => by cases found) arrived
  | succ links ih =>
      exact arrives_of_arriveWith (fun place path found => ⟨links, rfl, ih found⟩) arrived

theorem arrive_of_arrives {links : Nat} {place there : Place} {path : List Component}
    (arrives : Arrives tree links place path there) :
    tree.arrive links place path = some there := by
  induction arrives with
  | @here links place => cases links <;> rfl
  | @into links place name path there directory no_link rest ih =>
      rw [← ih]
      cases links <;> exact arriveWith_into directory no_link
  | along directory link rest ih => exact (arriveWith_along directory link).trans ih
  | @around links place part path there directory special rest ih =>
      rw [← ih]
      cases links <;> exact arriveWith_around directory special

theorem arrive_eq_some {links : Nat} {place there : Place} {path : List Component} :
    tree.arrive links place path = some there ↔ Arrives tree links place path there :=
  ⟨arrives_of_arrive, arrive_of_arrives⟩

theorem directory_root (tree : Files Content) {place : Place}
    (directory : tree.entry place = some .directory) : tree.entry [] = some .directory := by
  cases place with
  | nil => exact directory
  | cons name place =>
      refine directory_of_inside (List.cons_ne_nil name place) ?_
      rw [List.append_nil, directory]
      exact Option.some_ne_none _

theorem directory_origin (tree : Files Content) {place : Place}
    (directory : tree.entry place = some .directory) (path : String) :
    tree.entry (origin place path) = some .directory := by
  rw [origin]
  split
  · exact tree.directory_root directory
  · exact directory

theorem directory_follow (tree : Files Content) {place : Place} {part : Component}
    (directory : tree.entry place = some .directory) (special : ∀ name, part ≠ .normal name) :
    tree.entry (follow place part) = some .directory := by
  cases part with
  | normal name => exact absurd rfl (special name)
  | rootDir => exact tree.directory_root directory
  | curDir => exact directory
  | parentDir =>
      cases place with
      | nil => exact directory
      | cons name place => exact tree.inside (directory ▸ Option.some_ne_none _)

/-- A directory, or a place in a directory that is no link. -/
def Settled (tree : Files Content) (place : Place) : Prop :=
  tree.entry place = some .directory ∨
    tree.entry place.tail = some .directory ∧
      ∀ target, tree.entry place ≠ some (.leaf (.link target))

namespace Arrives

variable {links : Nat} {place there : Place} {path : List Component}

theorem eq_of_vacant (arrives : Arrives tree links place path there)
    (vacant : tree.entry place = none) : there = place ∧ path = [] := by
  cases arrives with
  | here => exact ⟨rfl, rfl⟩
  | into directory no_link rest => simp [vacant] at directory
  | along directory link rest => simp [vacant] at directory
  | around directory special rest => simp [vacant] at directory

/-- What leads to something still does so in a tree that has more. -/
theorem mono (kept : ∀ place stands, tree.entry place = some stands →
      other.entry place = some stands)
    (arrives : Arrives tree links place path there) (present : tree.entry there ≠ none) :
    Arrives other links place path there := by
  induction arrives with
  | here => exact .here
  | @into links place name path there directory no_link rest ih =>
      refine .into (kept _ _ directory) ?_ (ih present)
      cases found : tree.entry (name :: place) with
      | none =>
          obtain ⟨rfl, -⟩ := rest.eq_of_vacant found
          exact absurd found present
      | some stands =>
          rw [kept _ _ found, ← found]
          exact no_link
  | along directory link rest ih => exact .along (kept _ _ directory) (kept _ _ link) (ih present)
  | around directory special rest ih => exact .around (kept _ _ directory) special (ih present)

theorem directory_of_last {part : Component} (arrives : Arrives tree links place path there)
    (last_eq : path.getLast? = some part) (special : ∀ name, part ≠ .normal name) :
    tree.entry there = some .directory := by
  induction arrives with
  | here => simp at last_eq
  | @into links place name path there directory no_link rest ih =>
      cases path with
      | nil =>
          obtain rfl : Component.normal name = part := by simpa using last_eq
          exact absurd rfl (special name)
      | cons next path => exact ih (by rwa [List.getLast?_cons_cons] at last_eq)
  | @along links place name target path there directory link rest ih =>
      cases path with
      | nil =>
          obtain rfl : Component.normal name = part := by simpa using last_eq
          exact absurd rfl (special name)
      | cons next path =>
          rw [List.getLast?_cons_cons] at last_eq
          exact ih (by simp [last_eq])
  | @around links place other path there directory special' rest ih =>
      cases path with
      | nil =>
          cases rest
          exact tree.directory_follow directory special'
      | cons next path => exact ih (by rwa [List.getLast?_cons_cons] at last_eq)

theorem settled (arrives : Arrives tree links place path there) (start : tree.Settled place) :
    tree.Settled there := by
  induction arrives with
  | here => exact start
  | into directory no_link rest ih => exact ih (.inr ⟨directory, no_link⟩)
  | along directory link rest ih => exact ih (.inl (tree.directory_origin directory _))
  | around directory special rest ih => exact ih (.inl (tree.directory_follow directory special))

end Arrives

/-- The two trees have the same directories and the same links. -/
structure SameWays (tree other : Files Content) : Prop where
  directory : ∀ place, tree.entry place = some .directory ↔ other.entry place = some .directory
  link : ∀ place target, tree.entry place = some (.leaf (.link target)) ↔
    other.entry place = some (.leaf (.link target))

/-- Neither a directory nor a link. -/
def NoWay (tree : Files Content) (place : Place) : Prop :=
  tree.entry place ≠ some .directory ∧ ∀ target, tree.entry place ≠ some (.leaf (.link target))

theorem sameWays_of_agree (agree : ∀ place, tree.entry place = other.entry place ∨
    tree.NoWay place ∧ other.NoWay place) : tree.SameWays other where
  directory place := by
    rcases agree place with same | ⟨none_here, none_there⟩
    · rw [same]
    · exact iff_of_false none_here.1 none_there.1
  link place target := by
    rcases agree place with same | ⟨none_here, none_there⟩
    · rw [same]
    · exact iff_of_false (none_here.2 target) (none_there.2 target)

theorem SameWays.symm (same : tree.SameWays other) : other.SameWays tree where
  directory place := (same.directory place).symm
  link place target := (same.link place target).symm

theorem SameWays.arrives (same : tree.SameWays other) {links : Nat} {place there : Place}
    {path : List Component} (arrives : Arrives tree links place path there) :
    Arrives other links place path there := by
  induction arrives with
  | here => exact .here
  | into directory no_link rest ih =>
      refine .into ((same.directory _).mp directory) (fun target link => ?_) ih
      exact no_link target ((same.link _ target).mpr link)
  | along directory link rest ih =>
      exact .along ((same.directory _).mp directory) ((same.link _ _).mp link) ih
  | around directory special rest ih => exact .around ((same.directory _).mp directory) special ih

theorem SameWays.arrive_eq (same : tree.SameWays other) (links : Nat) (place : Place)
    (path : List Component) : tree.arrive links place path = other.arrive links place path := by
  refine Option.ext fun there => ?_
  rw [arrive_eq_some, arrive_eq_some]
  exact ⟨same.arrives, same.symm.arrives⟩

/-- The directory that `chdir` goes to. -/
def chdir (tree : Files Content) (links : Nat) (workingDir : Place) (path : String) :
    Option Place :=
  if path = "" then none
  else (tree.arrive links (origin workingDir path) (steps path)).filter fun place =>
    tree.entry place = some .directory

/-- The bytes of a regular file. -/
def bytesAt (tree : Files Content) (place : Place) : Option (List UInt8) :=
  match tree.entry place with
  | some (.leaf (.file bytes)) => some bytes
  | _ => none

theorem bytesAt_eq_some {place : Place} {bytes : List UInt8} :
    tree.bytesAt place = some bytes ↔ tree.entry place = some (.leaf (.file bytes)) := by
  rw [bytesAt]
  split
  · rename_i found
    simp [found]
  · rename_i no_file
    simpa using fun found => no_file bytes found

/-- What a process in `workingDir` reads. -/
def read (tree : Files Content) (links : Nat) (workingDir : Place) (path : String) :
    Option (List UInt8) :=
  (tree.arrive links (origin workingDir path) (steps path)).bind tree.bytesAt

theorem read_eq_some {links : Nat} {workingDir : Place} {path : String} {bytes : List UInt8} :
    tree.read links workingDir path = some bytes ↔
      ∃ place, tree.arrive links (origin workingDir path) (steps path) = some place ∧
        tree.entry place = some (.leaf (.file bytes)) := by
  simp only [read, Option.bind_eq_some_iff, bytesAt_eq_some]

/-- A path that can be read ends with a name. -/
theorem lastName_of_read {links : Nat} {workingDir : Place} {path : String} {bytes : List UInt8}
    (directory : tree.entry workingDir = some .directory)
    (found : tree.read links workingDir path = some bytes) : (lastName path).isSome = true := by
  obtain ⟨place, arrived, file⟩ := read_eq_some.mp found
  rw [arrive_eq_some] at arrived
  have normal : ∀ part, (steps path).getLast? = some part → ∃ name, part = .normal name := by
    intro part last_eq
    by_contra special
    have no_file := arrived.directory_of_last last_eq (not_exists.mp special)
    rw [file] at no_file
    cases no_file
  unfold steps at normal arrived
  cases slash : endsInSlash path with
  | true =>
      obtain ⟨name, impossible⟩ := normal .curDir (by simp [slash])
      cases impossible
  | false =>
      rw [slash, if_neg (by simp), List.append_nil] at normal arrived
      rw [lastName]
      cases last_eq : (body path).getLast? with
      | none =>
          rw [List.getLast?_eq_none_iff.mp last_eq] at arrived
          cases arrived
          rw [tree.directory_origin directory] at file
          cases file
      | some part =>
          obtain ⟨name, rfl⟩ := normal part last_eq
          rfl

/-- The tree after the bytes have been written to a place, where the kernel lets them. -/
def write (tree : Files Content) (place : Place) (bytes : List UInt8) : Option (Files Content) :=
  if ready : tree.entry place.tail = some .directory ∧ tree.entry place ≠ some .directory then
    some (tree.put place (.file bytes) ready.1 ready.2)
  else none

theorem entry_of_write {place : Place} {bytes : List UInt8} {after : Files Content}
    (written : tree.write place bytes = some after) (other : Place) :
    after.entry other =
      if other = place then some (.leaf (.file bytes)) else tree.entry other := by
  rw [write] at written
  split at written
  · obtain rfl := Option.some.inj written
    rfl
  · cases written

theorem not_directory_of_write {place : Place} {bytes : List UInt8} {after : Files Content}
    (written : tree.write place bytes = some after) : tree.entry place ≠ some .directory := by
  rw [write] at written
  split at written
  · rename_i ready
    exact ready.2
  · cases written

theorem Settled.written {place : Place} (settled : tree.Settled place)
    (no_directory : tree.entry place ≠ some .directory) (bytes : List UInt8) :
    ∃ after, tree.write place bytes = some after := by
  obtain ⟨parent, -⟩ := settled.resolve_left no_directory
  exact ⟨_, dif_pos ⟨parent, no_directory⟩⟩

/-- `fs::copy` between two files, of which the second is emptied before the first is read. -/
def copyFile (tree : Files Content) (source target : Place) : Option (Files Content) :=
  (tree.bytesAt source).bind fun bytes => tree.write target (if target = source then [] else bytes)

theorem Settled.noWay {place : Place} (settled : tree.Settled place)
    (no_directory : tree.entry place ≠ some .directory) : tree.NoWay place :=
  ⟨no_directory, (settled.resolve_left no_directory).2⟩

theorem directory_of_chdir {links : Nat} {workingDir place : Place} {path : String}
    (found : tree.chdir links workingDir path = some place) :
    tree.entry place = some .directory := by
  rw [chdir] at found
  split at found
  · cases found
  · exact of_decide_eq_true (Option.filter_eq_some_iff.mp found).2

end Files

/-- The file system of a kernel that follows at most so many links one after the other. -/
def FileSystem.ofFiles (tree : Files Content) (links : Nat) : FileSystem where
  toFiles := tree
  leads
    | [] => some []
    | name :: place => tree.arrive links place [.normal name]
  leads_self := by
    intro place stands found no_link
    cases place with
    | nil => rfl
    | cons name place =>
        have directory := tree.inside (found ▸ Option.some_ne_none _)
        refine Files.arrive_eq_some.mpr (.into directory ?_ .here)
        intro target link
        rw [found] at link
        exact no_link target (Option.some.inj link)

end FileTree
