import Pelagos.CommandLine.Subnets

/-!
# State directories of profiles

A profile name is joined to the path of the profiles directory as it was typed.  The directory that
results is compared with others by the place it leads to: an empty name, dots, parent steps, further
separators and absolute names are all accepted.
-/

namespace Pelagos.CommandLine

open LexicalPath

/-- The paths of `StateDir` that `open_profile` derives. -/
structure ProfilePaths where
  pidFile : String
  sockFile : String
  consoleSockFile : String
  mountsFile : String
  portsFile : String
  extraDisksFile : String
  deriving DecidableEq

/-- `StateDir::open_profile`, without the creation of the directory. -/
def openProfile (env : HostEnv) (name : String) : Option ProfilePaths :=
  (profileDir env name).map fun base =>
    { pidFile := join base "vm.pid"
      sockFile := join base "vm.sock"
      consoleSockFile := join base "console.sock"
      mountsFile := join base "vm.mounts"
      portsFile := join base "vm.ports"
      extraDisksFile := join base "vm.extra_disks" }

/-- The configuration and the disk image, which `vm init` writes beside them. -/
def initFiles (env : HostEnv) (name : String) : Option (String × String) :=
  (profileDir env name).map fun base => (join base "vm.conf", join base "root.img")

/-- The pid file, the socket, the configuration and the disk image of a profile. -/
def profileFiles (env : HostEnv) (name : String) : List String :=
  match openProfile env name, initFiles env name with
  | some paths, some (vmConf, rootImg) => [paths.pidFile, paths.sockFile, vmConf, rootImg]
  | _, _ => []

theorem profileFiles_eq {env : HostEnv} {name dir : String}
    (dir_eq : profileDir env name = some dir) :
    profileFiles env name = ["vm.pid", "vm.sock", "vm.conf", "root.img"].map (join dir) := by
  simp [profileFiles, openProfile, initFiles, dir_eq]

/-- Two profiles have state directories of their own, each named one strictly inside the directory
of profiles, and share none of their files. -/
structure Isolated (env : HostEnv) (workingDir : Place) (first second : String) : Prop where
  distinct : ∀ firstDir secondDir, profileDir env first = some firstDir →
    profileDir env second = some secondDir →
      resolve workingDir firstDir ≠ resolve workingDir secondDir
  inside : ∀ name ∈ [first, second], name ≠ "default" → ∀ base dir,
    pelagosBase env = some base → profileDir env name = some dir →
      ∃ below, below ≠ [] ∧
        resolve workingDir dir = below ++ resolve workingDir (join base "profiles")
  apart : ∀ file ∈ profileFiles env first, ∀ other ∈ profileFiles env second,
    resolve workingDir file ≠ resolve workingDir other

/-- Followed from the directory of profiles, or from the root when it is absolute, the name passes
through the directory of profiles a last time, and what comes then never leaves it and amounts to
`below`. -/
def Enters (profiles : Place) (name : String) (below : Place) : Prop :=
  ∃ outer inner, body name = outer ++ inner ∧
    walk (if isAbsolute name then [] else profiles) outer = profiles ∧
      staysBelow 0 inner = true ∧ walk [] inner = below

theorem enters_iff {profiles : Place} {name : String} {below : Place} :
    Enters profiles name below ↔ resolve profiles name = below ++ profiles := by
  have resolve_eq : resolve profiles name =
      walk (if isAbsolute name then [] else profiles) (body name) := by
    cases absolute : isAbsolute name with
    | true =>
        rw [if_pos rfl, resolve, components, start, if_pos absolute]
        rfl
    | false => exact resolve_of_relative absolute profiles
  rw [resolve_eq]
  constructor
  · rintro ⟨outer, inner, body_eq, at_profiles, stays, rfl⟩
    rw [body_eq, walk_append, at_profiles]
    exact walk_of_staysBelow [] profiles stays
  · intro ends
    have shallow : (if isAbsolute name then [] else profiles).length ≤ profiles.length := by
      split
      · exact Nat.zero_le _
      · exact le_rfl
    exact exists_last_entry (fun _ member => body_proper member) shallow ends

/-- The named profiles among the two enter the directory of profiles, at different places. -/
structure EnterApart (profiles : Place) (first second : String) : Prop where
  enters : ∀ name ∈ [first, second], name ≠ "default" →
    ∃ below, below ≠ [] ∧ Enters profiles name below
  apart : first ≠ "default" → second ≠ "default" → ∀ below,
    Enters profiles first below → ¬Enters profiles second below

/-! ## Directories and their files -/

theorem pelagosBase_ne_empty {env : HostEnv} {base : String}
    (base_eq : pelagosBase env = some base) : base ≠ "" := by
  unfold pelagosBase at base_eq
  split at base_eq
  · exact Option.some.inj base_eq ▸ join_ne_empty _ (by decide)
  · obtain ⟨home, -, rfl⟩ := Option.map_eq_some_iff.mp base_eq
    exact join_ne_empty _ (by decide)

theorem profileDir_eq_some {env : HostEnv} {base : String} (base_eq : pelagosBase env = some base)
    (name : String) : ∃ dir, profileDir env name = some dir := by
  rw [profileDir, base_eq]
  exact ⟨_, rfl⟩

theorem profileDir_ne_empty {env : HostEnv} {name dir : String}
    (dir_eq : profileDir env name = some dir) : dir ≠ "" := by
  obtain ⟨base, base_eq, rfl⟩ := Option.map_eq_some_iff.mp dir_eq
  split
  · exact pelagosBase_ne_empty base_eq
  · exact join_ne_empty_of_base (join_ne_empty base (by decide)) name

/-- A file of a profile lies in its directory. -/
theorem resolve_profileFile {env : HostEnv} {name dir : String}
    (dir_eq : profileDir env name = some dir) {file : String}
    (named : body file = [.normal file]) (relative : isAbsolute file = false)
    (workingDir : Place) :
    resolve workingDir (join dir file) = file :: resolve workingDir dir := by
  rw [resolve_join (profileDir_ne_empty dir_eq) relative, named]
  rfl

theorem mem_profileFiles {env : HostEnv} {name dir : String}
    (dir_eq : profileDir env name = some dir) {path : String}
    (member : path ∈ profileFiles env name) (workingDir : Place) :
    ∃ file, resolve workingDir path = file :: resolve workingDir dir := by
  rw [profileFiles_eq dir_eq] at member
  obtain ⟨file, file_member, rfl⟩ := List.mem_map.mp member
  have proper : ∀ file ∈ ["vm.pid", "vm.sock", "vm.conf", "root.img"],
      body file = [.normal file] ∧ isAbsolute file = false := by decide
  obtain ⟨named, relative⟩ := proper file file_member
  exact ⟨file, resolve_profileFile dir_eq named relative workingDir⟩

/-- Profiles with places of their own share no file. -/
theorem profileFiles_apart {env : HostEnv} {first second firstDir secondDir : String}
    (first_eq : profileDir env first = some firstDir)
    (second_eq : profileDir env second = some secondDir) {workingDir : Place}
    (distinct : resolve workingDir firstDir ≠ resolve workingDir secondDir) :
    ∀ file ∈ profileFiles env first, ∀ other ∈ profileFiles env second,
      resolve workingDir file ≠ resolve workingDir other := by
  intro file member other other_member same
  obtain ⟨name, file_eq⟩ := mem_profileFiles first_eq member workingDir
  obtain ⟨other_name, other_eq⟩ := mem_profileFiles second_eq other_member workingDir
  rw [file_eq, other_eq] at same
  exact distinct (List.cons.inj same).2

/-- A named profile is where its name leads from the directory of profiles. -/
theorem resolve_namedProfile {env : HostEnv} {base dir name : String}
    (base_eq : pelagosBase env = some base) (dir_eq : profileDir env name = some dir)
    (named : name ≠ "default") (workingDir : Place) :
    resolve workingDir dir = resolve (resolve workingDir (join base "profiles")) name := by
  rw [resolve_profileDir base_eq dir_eq, profilePlace, if_neg named,
    resolve_join (pelagosBase_ne_empty base_eq) rfl]
  rfl

theorem resolve_defaultProfile {env : HostEnv} {base dir : String}
    (base_eq : pelagosBase env = some base) (dir_eq : profileDir env "default" = some dir) :
    dir = base := by
  rw [profileDir, base_eq] at dir_eq
  exact (Option.some.inj dir_eq).symm

/-- Nothing below the directory of profiles is the base directory. -/
theorem below_profiles_ne_base {base : String} (nonempty : base ≠ "") (below workingDir : Place) :
    below ++ resolve workingDir (join base "profiles") ≠ resolve workingDir base := by
  intro same
  rw [resolve_join nonempty rfl] at same
  have lengths := congrArg List.length same
  have profiles_body : body "profiles" = [.normal "profiles"] := by decide
  rw [profiles_body] at lengths
  simp only [walk, List.foldl_cons, List.foldl_nil, follow, List.length_append,
    List.length_cons] at lengths
  omega

/-! ## When profiles are isolated -/

theorem inside_iff {env : HostEnv} {base name : String} (base_eq : pelagosBase env = some base)
    (named : name ≠ "default") (workingDir : Place) :
    (∀ base dir, pelagosBase env = some base → profileDir env name = some dir →
        ∃ below, below ≠ [] ∧
          resolve workingDir dir = below ++ resolve workingDir (join base "profiles")) ↔
      ∃ below, below ≠ [] ∧
        Enters (resolve workingDir (join base "profiles")) name below := by
  obtain ⟨dir, dir_eq⟩ := profileDir_eq_some base_eq name
  constructor
  · intro inside
    obtain ⟨below, nonempty, place_eq⟩ := inside base dir base_eq dir_eq
    rw [resolve_namedProfile base_eq dir_eq named] at place_eq
    exact ⟨below, nonempty, enters_iff.mpr place_eq⟩
  · rintro ⟨below, nonempty, enters⟩ other other_dir other_eq other_dir_eq
    obtain rfl := Option.some.inj (base_eq.symm.trans other_eq)
    refine ⟨below, nonempty, ?_⟩
    rw [resolve_namedProfile base_eq other_dir_eq named]
    exact enters_iff.mp enters

/-- A profile that enters the directory of profiles is not where the default one is. -/
theorem named_ne_default {env : HostEnv} {base name dir defaultDir : String}
    (base_eq : pelagosBase env = some base) (dir_eq : profileDir env name = some dir)
    (default_eq : profileDir env "default" = some defaultDir) (named : name ≠ "default")
    {workingDir below : Place}
    (enters : Enters (resolve workingDir (join base "profiles")) name below) :
    resolve workingDir dir ≠ resolve workingDir defaultDir := by
  rw [resolve_namedProfile base_eq dir_eq named, enters_iff.mp enters,
    resolve_defaultProfile base_eq default_eq]
  exact below_profiles_ne_base (pelagosBase_ne_empty base_eq) below workingDir

theorem dirs_ne_of_enterApart {env : HostEnv} {base first second firstDir secondDir : String}
    (different : first ≠ second) (base_eq : pelagosBase env = some base)
    (first_eq : profileDir env first = some firstDir)
    (second_eq : profileDir env second = some secondDir) {workingDir : Place}
    (enterApart : EnterApart (resolve workingDir (join base "profiles")) first second) :
    resolve workingDir firstDir ≠ resolve workingDir secondDir := by
  obtain ⟨enters, apart⟩ := enterApart
  by_cases first_default : first = "default"
  · subst first_default
    obtain ⟨below, -, entered⟩ := enters second (by simp) (Ne.symm different)
    exact (named_ne_default base_eq second_eq first_eq (Ne.symm different) entered).symm
  · obtain ⟨below, -, entered⟩ := enters first (by simp) first_default
    by_cases second_default : second = "default"
    · subst second_default
      exact named_ne_default base_eq first_eq second_eq first_default entered
    · intro same
      rw [resolve_namedProfile base_eq first_eq first_default, enters_iff.mp entered,
        resolve_namedProfile base_eq second_eq second_default] at same
      exact apart first_default second_default below entered (enters_iff.mpr same.symm)

/-- Two profiles are isolated exactly when the names other than `default` enter the directory of
profiles and stay below it, at different places. -/
theorem profiles_isolated_iff (env : HostEnv) (workingDir : Place) {first second : String}
    (different : first ≠ second) :
    Isolated env workingDir first second ↔
      ∀ base, pelagosBase env = some base →
        EnterApart (resolve workingDir (join base "profiles")) first second := by
  constructor
  · intro isolated base base_eq
    obtain ⟨firstDir, first_eq⟩ := profileDir_eq_some base_eq first
    obtain ⟨secondDir, second_eq⟩ := profileDir_eq_some base_eq second
    refine ⟨?_, ?_⟩
    · intro name member named
      exact (inside_iff base_eq named workingDir).mp (isolated.inside name member named)
    · intro first_named second_named below enters enters_too
      refine isolated.distinct firstDir secondDir first_eq second_eq ?_
      rw [resolve_namedProfile base_eq first_eq first_named,
        resolve_namedProfile base_eq second_eq second_named, enters_iff.mp enters,
        enters_iff.mp enters_too]
  · intro enterApart
    have distinct : ∀ firstDir secondDir, profileDir env first = some firstDir →
        profileDir env second = some secondDir →
          resolve workingDir firstDir ≠ resolve workingDir secondDir := by
      intro firstDir secondDir first_eq second_eq
      obtain ⟨base, base_eq, -⟩ := Option.map_eq_some_iff.mp first_eq
      exact dirs_ne_of_enterApart different base_eq first_eq second_eq (enterApart base base_eq)
    refine ⟨distinct, ?_, ?_⟩
    · intro name member named base dir base_eq dir_eq
      exact (inside_iff base_eq named workingDir).mpr
        ((enterApart base base_eq).enters name member named) base dir base_eq dir_eq
    · cases base_eq : pelagosBase env with
      | none => simp [profileFiles, openProfile, profileDir, base_eq]
      | some base =>
          obtain ⟨firstDir, first_eq⟩ := profileDir_eq_some base_eq first
          obtain ⟨secondDir, second_eq⟩ := profileDir_eq_some base_eq second
          exact profileFiles_apart first_eq second_eq
            (distinct firstDir secondDir first_eq second_eq)

/-- An environment that sets the data directory only. -/
def dataHome : HostEnv where
  home := none
  xdgDataHome := some "/data"
  pelagosKernel := none
  pelagosInitrd := none
  pelagosDisk := none
  pelagosCmdline := none
  pathExists := fun _ => false
  profileConfig := fun _ => ⟨none, none, none, none, none, none⟩
  artifacts := none

/-- The profile used by the tests of the state directory is isolated from the default one. -/
theorem myprofile_isolated : Isolated dataHome [] "default" "myprofile" := by
  refine (profiles_isolated_iff _ _ (by decide)).mpr ?_
  rintro base base_eq
  obtain rfl := Option.some.inj base_eq
  refine ⟨?_, fun first_named => absurd rfl first_named⟩
  intro name member named
  obtain rfl : name = "myprofile" := by simpa [named] using member
  exact ⟨["myprofile"], by simp, [], [.normal "myprofile"], by decide, by decide, by decide, rfl⟩

/-- The name `..` is accepted and leads to the directory of the default profile. -/
theorem parent_name_not_isolated : ¬Isolated dataHome [] "default" ".." := by
  intro isolated
  exact isolated.distinct "/data/pelagos" "/data/pelagos/profiles/.." (by decide) (by decide)
    (by decide)

end Pelagos.CommandLine
