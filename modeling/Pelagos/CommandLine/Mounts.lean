import Pelagos.CommandLine.Respawn

/-!
# Mounts of a container

`pelagos run` turns each `-v` specification into a mount of one of the shares: `share0` for a path
under `$HOME`, otherwise the first share with the same host path.  Read-only is a property of a
share, so a mount is read-only when the share it ends up with is.
-/

namespace Pelagos.CommandLine

open Daemon

/-- A mount requested from the guest. -/
structure GuestMount where
  tag : String
  /-- Directory inside the share, empty for the whole share. -/
  subpath : String
  containerPath : String
  deriving DecidableEq

/-- The path is treated as one under `$HOME`. -/
def mountsFromHome (env : HostEnv) (hostPath : String) : Bool :=
  env.home.getD "" ≠ "" && underHome env hostPath

/-- The guest mount for one `-v` specification. -/
def guestMount (env : HostEnv) (shares : List VirtiofsShare) (spec : String) : Option GuestMount :=
  match Text.splitn 3 ':' spec with
  | hostPath :: containerPath :: _ =>
      if mountsFromHome env hostPath then
        some
          { tag := "share0"
            subpath := (Text.stripPrefix hostPath (env.home.getD "" ++ "/")).getD ""
            containerPath }
      else
        (shares.find? fun share =>
          LexicalPath.components share.hostPath = LexicalPath.components hostPath).map
          fun share => { tag := share.tag, subpath := "", containerPath }
  | _ => none

/-- The share a tag names. -/
def shareNamed (shares : List VirtiofsShare) (tag : String) : Option VirtiofsShare :=
  shares.find? fun share => share.tag = tag

/-- The third field of the specification is `ro`. -/
def asksReadOnly (spec : String) : Bool := (Text.splitn 3 ':' spec)[2]? == some "ro"

/-- The specification leads to a mount whose share is read-only exactly when it asks for it. -/
def FlagKept (env : HostEnv) (shares : List VirtiofsShare) (spec : String) : Prop :=
  ∃ mount share, guestMount env shares spec = some mount ∧
    shareNamed shares mount.tag = some share ∧ share.readOnly = asksReadOnly spec

/-- Host paths in the order in which they are tried, with the flag each brings along: the volumes
directory, then what the shares are built from. -/
def sharedPaths (env : HostEnv) (cli : Cli) : List (String × Bool) :=
  (pelagosVolumesHostPath env cli.profile, false) ::
    (effectiveVolumes env cli.volumes).map fun spec => (Text.firstPiece ':' spec, asksReadOnly spec)

/-- What a specification needs for its flag to be kept: a separator; no `ro` under `$HOME`; and
elsewhere no equal path with the other flag that is tried first. -/
def FlagDecides (env : HostEnv) (cli : Cli) (spec : String) : Prop :=
  2 ≤ (Text.splitn 3 ':' spec).length ∧
    if mountsFromHome env (Text.firstPiece ':' spec) then asksReadOnly spec = false
    else
      ((sharedPaths env cli).find? fun entry => LexicalPath.components entry.1 =
        LexicalPath.components (Text.firstPiece ':' spec)).map Prod.snd = some (asksReadOnly spec)

/-! ## Tags -/

theorem tags_parseVolumesFrom {env : HostEnv} {index : Nat} {specs : List String}
    {shares : List VirtiofsShare} (parsed : parseVolumesFrom env index specs = .ok shares) :
    shares.map VirtiofsShare.tag =
      (List.range' index specs.length).map fun position => "share" ++ position.repr := by
  induction specs generalizing index shares with
  | nil =>
      obtain rfl := Except.ok.inj parsed
      rfl
  | cons spec specs ih =>
      obtain ⟨share, rest, rfl, parsed_share, parsed_rest⟩ := parseVolumesFrom_cons.mp parsed
      obtain ⟨-, -, -, tag_eq, -⟩ := parseVolume_eq_ok.mp parsed_share
      rw [List.map_cons, ih parsed_rest, tag_eq, List.length_cons, List.range'_succ, List.map_cons]

theorem share_repr_injective :
    Function.Injective fun position : Nat => "share" ++ position.repr := by
  intro first second same
  have digits_eq : first.repr = second.repr := by
    have chars_eq := congrArg String.toList same
    rw [String.toList_append, String.toList_append] at chars_eq
    exact String.toList_inj.mp (List.append_cancel_left chars_eq)
  have first_read := Text.parseUnsigned_repr (Nat.lt_succ_of_le (Nat.le_max_left first second))
  have second_read := Text.parseUnsigned_repr (Nat.lt_succ_of_le (Nat.le_max_right first second))
  rw [digits_eq, second_read] at first_read
  exact (Option.some.inj first_read).symm

/-- No two shares of accepted flags have one tag. -/
theorem tags_nodup {env : HostEnv} {now : Nat} {cli : Cli} {args : DaemonArgs}
    (accepted : daemonArgsFromCli env now cli = .ok args) :
    (args.virtiofsShares.map VirtiofsShare.tag).Nodup := by
  obtain ⟨-, shares, built, shares_eq⟩ := shares_of_daemonArgsFromCli accepted
  rw [shares_eq, List.map_cons, tags_parseVolumesFrom built, List.nodup_cons]
  refine ⟨?_, List.Nodup.map share_repr_injective List.nodup_range'⟩
  intro member
  obtain ⟨position, -, same⟩ := List.mem_map.mp member
  have first := congrArg (fun text => text.toList.head?) same
  simp [volumesShare] at first

/-- With distinct tags, a share is found by its tag. -/
theorem shareNamed_of_mem {shares : List VirtiofsShare}
    (nodup : (shares.map VirtiofsShare.tag).Nodup) {share : VirtiofsShare}
    (member : share ∈ shares) :
    shareNamed shares share.tag = some share := by
  cases found : shareNamed shares share.tag with
  | none => simpa using List.find?_eq_none.mp found share member
  | some other =>
      have same_tag : other.tag = share.tag := by simpa using List.find?_some found
      rw [List.inj_on_of_nodup_map nodup (List.mem_of_find?_eq_some found) member same_tag]

/-! ## Flags -/

theorem asksReadOnly_of_parseVolume {env : HostEnv} {index : Nat} {spec : String}
    {share : VirtiofsShare} (parsed : parseVolume env index spec = .ok share) :
    share.readOnly = asksReadOnly spec := by
  obtain ⟨rest, split, -, -, flag⟩ := parseVolume_eq_ok.mp parsed
  rw [flag, asksReadOnly, split]
  cases rest <;> rfl

/-- A specification that ends in a separator does not ask for read-only. -/
theorem asksReadOnly_home (home : String) : asksReadOnly (home ++ ":") = false := by
  by_contra asks
  simp only [asksReadOnly, Bool.not_eq_false, beq_iff_eq] at asks
  obtain ⟨front, same⟩ := Text.exists_append_of_third asks
  have last := congrArg (fun text => text.toList.getLast?) same
  simp at last

theorem paths_parseVolumesFrom {env : HostEnv} {index : Nat} {specs : List String}
    {shares : List VirtiofsShare} (parsed : parseVolumesFrom env index specs = .ok shares) :
    shares.map (fun share => (share.hostPath, share.readOnly)) =
      specs.map fun spec => (Text.firstPiece ':' spec, asksReadOnly spec) := by
  induction specs generalizing index shares with
  | nil =>
      obtain rfl := Except.ok.inj parsed
      rfl
  | cons spec specs ih =>
      obtain ⟨share, rest, rfl, parsed_share, parsed_rest⟩ := parseVolumesFrom_cons.mp parsed
      rw [List.map_cons, List.map_cons, ih parsed_rest, firstPiece_of_parseVolume parsed_share,
        asksReadOnly_of_parseVolume parsed_share]

/-- The shares of accepted flags, as paths with flags. -/
theorem sharedPaths_eq {env : HostEnv} {now : Nat} {cli : Cli} {args : DaemonArgs}
    (accepted : daemonArgsFromCli env now cli = .ok args) :
    args.virtiofsShares.map (fun share => (share.hostPath, share.readOnly)) =
      sharedPaths env cli := by
  obtain ⟨-, shares, built, shares_eq⟩ := shares_of_daemonArgsFromCli accepted
  rw [shares_eq, List.map_cons, paths_parseVolumesFrom built]
  rfl

/-- The share of `$HOME`. -/
theorem shareNamed_share0 {env : HostEnv} {now : Nat} {cli : Cli} {args : DaemonArgs}
    (accepted : daemonArgsFromCli env now cli = .ok args) {home : String}
    (set : env.home = some home) :
    ∃ share, shareNamed args.virtiofsShares "share0" = some share ∧ share.readOnly = false ∧
      share.hostPath = Text.firstPiece ':' home := by
  obtain ⟨-, shares, built, shares_eq⟩ := shares_of_daemonArgsFromCli accepted
  obtain ⟨outside, effective_eq, -⟩ := exists_effectiveVolumes env cli.volumes
  rw [buildVirtiofsShares, effective_eq, set, Option.map_some, Option.toList_some,
    List.singleton_append] at built
  obtain ⟨share, others, rfl, parsed, -⟩ := parseVolumesFrom_cons.mp built
  have tag_eq : share.tag = "share0" := by
    obtain ⟨-, -, -, tag_eq, -⟩ := parseVolume_eq_ok.mp parsed
    exact tag_eq
  refine ⟨share, ?_, ?_, ?_⟩
  · rw [← tag_eq]
    exact shareNamed_of_mem (tags_nodup accepted) (by simp [shares_eq])
  · rw [asksReadOnly_of_parseVolume parsed, asksReadOnly_home]
  · rw [← firstPiece_of_parseVolume parsed]
    simpa using Text.firstPiece_append ':' home ""

theorem flagKept_of_home {env : HostEnv} {now : Nat} {cli : Cli} {args : DaemonArgs}
    (accepted : daemonArgsFromCli env now cli = .ok args) {spec hostPath containerPath : String}
    {rest : List String} (split : Text.splitn 3 ':' spec = hostPath :: containerPath :: rest)
    (from_home : mountsFromHome env hostPath = true) :
    FlagKept env args.virtiofsShares spec ↔ asksReadOnly spec = false := by
  obtain ⟨home, set⟩ : ∃ home, env.home = some home := by
    cases unset : env.home with
    | none => simp [mountsFromHome, unset] at from_home
    | some home => exact ⟨home, rfl⟩
  obtain ⟨share, named, writable, -⟩ := shareNamed_share0 accepted set
  have mounted : guestMount env args.virtiofsShares spec = some
      { tag := "share0", subpath := (Text.stripPrefix hostPath (env.home.getD "" ++ "/")).getD "",
        containerPath } := by
    simp [guestMount, split, from_home]
  constructor
  · rintro ⟨mount, other, found, other_named, flag⟩
    obtain rfl := Option.some.inj (mounted.symm.trans found)
    obtain rfl := Option.some.inj (named.symm.trans other_named)
    rw [← flag, writable]
  · intro quiet
    exact ⟨_, share, mounted, named, by rw [writable, quiet]⟩

theorem flagKept_outside {env : HostEnv} {now : Nat} {cli : Cli} {args : DaemonArgs}
    (accepted : daemonArgsFromCli env now cli = .ok args) {spec hostPath containerPath : String}
    {rest : List String} (split : Text.splitn 3 ':' spec = hostPath :: containerPath :: rest)
    (outside : mountsFromHome env hostPath = false) :
    FlagKept env args.virtiofsShares spec ↔
      ((sharedPaths env cli).find? fun entry => LexicalPath.components entry.1 =
        LexicalPath.components hostPath).map Prod.snd = some (asksReadOnly spec) := by
  rw [← sharedPaths_eq accepted, List.find?_map, Option.map_map]
  have mounted : guestMount env args.virtiofsShares spec =
      (args.virtiofsShares.find? fun share =>
        LexicalPath.components share.hostPath = LexicalPath.components hostPath).map
        fun share => { tag := share.tag, subpath := "", containerPath } := by
    simp [guestMount, split, outside]
  simp only [FlagKept, mounted, Function.comp_def]
  cases found : args.virtiofsShares.find? fun share =>
      LexicalPath.components share.hostPath = LexicalPath.components hostPath with
  | none => simp
  | some share =>
      have named := shareNamed_of_mem (tags_nodup accepted) (List.mem_of_find?_eq_some found)
      simp [named]

/-- For flags that `pelagos run` accepts, a specification's flag is kept if and only if its
separator, the place of its path and the paths tried before it let it decide. -/
theorem flag_kept_iff_decides {env : HostEnv} {now : Nat} {cli : Cli} {args : DaemonArgs}
    (accepted : daemonArgsFromCli env now cli = .ok args) (spec : String) :
    FlagKept env args.virtiofsShares spec ↔ FlagDecides env cli spec := by
  by_cases pieces : 2 ≤ (Text.splitn 3 ':' spec).length
  · obtain ⟨hostPath, containerPath, rest, split⟩ : ∃ hostPath containerPath rest,
        Text.splitn 3 ':' spec = hostPath :: containerPath :: rest := by
      match Text.splitn 3 ':' spec, pieces with
      | hostPath :: containerPath :: rest, _ => exact ⟨hostPath, containerPath, rest, rfl⟩
    have path_eq : Text.firstPiece ':' spec = hostPath := (Text.splitn_three_cons split).2.2
    rw [FlagDecides, path_eq, and_iff_right pieces]
    cases from_home : mountsFromHome env hostPath with
    | true =>
        rw [if_pos rfl]
        exact flagKept_of_home accepted split from_home
    | false =>
        rw [if_neg (by simp)]
        exact flagKept_outside accepted split from_home
  · refine ⟨?_, fun decides => absurd decides.1 pieces⟩
    rintro ⟨mount, share, mounted, -⟩
    unfold guestMount at mounted
    split at mounted
    · rename_i split_eq
      simp [split_eq] at pieces
    · simp at mounted

/-- An `ro` volume outside `$HOME` keeps its flag. -/
theorem flag_kept_outside_home :
    let env := plainHost (some "/Users/ada") none
    let cli := { Cli.defaults env with volumes := ["/Volumes/data:/data:ro"] }
    ∃ args, daemonArgsFromCli env 0 cli = .ok args ∧
      FlagKept env args.virtiofsShares "/Volumes/data:/data:ro" := by
  intro env cli
  obtain ⟨args, accepted⟩ : ∃ args, daemonArgsFromCli env 0 cli = .ok args := ⟨_, rfl⟩
  refine ⟨args, accepted, (flag_kept_iff_decides accepted _).mpr ⟨?_, ?_⟩⟩
  · decide
  · decide

/-- An `ro` volume under `$HOME` is mounted writable. -/
theorem flag_lost_under_home :
    ¬ ∀ (env : HostEnv) (now : Nat) (cli : Cli) (args : DaemonArgs),
      daemonArgsFromCli env now cli = .ok args →
      ∀ spec ∈ cli.volumes, FlagKept env args.virtiofsShares spec := by
  intro kept
  obtain ⟨mount, share, mounted, named, flag⟩ := kept (plainHost (some "/Users/ada") none) 0
    { Cli.defaults (plainHost (some "/Users/ada") none) with
      volumes := ["/Users/ada/keys:/keys:ro"] } _ rfl "/Users/ada/keys:/keys:ro" (by decide)
  obtain rfl := Option.some.inj mounted
  obtain rfl := Option.some.inj named
  exact absurd flag (by decide)

end Pelagos.CommandLine
