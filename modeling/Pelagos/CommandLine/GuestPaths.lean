import Pelagos.CommandLine.Mounts

/-!
# Host paths seen from the guest

Each share is mounted at `/mnt/<tag>` in the guest.  The CLI strips `$HOME` from a path and the
guest joins the rest to `/mnt/share0`, which names the same file unless the rest climbs out of
`$HOME`.
-/

namespace Pelagos.CommandLine

open Daemon
open LexicalPath

/-- The bind source `run_container` builds for a mount. -/
def runGuestSource (mount : GuestMount) : String :=
  if mount.subpath = "" then "/mnt/" ++ mount.tag
  else "/mnt/" ++ mount.tag ++ "/" ++ Text.trimStart '/' mount.subpath

/-- The bind source `handle_exec` builds for a mount. -/
def execGuestSource (mount : GuestMount) : String :=
  if mount.subpath = "" then "/mnt/" ++ mount.tag
  else "/mnt/" ++ mount.tag ++ "/" ++ mount.subpath

/-- Where a process is, and what `current_dir` tells it. -/
structure WorkingDir where
  place : Place
  currentDir : Option String
  agrees : ∀ dir ∈ currentDir, isAbsolute dir = true ∧ resolve [] dir = place

/-- The compose file as an absolute path. -/
def composeAbsFile (currentDir : Option String) (file : String) : String :=
  if isAbsolute file then file else join (currentDir.getD ".") file

/-- The compose file in the guest, or `none` when it is refused as lying outside `$HOME`. -/
def composeVmFile (env : HostEnv) (currentDir : Option String) (file : String) : Option String :=
  if env.home.getD "" = "" then none
  else
    (stripPrefixText (composeAbsFile currentDir file) (env.home.getD "")).map fun subpath =>
      "/mnt/share0/" ++ Text.trimStart '/' subpath

/-- The host place behind a guest place, when it lies in a share. -/
def hostPlace (workingDir : Place) (shares : List VirtiofsShare) (place : Place) : Option Place :=
  match place.reverse with
  | top :: tag :: rest =>
      if top = "mnt" then
        (shareNamed shares tag).map fun share => rest.reverse ++ resolve workingDir share.hostPath
      else none
  | _ => none

/-- The guest path leads to what the host path names. -/
def LeadsTo (workingDir : Place) (shares : List VirtiofsShare) (guestPath hostPath : String) :
    Prop :=
  hostPlace workingDir shares (resolve [] guestPath) = some (resolve workingDir hostPath)

instance (workingDir : Place) (shares : List VirtiofsShare) (guestPath hostPath : String) :
    Decidable (LeadsTo workingDir shares guestPath hostPath) :=
  inferInstanceAs (Decidable (_ = _))

/-- The mount points of the shares with the directories behind them. -/
def shareMounts (workingDir : Place) (shares : List VirtiofsShare) : Set (Place × Place) :=
  { pair | ∃ share ∈ shares, pair = ([share.tag, "mnt"], resolve workingDir share.hostPath) }

/-- The path followed from `$HOME` on the host and from `/mnt/share0` in the guest comes, after its
last way up, through the directory of a share and its mount point; so does every path that never
climbs out of `$HOME`. -/
def StaysShared (env : HostEnv) (workingDir : Place) (shares : List VirtiofsShare)
    (path : List Component) : Prop :=
  Reenters (shareMounts workingDir shares) ["share0", "mnt"]
    (resolve workingDir (env.home.getD "")) path

/-- What a path under `$HOME` has after `$HOME/`. -/
def belowHome (env : HostEnv) (hostPath : String) : List Component :=
  body ((Text.stripPrefix hostPath (env.home.getD "" ++ "/")).getD "")

theorem hostPlace_eq_some_iff {workingDir : Place} {shares : List VirtiofsShare}
    (nodup : (shares.map VirtiofsShare.tag).Nodup) {place image : Place} :
    hostPlace workingDir shares place = some image ↔
      Corresponds (shareMounts workingDir shares) place image := by
  constructor
  · intro found
    unfold hostPlace at found
    split at found
    · rename_i top tag rest place_eq
      split at found
      · rename_i top_eq
        obtain ⟨share, named, rfl⟩ := Option.map_eq_some_iff.mp found
        have tag_eq : share.tag = tag := by simpa using List.find?_some named
        refine ⟨rest.reverse, _, _, ⟨share, List.mem_of_find?_eq_some named, rfl⟩, ?_, rfl⟩
        rw [tag_eq, ← top_eq, ← List.reverse_inj, place_eq]
        simp
      · simp at found
    · simp at found
  · rintro ⟨rest, core, root, ⟨share, member, pair_eq⟩, rfl, rfl⟩
    obtain ⟨rfl, rfl⟩ := Prod.mk.inj pair_eq
    simp [hostPlace, shareNamed_of_mem nodup member]

/-- A path followed from `$HOME` and from the mount point of its share leads to one file exactly
when it stays shared. -/
theorem hostPlace_walk_iff {env : HostEnv} {workingDir : Place} {shares : List VirtiofsShare}
    (nodup : (shares.map VirtiofsShare.tag).Nodup) {path : List Component}
    (proper : ∀ part ∈ path, part = .parentDir ∨ ∃ name, part = .normal name) :
    hostPlace workingDir shares (walk ["share0", "mnt"] path) =
        some (walk (resolve workingDir (env.home.getD "")) path) ↔
      StaysShared env workingDir shares path := by
  rw [hostPlace_eq_some_iff nodup]
  refine corresponds_walk_iff _ proper ?_
  rintro core root ⟨share, -, pair_eq⟩
  obtain ⟨rfl, -⟩ := Prod.mk.inj pair_eq
  exact le_refl _

/-! ## Paths in the guest -/

theorem mountPoint_ne_empty (tag : String) : "/mnt/" ++ tag ≠ "" := by
  intro empty
  simpa using congrArg String.toList empty

theorem resolve_mountPoint {tag : String} (name : body tag = [.normal tag]) :
    resolve [] ("/mnt/" ++ tag) = [tag, "mnt"] := by
  have path_eq : "/mnt/" ++ tag = "/mnt" ++ "/" ++ tag := String.toList_inj.mp (by simp)
  rw [path_eq, resolve_append (by decide), name]
  rfl

theorem resolve_below_mountPoint {tag : String} (name : body tag = [.normal tag])
    (subpath : String) :
    resolve [] ("/mnt/" ++ tag ++ "/" ++ subpath) = walk [tag, "mnt"] (body subpath) := by
  rw [resolve_append (mountPoint_ne_empty tag), resolve_mountPoint name]

theorem body_share0 : body "share0" = [.normal "share0"] := by decide

/-- Both programs build a bind source that names the subpath of the mount's share. -/
theorem leadsTo_guestSources_iff {workingDir : Place} {shares : List VirtiofsShare}
    {mount : GuestMount} {hostPath : String} (name : body mount.tag = [.normal mount.tag]) :
    (LeadsTo workingDir shares (runGuestSource mount) hostPath ∧
        LeadsTo workingDir shares (execGuestSource mount) hostPath) ↔
      hostPlace workingDir shares (walk [mount.tag, "mnt"] (body mount.subpath)) =
        some (resolve workingDir hostPath) := by
  unfold LeadsTo runGuestSource execGuestSource
  by_cases whole : mount.subpath = ""
  · have nothing : body "" = [] := by decide
    rw [if_pos whole, if_pos whole, resolve_mountPoint name, whole, nothing]
    exact and_self_iff
  · have trimmed : body (Text.trimStart '/' mount.subpath) = body mount.subpath :=
      body_trimStart mount.subpath
    rw [if_neg whole, if_neg whole, resolve_below_mountPoint name, resolve_below_mountPoint name,
      trimmed]
    exact and_self_iff

theorem body_share_repr (index : Nat) :
    body ("share" ++ index.repr) = [.normal ("share" ++ index.repr)] := by
  refine body_of_name ?_ ?_ ?_ ?_
  · intro member
    rw [String.toList_append, List.mem_append, Nat.toList_repr] at member
    rcases member with letter | digit
    · simp at letter
    · have is_digit := Nat.isDigit_of_mem_toDigits (by decide) (by decide) digit
      simp at is_digit
  all_goals simp

/-- Every tag of accepted flags is a plain name. -/
theorem body_tag {env : HostEnv} {now : Nat} {cli : Cli} {args : DaemonArgs}
    (accepted : daemonArgsFromCli env now cli = .ok args) {share : VirtiofsShare}
    (member : share ∈ args.virtiofsShares) : body share.tag = [.normal share.tag] := by
  obtain ⟨-, shares, built, shares_eq⟩ := shares_of_daemonArgsFromCli accepted
  rw [shares_eq] at member
  rcases List.mem_cons.mp member with rfl | built_member
  · exact (by decide : body "pelagos-volumes" = [.normal "pelagos-volumes"])
  · have tags := tags_parseVolumesFrom built
    have tag_member : share.tag ∈ shares.map VirtiofsShare.tag :=
      List.mem_map.mpr ⟨share, built_member, rfl⟩
    rw [tags] at tag_member
    obtain ⟨index, -, tag_eq⟩ := List.mem_map.mp tag_member
    rw [← tag_eq]
    exact body_share_repr index

/-! ## Paths on the host -/

/-- A path under `$HOME` is `$HOME` followed by what it has after it. -/
theorem resolve_under_home {env : HostEnv} {hostPath : String}
    (from_home : mountsFromHome env hostPath = true) (workingDir : Place) :
    resolve workingDir hostPath =
      walk (resolve workingDir (env.home.getD "")) (belowHome env hostPath) := by
  cases set : env.home with
  | none => simp [mountsFromHome, set] at from_home
  | some home =>
      simp only [mountsFromHome, underHome, set, Option.getD_some, Bool.and_eq_true,
        decide_eq_true_eq, Bool.or_eq_true, beq_iff_eq, Text.startsWith_iff] at from_home
      obtain ⟨nonempty, under⟩ := from_home
      rw [belowHome, set, Option.getD_some]
      rcases under with rfl | ⟨rest, rfl⟩
      · have longer : Text.stripPrefix hostPath (hostPath ++ "/") = none := by
          refine if_neg fun starts => ?_
          obtain ⟨rest, same⟩ := Text.startsWith_iff.mp starts
          simpa using congrArg (fun text => text.toList.length) same
        have nothing : body "" = [] := by decide
        rw [longer, Option.getD_none, nothing]
        rfl
      · rw [Text.stripPrefix_append, Option.getD_some]
        exact resolve_append nonempty rest workingDir

/-- A relative path joined to the current directory names the same file. -/
theorem resolve_composeAbsFile (dir : WorkingDir) (file : String) :
    resolve dir.place (composeAbsFile dir.currentDir file) = resolve dir.place file := by
  unfold composeAbsFile
  split
  · rfl
  · rename_i relative
    rw [Bool.not_eq_true] at relative
    rw [resolve_of_relative relative]
    cases current : dir.currentDir with
    | none => exact resolve_join (by decide) relative dir.place
    | some path =>
        obtain ⟨absolute, place_eq⟩ := dir.agrees path current
        have nonempty : path ≠ "" := by
          rintro rfl
          simp [isAbsolute] at absolute
        rw [Option.getD_some, resolve_join nonempty relative, resolve_of_isAbsolute absolute,
          place_eq]

/-! ## The two programs together -/

/-- A mount of `pelagos run` leads to the user's directory exactly when, if it goes through the
share of `$HOME`, the rest of the path stays shared. -/
theorem guestMount_leadsTo_iff {env : HostEnv} {now : Nat} {cli : Cli} {args : DaemonArgs}
    (accepted : daemonArgsFromCli env now cli = .ok args) {spec : String} {mount : GuestMount}
    (mounted : guestMount env args.virtiofsShares spec = some mount) (workingDir : Place) :
    (LeadsTo workingDir args.virtiofsShares (runGuestSource mount) (Text.firstPiece ':' spec) ∧
        LeadsTo workingDir args.virtiofsShares (execGuestSource mount)
          (Text.firstPiece ':' spec)) ↔
      (mountsFromHome env (Text.firstPiece ':' spec) = true →
        StaysShared env workingDir args.virtiofsShares
          (belowHome env (Text.firstPiece ':' spec))) := by
  unfold guestMount at mounted
  split at mounted
  · rename_i hostPath containerPath rest split_eq
    have path_eq : Text.firstPiece ':' spec = hostPath := (Text.splitn_three_cons split_eq).2.2
    have nodup := tags_nodup accepted
    rw [path_eq]
    split at mounted
    · rename_i from_home
      obtain rfl := Option.some.inj mounted
      refine (leadsTo_guestSources_iff ?_).trans ?_
      · exact body_share0
      rw [resolve_under_home from_home, imp_iff_right from_home]
      exact hostPlace_walk_iff nodup fun part member => body_proper member
    · rename_i outside
      obtain ⟨share, found, rfl⟩ := Option.map_eq_some_iff.mp mounted
      have member := List.mem_of_find?_eq_some found
      have same_path : components share.hostPath = components hostPath := by
        simpa using List.find?_some found
      refine (leadsTo_guestSources_iff ?_).trans ?_
      · exact body_tag accepted member
      refine iff_of_true ?_ fun from_home => absurd from_home outside
      refine (hostPlace_eq_some_iff nodup).mpr ⟨[], _, _, ⟨share, member, rfl⟩, rfl, ?_⟩
      rw [resolve, ← same_path]
      rfl
  · simp at mounted

/-- The guest's name of an accepted compose file leads to the file exactly when the part of its path
below `$HOME` stays shared. -/
theorem composeVmFile_leadsTo_iff {env : HostEnv} {now : Nat} {cli : Cli} {args : DaemonArgs}
    (accepted : daemonArgsFromCli env now cli = .ok args) {dir : WorkingDir}
    {file vmFile : String} (translated : composeVmFile env dir.currentDir file = some vmFile) :
    LeadsTo dir.place args.virtiofsShares vmFile file ↔
      ∃ rest, stripPrefix (composeAbsFile dir.currentDir file) (env.home.getD "") = some rest ∧
        StaysShared env dir.place args.virtiofsShares rest := by
  unfold composeVmFile at translated
  split at translated
  · simp at translated
  · rename_i nonempty
    obtain ⟨subpath, subpath_eq, rfl⟩ := Option.map_eq_some_iff.mp translated
    have stripped := stripPrefix_of_text nonempty subpath_eq
    have path_eq := stripPrefix_eq_some.mp stripped
    have trimmed : body (Text.trimStart '/' subpath) = body subpath := body_trimStart subpath
    have guest_eq : resolve [] ("/mnt/share0/" ++ Text.trimStart '/' subpath) =
        walk ["share0", "mnt"] (body subpath) := by
      have joined := resolve_below_mountPoint body_share0 (Text.trimStart '/' subpath)
      rw [trimmed] at joined
      exact joined
    have host_eq : resolve dir.place file =
        walk (resolve dir.place (env.home.getD "")) (body subpath) := by
      rw [← resolve_composeAbsFile, resolve, path_eq, walk_append]
      rfl
    rw [LeadsTo, guest_eq, host_eq, hostPlace_walk_iff (tags_nodup accepted)
      fun part member => body_proper member]
    simp [stripped]

/-- For accepted flags: the bind sources that both programs build for a volume, and the guest's name
of a compose file, lead to what the user's path names if and only if the part of the path below
`$HOME` stays shared. -/
theorem guest_paths_lead_to_host_iff {env : HostEnv} {now : Nat} {cli : Cli} {args : DaemonArgs}
    (accepted : daemonArgsFromCli env now cli = .ok args) (dir : WorkingDir) :
    (∀ spec mount, guestMount env args.virtiofsShares spec = some mount →
      ((LeadsTo dir.place args.virtiofsShares (runGuestSource mount) (Text.firstPiece ':' spec) ∧
          LeadsTo dir.place args.virtiofsShares (execGuestSource mount)
            (Text.firstPiece ':' spec)) ↔
        (mountsFromHome env (Text.firstPiece ':' spec) = true →
          StaysShared env dir.place args.virtiofsShares
            (belowHome env (Text.firstPiece ':' spec))))) ∧
    (∀ file vmFile, composeVmFile env dir.currentDir file = some vmFile →
      (LeadsTo dir.place args.virtiofsShares vmFile file ↔
        ∃ rest, stripPrefix (composeAbsFile dir.currentDir file) (env.home.getD "") = some rest ∧
          StaysShared env dir.place args.virtiofsShares rest)) :=
  ⟨fun _ _ mounted => guestMount_leadsTo_iff accepted mounted dir.place,
    fun _ _ translated => composeVmFile_leadsTo_iff accepted translated⟩

/-- A path that never climbs out of `$HOME` stays shared. -/
theorem staysShared_of_staysBelow {env : HostEnv} {now : Nat} {cli : Cli} {args : DaemonArgs}
    (accepted : daemonArgsFromCli env now cli = .ok args) {home : String}
    (set : env.home = some home) (free : ':' ∉ home.toList) (workingDir : Place)
    {path : List Component} (stays : staysBelow 0 path = true) :
    StaysShared env workingDir args.virtiofsShares path := by
  obtain ⟨share, named, -, path_eq⟩ := shareNamed_share0 accepted set
  have tag_eq : share.tag = "share0" := by simpa using List.find?_some named
  refine ⟨[], path, rfl, ⟨share, List.mem_of_find?_eq_some named, ?_⟩, stays⟩
  rw [path_eq, Text.firstPiece_of_free free, tag_eq, set]
  rfl

/-- A working directory in `$HOME`. -/
def adaHome : WorkingDir where
  place := ["ada", "Users"]
  currentDir := some "/Users/ada"
  agrees := by simp [isAbsolute]; decide

/-- A volume and a compose file in `$HOME` lead to what they name. -/
theorem guest_paths_lead_to_host_in_home :
    let env := plainHost (some "/Users/ada") none
    let cli := { Cli.defaults env with volumes := ["/Users/ada/src/../docs:/docs"] }
    ∃ args, daemonArgsFromCli env 0 cli = .ok args ∧
      LeadsTo adaHome.place args.virtiofsShares
        (runGuestSource ⟨"share0", "src/../docs", "/docs"⟩) "/Users/ada/src/../docs" ∧
      LeadsTo adaHome.place args.virtiofsShares "/mnt/share0/stack/compose.reml"
        "stack/compose.reml" := by
  intro env cli
  obtain ⟨args, accepted⟩ : ∃ args, daemonArgsFromCli env 0 cli = .ok args := ⟨_, rfl⟩
  obtain ⟨run_paths, compose_paths⟩ := guest_paths_lead_to_host_iff accepted adaHome
  have stays : ∀ path, staysBelow 0 path = true →
      StaysShared env adaHome.place args.virtiofsShares path :=
    fun path => staysShared_of_staysBelow accepted rfl (by decide) adaHome.place
  have mounted : guestMount env args.virtiofsShares "/Users/ada/src/../docs:/docs" =
      some ⟨"share0", "src/../docs", "/docs"⟩ := by
    have split : Text.splitn 3 ':' "/Users/ada/src/../docs:/docs" =
        ["/Users/ada/src/../docs", "/docs"] := by decide
    have from_home : mountsFromHome env "/Users/ada/src/../docs" = true := by decide
    have stripped : Text.stripPrefix "/Users/ada/src/../docs" (env.home.getD "" ++ "/") =
        some "src/../docs" := by decide
    simp [guestMount, split, from_home, stripped]
  have translated : composeVmFile env adaHome.currentDir "stack/compose.reml" =
      some "/mnt/share0/stack/compose.reml" := by decide
  refine ⟨args, accepted, ?_, ?_⟩
  · exact ((run_paths _ _ mounted).mpr fun _ => stays _ (by decide)).1
  · exact (compose_paths _ _ translated).mpr
      ⟨[.normal "stack", .normal "compose.reml"], by decide, stays _ (by decide)⟩

/-- A volume that climbs out of `$HOME` is looked up beside the share of `$HOME` instead. -/
theorem guest_path_lost_above_home :
    ¬ ∀ (env : HostEnv) (now : Nat) (cli : Cli) (args : DaemonArgs) (dir : WorkingDir),
      daemonArgsFromCli env now cli = .ok args → ∀ spec ∈ cli.volumes, ∀ mount,
        guestMount env args.virtiofsShares spec = some mount →
        LeadsTo dir.place args.virtiofsShares (runGuestSource mount)
          (Text.firstPiece ':' spec) := by
  intro leads
  have lost := leads (plainHost (some "/Users/ada") none) 0
    { Cli.defaults (plainHost (some "/Users/ada") none) with
      volumes := ["/Users/ada/../bob:/data"] } _ adaHome rfl "/Users/ada/../bob:/data" (by decide) _
      rfl
  exact absurd lost (by decide)

end Pelagos.CommandLine
