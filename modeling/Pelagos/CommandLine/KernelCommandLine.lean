import Pelagos.CommandLine.GuestPaths
import Pelagos.Guest.Init

/-!
# The command line of the kernel

The daemon passes the tags of its shares to the VM on the command line of the kernel, behind the
clock, and `/init` reads them back.  It mounts every share at the place that the CLI's mounts count
on, except for that of the named volumes.
-/

namespace Pelagos.CommandLine

open Daemon Guest LexicalPath ShellFields

/-- `build_cmdline_from_parts`. -/
def buildCmdlineFromParts (base : String) (shares : List VirtiofsShare) : String :=
  if shares = [] then base
  else base ++ " virtiofs.tags=" ++ ",".intercalate (shares.map VirtiofsShare.tag)

/-- `build_cmdline`. -/
def buildCmdline (args : DaemonArgs) : String :=
  buildCmdlineFromParts args.cmdline args.virtiofsShares

/-- What the VM that the daemon boots reads in `/proc/cmdline`. -/
def procCmdline (args : DaemonArgs) : String := buildCmdline args ++ "\n"

/-- The command line of `vm.conf` or of the flags. -/
def baseCmdline (env : HostEnv) (cli : Cli) : String :=
  (env.profileConfig cli.profile).cmdline.getD cli.cmdline

/-- The command line has neither a time nor tags of its own. -/
structure PlainBase (expand : String → List String) (base : String) : Prop where
  no_clock : Text.contains base "clock.utc=" = false
  no_tags : tagParameters expand base = []

/-- The mounts of `/init` when all of them succeed. -/
def mountTable (commands : List InitCommand) : List (Place × String) :=
  commands.filterMap fun command =>
    match command with
    | .mountVirtiofs tag path => some (resolve [] path, tag)
    | _ => none

/-- The host place behind a place of the VM, when it lies in a share. -/
def bootedPlace (workingDir : Place) (shares : List VirtiofsShare) (commands : List InitCommand)
    (place : Place) : Option Place :=
  (MountTable.lookup (mountTable commands) place).bind fun below =>
    (shareNamed shares below.1).map fun share => below.2 ++ resolve workingDir share.hostPath

/-- Where `/init` mounts a share. -/
def mountPoint (tag : String) : Place :=
  if tag = "pelagos-volumes" then ["volumes", "pelagos", "lib", "var"] else [tag, "mnt"]

/-! ## Characters -/

/-- A character of the parameters. -/
def IsPlain (char : Char) : Prop :=
  char.isAlphanum = true ∨ char ∈ ['-', ':', '=', '.', ',']

instance : DecidablePred IsPlain := fun _ => inferInstanceAs (Decidable (_ ∨ _))

theorem plain_of_all {chars : List Char} (all : (chars.all fun char => IsPlain char) = true) :
    ∀ char ∈ chars, IsPlain char := by simpa using all

/-- A tag that needs no quoting. -/
structure IsTag (tag : String) : Prop where
  nonempty : tag ≠ ""
  plain : ∀ char ∈ tag.toList, char.isAlphanum = true ∨ char = '-'

theorem not_blank_of_plain {char : Char} (plain : IsPlain char) : isBlank char = false := by
  by_contra blank
  simp only [isBlank, Bool.not_eq_false, Bool.or_eq_true, beq_iff_eq] at blank
  rcases blank with (rfl | rfl) | rfl <;> revert plain <;> unfold IsPlain <;> decide

theorem not_special_of_plain {char : Char} (plain : IsPlain char) : char ∉ ['*', '?', '['] := by
  intro special
  simp only [List.mem_cons, List.not_mem_nil, or_false] at special
  rcases special with rfl | rfl | rfl <;> revert plain <;> unfold IsPlain <;> decide

theorem IsTag.free {tag : String} (is_tag : IsTag tag) {char : Char}
    (other : char.isAlphanum = false ∧ char ≠ '-') : char ∉ tag.toList := by
  intro member
  rcases is_tag.plain char member with alphanum | dash
  · simp [other.1] at alphanum
  · exact other.2 dash

theorem isDigit_of_mem_repr {value : Nat} {char : Char} (member : char ∈ value.repr.toList) :
    char.isDigit = true := by
  rw [Nat.toList_repr] at member
  exact Nat.isDigit_of_mem_toDigits (by decide) (by decide) member

theorem isTag_share (position : Nat) : IsTag ("share" ++ position.repr) where
  nonempty := by simp
  plain char member := by
    rw [String.toList_append, List.mem_append] at member
    refine .inl ?_
    rcases member with letter | digit
    · have letters : ("share".toList.all Char.isAlphanum) = true := by decide
      exact List.all_eq_true.mp letters char letter
    · simp [Char.isAlphanum, isDigit_of_mem_repr digit]

theorem isTag_volumes : IsTag "pelagos-volumes" where
  nonempty := by decide
  plain := by simp

/-- The tags of accepted flags need no quoting. -/
theorem isTag_of_accepted {env : HostEnv} {now : Nat} {cli : Cli} {args : DaemonArgs}
    (accepted : daemonArgsFromCli env now cli = .ok args) :
    ∀ share ∈ args.virtiofsShares, IsTag share.tag := by
  obtain ⟨-, shares, built, shares_eq⟩ := shares_of_daemonArgsFromCli accepted
  intro share member
  rw [shares_eq] at member
  rcases List.mem_cons.mp member with rfl | built_mem
  · exact isTag_volumes
  · have tag_mem := List.mem_map_of_mem (f := VirtiofsShare.tag) built_mem
    rw [tags_parseVolumesFrom built] at tag_mem
    obtain ⟨position, -, tag_eq⟩ := List.mem_map.mp tag_mem
    exact tag_eq ▸ isTag_share position

theorem isDigit_of_mem_padded {width value : Nat} {char : Char}
    (member : char ∈ (padded width value).toList) : char.isDigit = true := by
  rw [padded, String.toList_append, String.toList_ofList, List.mem_append] at member
  rcases member with zero | digit
  · rw [List.eq_of_mem_replicate zero]
    rfl
  · exact isDigit_of_mem_repr digit

/-- The time is written with digits and separators. -/
theorem clockUtc_chars (now : Nat) {char : Char} (member : char ∈ (clockUtc now).toList) :
    char.isDigit = true ∨ char ∈ ['-', 'T', ':'] := by
  have separates {text : String} (known : text = "-" ∨ text = "T" ∨ text = ":")
      (in_text : char ∈ text.toList) : char ∈ ['-', 'T', ':'] := by
    rcases known with rfl | rfl | rfl <;> simp at in_text <;> simp [in_text]
  simp only [clockUtc, String.toList_append, List.mem_append] at member
  rcases member with (((((((((digit | separator) | digit) | separator) | digit) | separator) |
    digit) | separator) | digit) | separator) | digit
  all_goals first
    | exact .inl (isDigit_of_mem_padded digit)
    | exact .inr (separates (by simp) separator)

/-! ## Parameters -/

/-- The tag of a share, as `/init` reads it. -/
theorem IsTag.plain_char {tag : String} (is_tag : IsTag tag) {char : Char}
    (member : char ∈ tag.toList) : IsPlain char := by
  rcases is_tag.plain char member with alphanum | rfl
  · exact .inl alphanum
  · exact .inr (by decide)

theorem plain_clockUtc {now : Nat} {char : Char} (member : char ∈ (clockUtc now).toList) :
    IsPlain char := by
  rcases clockUtc_chars now member with digit | separator
  · exact .inl (by simp [Char.isAlphanum, digit])
  · exact plain_of_all (by decide) char separator

/-- A parameter of plain characters is one word and stands for itself. -/
theorem tagParameters_of_plain {expand : String → List String} (keeps : KeepsLiterals expand)
    {word : String} (plain : ∀ char ∈ word.toList, IsPlain char) (nonempty : word ≠ "") :
    tagParameters expand word =
      match Text.stripPrefix word "virtiofs.tags=" with
      | none => []
      | some tags => (fieldsAt ',' tags).flatMap expand :=
  tagParameters_of_literal keeps (fun char member => not_blank_of_plain (plain char member))
    nonempty (fun char member => not_special_of_plain (plain char member))

theorem plain_append {left right : String} (left_plain : ∀ char ∈ left.toList, IsPlain char)
    (right_plain : ∀ char ∈ right.toList, IsPlain char) :
    ∀ char ∈ (left ++ right).toList, IsPlain char := by
  intro char member
  rw [String.toList_append, List.mem_append] at member
  rcases member with in_left | in_right
  · exact left_plain char in_left
  · exact right_plain char in_right

theorem plain_intercalate {tags : List String} (are_tags : ∀ tag ∈ tags, IsTag tag) :
    ∀ char ∈ (",".intercalate tags).toList, IsPlain char := by
  induction tags with
  | nil => simp
  | cons tag tags ih =>
      have tag_plain (char : Char) : char ∈ tag.toList → IsPlain char :=
        (are_tags tag List.mem_cons_self).plain_char
      have rest := ih fun other member => are_tags other (List.mem_cons_of_mem tag member)
      cases tags with
      | nil => simpa using tag_plain
      | cons next tags =>
          rw [String.intercalate_cons_cons]
          exact plain_append (plain_append tag_plain (plain_of_all (by decide))) rest

/-- The tags are read back. -/
theorem tagParameters_tags {expand : String → List String} (keeps : KeepsLiterals expand)
    {tags : List String} (some_tag : tags ≠ []) (are_tags : ∀ tag ∈ tags, IsTag tag) :
    tagParameters expand ("virtiofs.tags=" ++ ",".intercalate tags) = tags := by
  have name_plain : ∀ char ∈ "virtiofs.tags=".toList, IsPlain char := plain_of_all (by decide)
  have plain := plain_append name_plain (plain_intercalate are_tags)
  have split : fieldsAt ',' (",".intercalate tags) = tags :=
    fieldsAt_intercalate some_tag (fun tag member => (are_tags tag member).nonempty)
      fun tag member => (are_tags tag member).free ⟨rfl, by decide⟩
  rw [tagParameters_of_plain keeps plain (by simp), Text.stripPrefix_append]
  have literal (tag : String) (member : tag ∈ tags) : expand tag = [tag] :=
    keeps tag fun char char_mem => not_special_of_plain ((are_tags tag member).plain_char char_mem)
  calc (fieldsAt ',' (",".intercalate tags)).flatMap expand
      = tags.flatMap fun tag => [tag] := by rw [split, List.flatMap_congr literal]
    _ = tags := List.flatMap_singleton' tags

/-! ## The command line of the daemon -/

theorem cmdline_of_daemonArgsFromCli {env : HostEnv} {now : Nat} {cli : Cli} {args : DaemonArgs}
    (accepted : daemonArgsFromCli env now cli = .ok args) :
    args.cmdline = cmdlineWithClock now (baseCmdline env cli) := by
  unfold daemonArgsFromCli at accepted
  dsimp only at accepted
  split at accepted
  · cases accepted
  · split at accepted
    · cases accepted
    · cases built : buildVirtiofsShares env cli.volumes with
      | error e => simp [built, bind, Except.bind] at accepted
      | ok shares =>
          cases forwards : parsePorts cli.ports with
          | error e => simp [built, forwards, bind, Except.bind] at accepted
          | ok forwards =>
              simp only [built, forwards, bind, Except.bind, Except.ok.injEq] at accepted
              subst accepted
              rfl

theorem contains_clock (base : String) (now : Nat) :
    Text.contains (base ++ " clock.utc=" ++ clockUtc now) "clock.utc=" = true := by
  refine decide_eq_true ⟨base.toList ++ [' '], (clockUtc now).toList, ?_⟩
  simp

/-- The daemon has the command line of the flags or of `vm.conf`, with the time at which the CLI or
the daemon has read its clock. -/
theorem cmdline_of_child {env : HostEnv} {now later : Nat} {cli : Cli} {args child : DaemonArgs}
    (accepted : daemonArgsFromCli env now cli = .ok args)
    (spawned : childDaemonArgs env later args = .ok child)
    (no_clock : Text.contains (baseCmdline env cli) "clock.utc=" = false) :
    ∃ time, (time = now ∨ time = later) ∧
      child.cmdline = baseCmdline env cli ++ " clock.utc=" ++ clockUtc time := by
  obtain ⟨profile_eq, -⟩ := shares_of_daemonArgsFromCli accepted
  have args_cmdline : args.cmdline = baseCmdline env cli ++ " clock.utc=" ++ clockUtc now := by
    rw [cmdline_of_daemonArgsFromCli accepted, cmdlineWithClock, no_clock,
      if_neg Bool.false_ne_true]
  rw [childDaemonArgs, parseArgs_daemonSubprocessArgs] at spawned
  have child_cmdline := cmdline_of_daemonArgsFromCli spawned
  rw [baseCmdline, childCli, profile_eq] at child_cmdline
  cases configured : (env.profileConfig cli.profile).cmdline with
  | none =>
      refine ⟨now, .inl rfl, ?_⟩
      rw [child_cmdline, configured, Option.getD_none, cmdlineWithClock, args_cmdline,
        contains_clock, if_pos rfl]
  | some line =>
      have base_eq : baseCmdline env cli = line := by rw [baseCmdline, configured, Option.getD_some]
      rw [base_eq] at no_clock ⊢
      refine ⟨later, .inr rfl, ?_⟩
      rw [child_cmdline, configured, Option.getD_some, cmdlineWithClock, no_clock,
        if_neg Bool.false_ne_true]

/-- What `/init` reads on a command line with a time and tags. -/
theorem init_of_parameters {expand : String → List String} (keeps : KeepsLiterals expand)
    {base : String} (plain : PlainBase expand base) (time : Nat) {tags : List String}
    (some_tag : tags ≠ []) (are_tags : ∀ tag ∈ tags, IsTag tag) :
    init expand (base ++ " clock.utc=" ++ clockUtc time ++ " virtiofs.tags=" ++
        ",".intercalate tags ++ "\n") =
      clockCommands (clockUtc time) ++ shareCommands tags := by
  have name_plain : ∀ char ∈ "clock.utc=".toList, IsPlain char := plain_of_all (by decide)
  have time_plain : ∀ char ∈ (clockUtc time).toList, IsPlain char := fun _ => plain_clockUtc
  have clock_plain := plain_append name_plain time_plain
  have parts : base ++ " clock.utc=" ++ clockUtc time ++ " virtiofs.tags=" ++
      ",".intercalate tags ++ "\n" = base ++ String.singleton ' ' ++
        (("clock.utc=" ++ clockUtc time) ++ String.singleton ' ' ++
          (("virtiofs.tags=" ++ ",".intercalate tags) ++ String.singleton '\n' ++ "")) := by
    have clock_eq : " clock.utc=" = String.singleton ' ' ++ "clock.utc=" := by decide
    have tags_eq : " virtiofs.tags=" = String.singleton ' ' ++ "virtiofs.tags=" := by decide
    rw [clock_eq, tags_eq]
    simp only [String.append_assoc, String.append_empty]
    rfl
  have unbroken : ∀ char ∈ ("clock.utc=" ++ clockUtc time).toList, isBreak char = false := by
    intro char member
    have visible := not_blank_of_plain (clock_plain char member)
    simp only [isBlank, Bool.or_eq_false_iff] at visible
    simp [isBreak, visible.1.1, visible.2]
  have no_equals : '=' ∉ (clockUtc time).toList := by
    intro member
    rcases clockUtc_chars time member with digit | separator
    · exact absurd digit (by decide)
    · exact absurd separator (by decide)
  have clock : clockParameter (base ++ String.singleton ' ' ++
      (("clock.utc=" ++ clockUtc time) ++ String.singleton ' ' ++
        (("virtiofs.tags=" ++ ",".intercalate tags) ++ String.singleton '\n' ++ ""))) =
      clockUtc time := by
    rw [clockParameter_append rfl (no_clock_of_not_contains plain.no_clock),
      clockParameter_time rfl unbroken no_equals]
  have clock_tags : tagParameters expand ("clock.utc=" ++ clockUtc time) = [] := by
    have other : Text.startsWith ("clock.utc=" ++ clockUtc time) "virtiofs.tags=" = false := by
      rw [Text.startsWith, String.toList_append]
      rfl
    rw [tagParameters_of_plain keeps clock_plain (by simp), Text.stripPrefix, other,
      if_neg Bool.false_ne_true]
  have read : tagParameters expand (base ++ String.singleton ' ' ++
      (("clock.utc=" ++ clockUtc time) ++ String.singleton ' ' ++
        (("virtiofs.tags=" ++ ",".intercalate tags) ++ String.singleton '\n' ++ ""))) = tags := by
    rw [tagParameters_append rfl, tagParameters_append rfl, tagParameters_append rfl, plain.no_tags,
      clock_tags, tagParameters_tags keeps some_tag are_tags]
    exact List.append_nil tags
  rw [parts, init, clock, read]

/-- The shares of the daemon begin with that of the named volumes, which alone has its tag. -/
theorem shares_of_child {env : HostEnv} {later : Nat} {args child : DaemonArgs}
    (spawned : childDaemonArgs env later args = .ok child) :
    ∃ shares, child.virtiofsShares = volumesShare env child.profile :: shares ∧
      ∀ share ∈ shares, share.tag ≠ "pelagos-volumes" := by
  rw [childDaemonArgs, parseArgs_daemonSubprocessArgs] at spawned
  obtain ⟨profile_eq, shares, -, shares_eq⟩ := shares_of_daemonArgsFromCli spawned
  have nodup := tags_nodup spawned
  rw [shares_eq, List.map_cons, List.nodup_cons] at nodup
  exact ⟨shares, profile_eq ▸ shares_eq, fun share member same =>
    nodup.1 (List.mem_map.mpr ⟨share, member, same⟩)⟩

/-- The VM that the daemon boots reads the time and the tags of all shares. -/
theorem init_of_child {env : HostEnv} {now later : Nat} {cli : Cli} {args child : DaemonArgs}
    (accepted : daemonArgsFromCli env now cli = .ok args)
    (spawned : childDaemonArgs env later args = .ok child) {expand : String → List String}
    (keeps : KeepsLiterals expand) (plain : PlainBase expand (baseCmdline env cli)) :
    ∃ time, (time = now ∨ time = later) ∧ init expand (procCmdline child) =
      clockCommands (clockUtc time) ++
        shareCommands (child.virtiofsShares.map VirtiofsShare.tag) := by
  obtain ⟨time, read_at, cmdline_eq⟩ := cmdline_of_child accepted spawned plain.no_clock
  obtain ⟨shares, shares_eq, -⟩ := shares_of_child spawned
  have are_tags : ∀ share ∈ child.virtiofsShares, IsTag share.tag := by
    rw [childDaemonArgs, parseArgs_daemonSubprocessArgs] at spawned
    exact isTag_of_accepted spawned
  have some_tag : child.virtiofsShares.map VirtiofsShare.tag ≠ [] := by simp [shares_eq]
  refine ⟨time, read_at, ?_⟩
  rw [procCmdline, buildCmdline, buildCmdlineFromParts, if_neg (by simp [shares_eq]), cmdline_eq,
    init_of_parameters keeps plain time some_tag (by simpa using are_tags)]

theorem clockCommands_clockUtc (time : Nat) :
    clockCommands (clockUtc time) = [.setDate (String.ofList
      ((clockUtc time).toList.map fun char => if char = 'T' then ' ' else char))] := by
  have letter : 'T' ∈ (clockUtc time).toList := by
    simp only [clockUtc, String.toList_append, List.mem_append]
    exact .inl (.inl (.inl (.inl (.inl (.inr (by decide))))))
  have some_time : clockUtc time ≠ "" := by
    intro empty
    rw [empty] at letter
    exact List.not_mem_nil letter
  rw [clockCommands, if_neg some_time]

/-- With one share for the named volumes, its commands are the last. -/
theorem shareCommands_volumes {shares : List VirtiofsShare}
    (others : ∀ share ∈ shares, share.tag ≠ "pelagos-volumes") :
    shareCommands ("pelagos-volumes" :: shares.map VirtiofsShare.tag) =
      (shares.flatMap fun share => [.makeDir ("/mnt/" ++ share.tag),
        .mountVirtiofs share.tag ("/mnt/" ++ share.tag)]) ++
      [.makeDir "/var/lib/pelagos", .makeDir "/var/lib/pelagos/volumes",
        .mountVirtiofs "pelagos-volumes" "/var/lib/pelagos/volumes"] := by
  rw [shareCommands, if_pos List.mem_cons_self, List.flatMap_cons, if_pos rfl, List.nil_append,
    List.flatMap_map, List.append_assoc, List.flatMap_congr fun share member =>
      if_neg (others share member)]
  rfl

/-- Whatever the flags and `vm.conf` are, as long as their command line has no time or tags of its
own: `/init` sets the clock to the time that the CLI or the daemon has read, mounts every share
below `/mnt` in the order of the configuration, and that of the named volumes last. -/
theorem init_follows_configuration {env : HostEnv} {now later : Nat} {cli : Cli}
    {args child : DaemonArgs} (accepted : daemonArgsFromCli env now cli = .ok args)
    (spawned : childDaemonArgs env later args = .ok child) {expand : String → List String}
    (keeps : KeepsLiterals expand) (plain : PlainBase expand (baseCmdline env cli)) :
    ∃ time shares, (time = now ∨ time = later) ∧
      child.virtiofsShares = volumesShare env child.profile :: shares ∧
      init expand (procCmdline child) =
        .setDate (String.ofList ((clockUtc time).toList.map fun char =>
          if char = 'T' then ' ' else char)) ::
        (shares.flatMap fun share => [.makeDir ("/mnt/" ++ share.tag),
          .mountVirtiofs share.tag ("/mnt/" ++ share.tag)]) ++
        [.makeDir "/var/lib/pelagos", .makeDir "/var/lib/pelagos/volumes",
          .mountVirtiofs "pelagos-volumes" "/var/lib/pelagos/volumes"] := by
  obtain ⟨time, read_at, init_eq⟩ := init_of_child accepted spawned keeps plain
  obtain ⟨shares, shares_eq, others⟩ := shares_of_child spawned
  have tags_eq : child.virtiofsShares.map VirtiofsShare.tag =
      "pelagos-volumes" :: shares.map VirtiofsShare.tag := by
    rw [shares_eq, List.map_cons, volumesShare]
  refine ⟨time, shares, read_at, shares_eq, ?_⟩
  rw [init_eq, tags_eq, clockCommands_clockUtc, shareCommands_volumes others, List.singleton_append,
    List.cons_append]

/-- A daemon with the default command line and a share outside `$HOME`. -/
theorem exists_data_daemon :
    let env := plainHost (some "/Users/ada") none
    let cli := { Cli.defaults env with volumes := ["/Volumes/data:/data:ro"] }
    ∃ args child, daemonArgsFromCli env 0 cli = .ok args ∧ childDaemonArgs env 1 args = .ok child ∧
      PlainBase (fun word => [word]) (baseCmdline env cli) := by
  intro env cli
  obtain ⟨args, accepted, computes⟩ : ∃ args, daemonArgsFromCli env 0 cli = .ok args ∧
      (daemonArgsFromCli env 1 (childCli env args)).toBool = true := ⟨_, rfl, by decide⟩
  cases computed : daemonArgsFromCli env 1 (childCli env args) with
  | error e => simp [computed, Except.toBool] at computes
  | ok child =>
      refine ⟨args, child, accepted, ?_, by decide, by decide⟩
      rw [childDaemonArgs, parseArgs_daemonSubprocessArgs]
      exact computed

theorem init_mounts_data :
    let env := plainHost (some "/Users/ada") none
    ∃ child time shares, (time = 0 ∨ time = 1) ∧
      child.virtiofsShares = volumesShare env child.profile :: shares ∧
      init (fun word => [word]) (procCmdline child) =
        .setDate (String.ofList ((clockUtc time).toList.map fun char =>
          if char = 'T' then ' ' else char)) ::
        (shares.flatMap fun share => [.makeDir ("/mnt/" ++ share.tag),
          .mountVirtiofs share.tag ("/mnt/" ++ share.tag)]) ++
        [.makeDir "/var/lib/pelagos", .makeDir "/var/lib/pelagos/volumes",
          .mountVirtiofs "pelagos-volumes" "/var/lib/pelagos/volumes"] := by
  obtain ⟨args, child, accepted, spawned, plain⟩ := exists_data_daemon
  exact ⟨child, init_follows_configuration accepted spawned (fun _ _ => rfl) plain⟩

/-! ## Places -/

/-- The mount points of the shares with the directories behind them. -/
def bootMounts (workingDir : Place) (shares : List VirtiofsShare) : Set (Place × Place) :=
  { pair | ∃ share ∈ shares, pair = (mountPoint share.tag, resolve workingDir share.hostPath) }

theorem mountTable_append (first second : List InitCommand) :
    mountTable (first ++ second) = mountTable first ++ mountTable second :=
  List.filterMap_append

/-- The places where `/init` mounts the shares. -/
theorem mountTable_init {shares : List VirtiofsShare}
    (names : ∀ share ∈ shares, body share.tag = [.normal share.tag])
    (others : ∀ share ∈ shares, share.tag ≠ "pelagos-volumes") :
    mountTable (shareCommands ("pelagos-volumes" :: shares.map VirtiofsShare.tag)) =
      shares.map (fun share => (mountPoint share.tag, share.tag)) ++
        [(mountPoint "pelagos-volumes", "pelagos-volumes")] := by
  have each : mountTable (shares.flatMap fun share =>
      [.makeDir ("/mnt/" ++ share.tag), .mountVirtiofs share.tag ("/mnt/" ++ share.tag)]) =
      shares.map fun share => (mountPoint share.tag, share.tag) := by
    induction shares with
    | nil => rfl
    | cons share shares ih =>
        have point : mountPoint share.tag = [share.tag, "mnt"] :=
          if_neg (others share List.mem_cons_self)
        have rest := ih (fun other member => names other (List.mem_cons_of_mem share member))
          fun other member => others other (List.mem_cons_of_mem share member)
        rw [List.flatMap_cons, mountTable_append, rest, List.map_cons, point,
          ← resolve_mountPoint (names share List.mem_cons_self)]
        rfl
  have volumes : mountTable [.makeDir "/var/lib/pelagos", .makeDir "/var/lib/pelagos/volumes",
      .mountVirtiofs "pelagos-volumes" "/var/lib/pelagos/volumes"] =
      [(mountPoint "pelagos-volumes", "pelagos-volumes")] := by decide
  rw [shareCommands_volumes others, mountTable_append, each, volumes]

/-- Two mount points, one on the way to the other, are those of one tag. -/
theorem tag_eq_of_suffix {first second : String}
    (above : mountPoint first <:+ mountPoint second) : first = second := by
  unfold mountPoint at above
  split at above <;> split at above <;> rename_i first_eq second_eq
  · rw [first_eq, second_eq]
  · exact absurd above.length_le (by simp)
  · obtain ⟨front, same⟩ := above
    have last := congrArg List.getLast? same
    simp at last
  · have same := above.eq_of_length rfl
    exact (List.cons.inj same).1

theorem apart_mountTable {tags : List String} (nodup : tags.Nodup) :
    MountTable.Apart (tags.map fun tag => (mountPoint tag, tag)) := by
  refine List.pairwise_map.mpr (nodup.imp fun different => ⟨fun above => ?_, fun below => ?_⟩)
  · exact different (tag_eq_of_suffix above)
  · exact different (tag_eq_of_suffix below).symm

section Booted

variable {env : HostEnv} {now later : Nat} {cli : Cli} {args child : DaemonArgs}
  (accepted : daemonArgsFromCli env now cli = .ok args)
  (spawned : childDaemonArgs env later args = .ok child) {expand : String → List String}
  (keeps : KeepsLiterals expand) (plain : PlainBase expand (baseCmdline env cli))
include accepted spawned keeps plain

theorem mountTable_child :
    ∃ tags : List String, tags.Nodup ∧
      (∀ tag, tag ∈ tags ↔ tag ∈ child.virtiofsShares.map VirtiofsShare.tag) ∧
      mountTable (init expand (procCmdline child)) = tags.map fun tag => (mountPoint tag, tag) := by
  obtain ⟨time, -, init_eq⟩ := init_of_child accepted spawned keeps plain
  obtain ⟨shares, shares_eq, others⟩ := shares_of_child spawned
  rw [childDaemonArgs, parseArgs_daemonSubprocessArgs] at spawned
  have nodup := tags_nodup spawned
  have tags_eq : child.virtiofsShares.map VirtiofsShare.tag =
      "pelagos-volumes" :: shares.map VirtiofsShare.tag := by
    rw [shares_eq, List.map_cons, volumesShare]
  have names (share : VirtiofsShare) (member : share ∈ shares) :=
    body_tag spawned (shares_eq ▸ List.mem_cons_of_mem _ member)
  have moved := List.perm_append_singleton "pelagos-volumes" (shares.map VirtiofsShare.tag)
  rw [tags_eq] at nodup init_eq
  refine ⟨shares.map VirtiofsShare.tag ++ ["pelagos-volumes"], moved.nodup_iff.mpr nodup,
    fun tag => tags_eq ▸ moved.mem_iff, ?_⟩
  rw [init_eq, clockCommands_clockUtc, mountTable_append, mountTable_init names others,
    List.map_append, List.map_map]
  rfl

/-- Every share is at its mount point, and nothing else of the VM is on the host. -/
theorem bootedPlace_eq_some_iff (workingDir : Place) {place image : Place} :
    bootedPlace workingDir child.virtiofsShares (init expand (procCmdline child)) place =
        some image ↔
      Corresponds (bootMounts workingDir child.virtiofsShares) place image := by
  obtain ⟨tags, nodup, mem_tags, table_eq⟩ := mountTable_child accepted spawned keeps plain
  rw [childDaemonArgs, parseArgs_daemonSubprocessArgs] at spawned
  have found_iff {tag : String} {rest : Place} := @MountTable.lookup_eq_some_iff String String _
    (tags.map fun tag => (mountPoint tag, tag)) (apart_mountTable nodup) place tag rest
  rw [bootedPlace, table_eq, Option.bind_eq_some_iff]
  constructor
  · rintro ⟨⟨tag, rest⟩, found, behind⟩
    obtain ⟨point, mounted, rfl⟩ := found_iff.mp found
    obtain ⟨other, -, entry_eq⟩ := List.mem_map.mp mounted
    obtain ⟨rfl, rfl⟩ := Prod.mk.inj entry_eq
    obtain ⟨share, named, rfl⟩ := Option.map_eq_some_iff.mp behind
    have tag_eq : share.tag = other := by simpa using List.find?_some named
    exact ⟨rest, _, _, ⟨share, List.mem_of_find?_eq_some named, rfl⟩, by rw [tag_eq], rfl⟩
  · rintro ⟨rest, core, root, ⟨share, member, pair_eq⟩, rfl, rfl⟩
    obtain ⟨rfl, rfl⟩ := Prod.mk.inj pair_eq
    have tag_mem : share.tag ∈ tags := (mem_tags share.tag).mpr (List.mem_map_of_mem member)
    refine ⟨(share.tag, rest), found_iff.mpr ⟨mountPoint share.tag, ?_, rfl⟩, ?_⟩
    · exact List.mem_map_of_mem tag_mem
    · rw [shareNamed_of_mem (tags_nodup spawned) member]
      rfl

/-- In the VM that the daemon boots, the CLI's picture of the shares is right everywhere but at the
share of the named volumes, which is at `/var/lib/pelagos/volumes` and not below `/mnt`. -/
theorem booted_places (workingDir : Place) :
    (∀ rest, bootedPlace workingDir child.virtiofsShares (init expand (procCmdline child))
        (rest ++ ["volumes", "pelagos", "lib", "var"]) =
      some (rest ++ resolve workingDir (pelagosVolumesHostPath env child.profile))) ∧
    (∀ rest, bootedPlace workingDir child.virtiofsShares (init expand (procCmdline child))
        (rest ++ ["pelagos-volumes", "mnt"]) = none) ∧
    ∀ place, ¬ ["volumes", "pelagos", "lib", "var"] <:+ place →
      ¬ ["pelagos-volumes", "mnt"] <:+ place →
      bootedPlace workingDir child.virtiofsShares (init expand (procCmdline child)) place =
        hostPlace workingDir child.virtiofsShares place := by
  have booted_iff {place image : Place} := @bootedPlace_eq_some_iff env now later cli args child
    accepted spawned expand keeps plain workingDir place image
  obtain ⟨shares, shares_eq, -⟩ := shares_of_child spawned
  rw [childDaemonArgs, parseArgs_daemonSubprocessArgs] at spawned
  have elsewhere {tag : String} (other : tag ≠ "pelagos-volumes") : mountPoint tag = [tag, "mnt"] :=
    if_neg other
  refine ⟨fun rest => booted_iff.mpr ?_, fun rest => ?_, fun place not_volumes not_below => ?_⟩
  · refine ⟨rest, _, _, ⟨volumesShare env child.profile, ?_, rfl⟩, rfl, rfl⟩
    rw [shares_eq]
    exact List.mem_cons_self
  · refine Option.eq_none_iff_forall_ne_some.mpr fun image found => ?_
    obtain ⟨other, core, root, ⟨share, -, pair_eq⟩, place_eq, -⟩ := booted_iff.mp found
    obtain ⟨rfl, -⟩ := Prod.mk.inj pair_eq
    by_cases volumes : share.tag = "pelagos-volumes"
    · rw [volumes] at place_eq
      have last := congrArg List.getLast? place_eq
      simp [mountPoint] at last
    · rw [elsewhere volumes] at place_eq
      have same := (List.append_inj' place_eq rfl).2
      exact volumes (List.cons.inj same).1.symm
  · refine Option.ext fun image => ?_
    rw [booted_iff, hostPlace_eq_some_iff (tags_nodup spawned)]
    constructor
    · rintro ⟨rest, core, root, ⟨share, member, pair_eq⟩, rfl, rfl⟩
      obtain ⟨rfl, rfl⟩ := Prod.mk.inj pair_eq
      have other : share.tag ≠ "pelagos-volumes" := by
        intro volumes
        rw [volumes] at not_volumes
        exact not_volumes (List.suffix_append rest _)
      exact ⟨rest, _, _, ⟨share, member, rfl⟩, by rw [elsewhere other], rfl⟩
    · rintro ⟨rest, core, root, ⟨share, member, pair_eq⟩, rfl, rfl⟩
      obtain ⟨rfl, rfl⟩ := Prod.mk.inj pair_eq
      have other : share.tag ≠ "pelagos-volumes" := by
        intro volumes
        rw [volumes] at not_below
        exact not_below (List.suffix_append rest _)
      exact ⟨rest, _, _, ⟨share, member, rfl⟩, by rw [elsewhere other], rfl⟩

end Booted

theorem named_volume_booted :
    let env := plainHost (some "/Users/ada") none
    ∃ child, bootedPlace [] child.virtiofsShares (init (fun word => [word]) (procCmdline child))
        ["db", "volumes", "pelagos", "lib", "var"] =
      some ("db" :: resolve [] (pelagosVolumesHostPath env child.profile)) := by
  obtain ⟨args, child, accepted, spawned, plain⟩ := exists_data_daemon
  exact ⟨child, (booted_places accepted spawned (fun _ _ => rfl) plain []).1 ["db"]⟩

end Pelagos.CommandLine
