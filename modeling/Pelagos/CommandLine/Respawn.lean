import Pelagos.CommandLine.Volumes

/-!
# Shares of the daemon subprocess

The parent's share list is flattened to `--volume` specifications and rebuilt by the subprocess,
which adds `$HOME` and the volumes share again and drops what lies under `$HOME`.  The two lists
agree exactly when everything the parent added itself is dropped.
-/

namespace Pelagos.CommandLine

open Daemon

/-! ## Reading the arguments back -/

theorem parseArgs_cons (cli : Cli) (flag value : String) (rest : List String) :
    cli.parseArgs (flag :: value :: rest) = (cli.setFlag flag value).bind (·.parseArgs rest) := rfl

theorem parseArgs_command (cli : Cli) : cli.parseArgs ["vm-daemon-internal"] = some cli := rfl

/-- A repeated flag is read value by value. -/
theorem parseArgs_repeated {α : Type} {flag : String} (value : α → String)
    (add : Cli → List α → Cli) (add_nil : ∀ cli, add cli [] = cli)
    (read : ∀ cli item items,
      (cli.setFlag flag (value item)).map (add · items) = some (add cli (item :: items)))
    (cli : Cli) (items : List α) (rest : List String) :
    cli.parseArgs ((items.flatMap fun item => [flag, value item]) ++ rest) =
      (add cli items).parseArgs rest := by
  induction items generalizing cli with
  | nil => rw [List.flatMap_nil, List.nil_append, add_nil]
  | cons item items ih =>
      obtain ⟨next, set_eq, next_eq⟩ := Option.map_eq_some_iff.mp (read cli item items)
      rw [List.flatMap_cons, List.append_assoc, List.cons_append, List.cons_append,
        List.nil_append, parseArgs_cons, set_eq, Option.bind_some, ih, next_eq]

theorem parseArgs_volumes (cli : Cli) (shares : List VirtiofsShare) (rest : List String) :
    cli.parseArgs ((shares.flatMap fun share => ["--volume", shareSpec share]) ++ rest) =
      { cli with volumes := cli.volumes ++ shares.map shareSpec }.parseArgs rest := by
  refine parseArgs_repeated shareSpec
    (fun cli shares => { cli with volumes := cli.volumes ++ shares.map shareSpec }) ?_ ?_ cli shares
    rest
  · simp
  · intro cli share shares
    change some _ = some _
    simp

theorem parseArgs_ports (cli : Cli) (forwards : List PortForward) (rest : List String) :
    cli.parseArgs ((forwards.flatMap fun forward => ["--port", portSpec forward]) ++ rest) =
      { cli with ports := cli.ports ++ forwards.map portSpec }.parseArgs rest := by
  refine parseArgs_repeated portSpec
    (fun cli forwards => { cli with ports := cli.ports ++ forwards.map portSpec }) ?_ ?_ cli
    forwards rest
  · simp
  · intro cli forward forwards
    change some _ = some _
    simp

theorem parseArgs_extraDisks (cli : Cli) (paths : List String) (rest : List String) :
    cli.parseArgs ((paths.flatMap fun path => ["--extra-disk", path]) ++ rest) =
      { cli with extraDisks := cli.extraDisks ++ paths }.parseArgs rest := by
  refine parseArgs_repeated id
    (fun cli paths => { cli with extraDisks := cli.extraDisks ++ paths }) ?_ ?_ cli paths rest
  · simp
  · intro cli path paths
    change some _ = some _
    simp

theorem parseSize_repr (size : UInt64) : parseSize size.toNat.repr = some size := by
  rw [parseSize, Text.parseUnsigned_repr size.toNat_lt]
  simp

/-- The flags the subprocess reads. -/
def childCli (env : HostEnv) (args : DaemonArgs) : Cli :=
  { profile := args.profile, kernel := some args.kernel,
    initrd := args.initrd.or env.pelagosInitrd, disk := some args.disk, cmdline := args.cmdline,
    memory := some args.memoryMib, cpus := some args.cpus,
    volumes := args.virtiofsShares.map shareSpec, ports := args.portForwards.map portSpec,
    extraDisks := args.extraDisks }

/-- A profile that is not passed on is the default one. -/
theorem parseArgs_profile {cli : Cli} (unset : cli.profile = "default") (profile : String)
    (rest : List String) :
    cli.parseArgs ((if profile ≠ "default" then ["--profile", profile] else []) ++ rest) =
      { cli with profile }.parseArgs rest := by
  split
  · rfl
  · rename_i named
    rw [not_not.mp named, ← unset]
    rfl

theorem parseArgs_initrd (cli : Cli) (initrd : Option String) (rest : List String) :
    cli.parseArgs ((initrd.elim [] fun path => ["--initrd", path]) ++ rest) =
      { cli with initrd := initrd.or cli.initrd }.parseArgs rest := by
  cases initrd <;> rfl

theorem parseArgs_image (cli : Cli) (kernel disk : String) (rest : List String) :
    cli.parseArgs ("--kernel" :: kernel :: "--disk" :: disk :: rest) =
      { cli with kernel := some kernel, disk := some disk }.parseArgs rest := rfl

theorem parseArgs_machine (cli : Cli) (cmdline : String) (memory cpus : UInt64)
    (rest : List String) :
    cli.parseArgs ("--cmdline" :: cmdline :: "--memory" :: memory.toNat.repr :: "--cpus" ::
        cpus.toNat.repr :: rest) =
      { cli with cmdline, memory := some memory, cpus := some cpus }.parseArgs rest := by
  have memory_set (cli : Cli) : cli.setFlag "--memory" memory.toNat.repr =
      some { cli with memory := some memory } :=
    congrArg (Option.map _) (parseSize_repr memory)
  have cpus_set (cli : Cli) : cli.setFlag "--cpus" cpus.toNat.repr =
      some { cli with cpus := some cpus } :=
    congrArg (Option.map _) (parseSize_repr cpus)
  have cmdline_set : cli.setFlag "--cmdline" cmdline = some { cli with cmdline } := rfl
  rw [parseArgs_cons, cmdline_set, Option.bind_some, parseArgs_cons, memory_set, Option.bind_some,
    parseArgs_cons, cpus_set, Option.bind_some]

theorem parseArgs_daemonSubprocessArgs (env : HostEnv) (args : DaemonArgs) :
    (Cli.defaults env).parseArgs (daemonSubprocessArgs args) = some (childCli env args) := by
  simp only [daemonSubprocessArgs, List.append_assoc, List.cons_append, List.nil_append]
  rw [parseArgs_profile rfl, parseArgs_image, parseArgs_initrd, parseArgs_machine,
    parseArgs_volumes, parseArgs_ports, parseArgs_extraDisks, parseArgs_command]
  rfl

theorem parsePort_repr (port : UInt16) : parsePort port.toNat.repr = some port := by
  rw [parsePort, Text.parseUnsigned_repr port.toNat_lt]
  simp

theorem separator_notMem_repr (value : Nat) : ':' ∉ value.repr.toList := by
  intro member
  rw [Nat.toList_repr] at member
  have digit := Nat.isDigit_of_mem_toDigits (by decide) (by decide) member
  simp at digit

theorem parsePortSpec_portSpec (forward : PortForward) :
    parsePortSpec (portSpec forward) = some forward := by
  have split := Text.splitn_append 0 forward.containerPort.toNat.repr
    (separator_notMem_repr forward.hostPort.toNat)
  rw [Text.splitn_of_free 0 (separator_notMem_repr _)] at split
  change Text.splitn 2 ':' (portSpec forward) = _ at split
  simp [parsePortSpec, split, parsePort_repr]

theorem parsePorts_map_portSpec (forwards : List PortForward) :
    parsePorts (forwards.map portSpec) = .ok forwards := by
  induction forwards with
  | nil => rfl
  | cons forward forwards ih =>
      rw [List.map_cons, parsePorts, parsePortSpec_portSpec, ih]
      rfl

/-! ## Reading the shares back -/

theorem parseVolume_eq_ok {env : HostEnv} {index : Nat} {spec : String} {share : VirtiofsShare} :
    parseVolume env index spec = .ok share ↔
      ∃ rest, Text.splitn 3 ':' spec = share.hostPath :: share.containerPath :: rest ∧
        env.pathExists share.hostPath = true ∧ share.tag = "share" ++ index.repr ∧
        share.readOnly = (rest.head? == some "ro") := by
  unfold parseVolume
  split
  · rename_i hostPath containerPath rest split_eq
    by_cases found : env.pathExists hostPath = true
    · rw [if_pos found]
      constructor
      · intro parsed
        obtain rfl := Except.ok.inj parsed
        exact ⟨rest, split_eq, found, rfl, rfl⟩
      · rintro ⟨others, same, -, tag_eq, flag_eq⟩
        rw [split_eq] at same
        obtain ⟨rfl, rfl, rfl⟩ : hostPath = share.hostPath ∧ containerPath = share.containerPath ∧
            rest = others := by simpa using same
        rw [← tag_eq, ← flag_eq]
    · rw [if_neg found]
      simp only [reduceCtorEq, false_iff]
      rintro ⟨others, same, exists_path, -⟩
      rw [split_eq] at same
      obtain ⟨rfl, -⟩ := List.cons.inj same
      exact found exists_path
  · rename_i no_pieces
    simp only [reduceCtorEq, false_iff]
    rintro ⟨rest, split_eq, -⟩
    exact no_pieces _ _ _ split_eq

/-- The host path of a share is what the specification has before its first separator. -/
theorem firstPiece_of_parseVolume {env : HostEnv} {index : Nat} {spec : String}
    {share : VirtiofsShare} (parsed : parseVolume env index spec = .ok share) :
    Text.firstPiece ':' spec = share.hostPath := by
  obtain ⟨rest, split, -⟩ := parseVolume_eq_ok.mp parsed
  exact (Text.splitn_three_cons split).2.2

theorem splitn_shareSpec {share : VirtiofsShare} (host_free : ':' ∉ share.hostPath.toList)
    (container_free : ':' ∉ share.containerPath.toList) :
    Text.splitn 3 ':' (shareSpec share) =
      share.hostPath :: share.containerPath :: if share.readOnly then ["ro"] else [] := by
  cases flag : share.readOnly with
  | false =>
      have spec_eq : shareSpec share =
          share.hostPath ++ String.singleton ':' ++ share.containerPath := by
        simp [shareSpec, flag]
      rw [spec_eq, Text.splitn_append 1 _ host_free, Text.splitn_of_free 1 container_free]
      rfl
  | true =>
      have spec_eq : shareSpec share = share.hostPath ++ String.singleton ':' ++
          (share.containerPath ++ String.singleton ':' ++ "ro") := by
        simp [shareSpec, flag, String.append_assoc]
      rw [spec_eq, Text.splitn_append 1 _ host_free, Text.splitn_append 0 _ container_free]
      rfl

/-- A share read from a specification is read again from its own, whatever its position. -/
theorem parseVolume_shareSpec {env : HostEnv} {index : Nat} {spec : String}
    {share : VirtiofsShare} (parsed : parseVolume env index spec = .ok share) (position : Nat) :
    parseVolume env position (shareSpec share) =
      .ok { share with tag := "share" ++ position.repr } := by
  obtain ⟨rest, split, exists_path, -, flag⟩ := parseVolume_eq_ok.mp parsed
  obtain ⟨host_free, container_free, -⟩ := Text.splitn_three_cons split
  refine parseVolume_eq_ok.mpr
    ⟨_, splitn_shareSpec host_free container_free, exists_path, rfl, ?_⟩
  cases share.readOnly <;> rfl

theorem parseVolumesFrom_cons {env : HostEnv} {index : Nat} {spec : String}
    {specs : List String} {shares : List VirtiofsShare} :
    parseVolumesFrom env index (spec :: specs) = .ok shares ↔
      ∃ share rest, shares = share :: rest ∧ parseVolume env index spec = .ok share ∧
        parseVolumesFrom env (index + 1) specs = .ok rest := by
  rw [parseVolumesFrom]
  cases parseVolume env index spec with
  | error e => simp [bind, Except.bind]
  | ok share =>
      cases parseVolumesFrom env (index + 1) specs with
      | error e => simp [bind, Except.bind]
      | ok rest => simp [bind, Except.bind, eq_comm]

theorem length_parseVolumesFrom {env : HostEnv} {index : Nat} {specs : List String}
    {shares : List VirtiofsShare} (parsed : parseVolumesFrom env index specs = .ok shares) :
    shares.length = specs.length := by
  induction specs generalizing index shares with
  | nil =>
      obtain rfl := Except.ok.inj parsed
      rfl
  | cons spec specs ih =>
      obtain ⟨share, rest, rfl, -, parsed_rest⟩ := parseVolumesFrom_cons.mp parsed
      simp [ih parsed_rest]

/-- Shares read from position `index` on are read again from their own specifications. -/
theorem parseVolumesFrom_map_shareSpec {env : HostEnv} {index : Nat} {specs : List String}
    {shares : List VirtiofsShare} (parsed : parseVolumesFrom env index specs = .ok shares) :
    parseVolumesFrom env index (shares.map shareSpec) = .ok shares := by
  induction specs generalizing index shares with
  | nil =>
      obtain rfl := Except.ok.inj parsed
      rfl
  | cons spec specs ih =>
      obtain ⟨share, rest, rfl, parsed_share, parsed_rest⟩ := parseVolumesFrom_cons.mp parsed
      obtain ⟨-, -, -, tag_eq, -⟩ := parseVolume_eq_ok.mp parsed_share
      refine parseVolumesFrom_cons.mpr ⟨share, rest, rfl, ?_, ih parsed_rest⟩
      rw [parseVolume_shareSpec parsed_share index, ← tag_eq]

theorem firstPiece_shareSpec (share : VirtiofsShare) :
    Text.firstPiece ':' (shareSpec share) = Text.firstPiece ':' share.hostPath := by
  have spec_eq : shareSpec share = share.hostPath ++ String.singleton ':' ++
      (share.containerPath ++ if share.readOnly then ":ro" else "") := by
    simp [shareSpec, String.append_assoc]
  rw [spec_eq, Text.firstPiece_append]

/-- Specifications outside `$HOME` lead to shares whose specifications are outside it. -/
theorem outsideHome_map_shareSpec {env : HostEnv} {index : Nat} {specs : List String}
    {shares : List VirtiofsShare} (parsed : parseVolumesFrom env index specs = .ok shares)
    (outside : ∀ spec ∈ specs, underHome env (Text.firstPiece ':' spec) = false) :
    outsideHome env (shares.map shareSpec) = shares.map shareSpec := by
  induction specs generalizing index shares with
  | nil =>
      obtain rfl := Except.ok.inj parsed
      rfl
  | cons spec specs ih =>
      obtain ⟨share, rest, rfl, parsed_share, parsed_rest⟩ := parseVolumesFrom_cons.mp parsed
      have rest_eq := ih parsed_rest fun other member =>
        outside other (List.mem_cons_of_mem spec member)
      have share_outside : underHome env (Text.firstPiece ':' (shareSpec share)) = false := by
        rw [firstPiece_shareSpec, ← firstPiece_of_parseVolume parsed_share,
          Text.firstPiece_of_free (Text.firstPiece_free ':' spec)]
        exact outside spec List.mem_cons_self
      rw [List.map_cons, outsideHome, List.filter_cons_of_pos (by simp [share_outside])]
      rw [outsideHome] at rest_eq
      rw [rest_eq]

/-- `$HOME` up to its first separator lies under `$HOME` only when there is no separator in it. -/
theorem underHome_firstPiece_home {env : HostEnv} {home : String} (set : env.home = some home) :
    underHome env (Text.firstPiece ':' home) = true ↔ ':' ∉ home.toList := by
  constructor
  · intro under member
    simp only [underHome, set, Bool.or_eq_true, beq_iff_eq, Text.startsWith_iff] at under
    refine Text.firstPiece_free ':' home ?_
    rcases under with same | ⟨rest, same⟩
    · rw [same]
      exact member
    · rw [same]
      simp [member]
  · intro free
    simp [underHome, set, Text.firstPiece_of_free free]

/-- What the parent adds on its own lies under `$HOME`: `$HOME` is set and holds no separator, and
the volumes directory, up to its first separator, is in it. -/
def HomeCovers (env : HostEnv) (profile : String) : Prop :=
  ∃ home, env.home = some home ∧ ':' ∉ home.toList ∧
    underHome env (Text.firstPiece ':' (pelagosVolumesHostPath env profile)) = true

/-- The shares come from `$HOME`, when it is set, and from specifications outside it. -/
theorem exists_effectiveVolumes (env : HostEnv) (volumes : List String) :
    ∃ outside, effectiveVolumes env volumes = (env.home.map (· ++ ":")).toList ++ outside ∧
      ∀ spec ∈ outside, underHome env (Text.firstPiece ':' spec) = false := by
  have filtered : ∀ specs, ∀ spec ∈ outsideHome env specs,
      underHome env (Text.firstPiece ':' spec) = false := by
    intro specs spec member
    simpa using (List.mem_filter.mp member).2
  unfold effectiveVolumes
  dsimp only
  split
  · rename_i present
    obtain ⟨home_set, first_eq⟩ : (env.home.map (· ++ ":")).isSome = true ∧
        volumes.head? = env.home.map (· ++ ":") := by simpa using present
    refine ⟨_, ?_, filtered (volumes.drop 1)⟩
    cases volumes with
    | nil => simp [← first_eq] at home_set
    | cons first rest => simp [← first_eq]
  · exact ⟨_, rfl, filtered volumes⟩

/-- The volumes share's specification is never taken for the one of `$HOME`. -/
theorem shareSpec_volumesShare_ne (env : HostEnv) (profile home : String) :
    shareSpec (volumesShare env profile) ≠ home ++ ":" := by
  intro same
  have last := congrArg (fun text => text.toList.getLast?) same
  simp [shareSpec, volumesShare] at last

theorem effectiveVolumes_child (env : HostEnv) (profile : String) (specs : List String) :
    effectiveVolumes env (shareSpec (volumesShare env profile) :: specs) =
      (env.home.map (· ++ ":")).toList ++
        outsideHome env (shareSpec (volumesShare env profile) :: specs) := by
  have absent : ((env.home.map (· ++ ":")).isSome &&
      (shareSpec (volumesShare env profile) :: specs).head? ==
        env.home.map (· ++ ":")) = false := by
    cases env.home with
    | none => rfl
    | some home => simp [shareSpec_volumesShare_ne]
  unfold effectiveVolumes
  dsimp only
  rw [absent]
  rfl

/-- The subprocess rebuilds the share list exactly when `$HOME` covers what the parent added. -/
theorem buildVirtiofsShares_child_iff {env : HostEnv} {profile : String} {volumes : List String}
    {shares : List VirtiofsShare} (built : buildVirtiofsShares env volumes = .ok shares) :
    buildVirtiofsShares env ((volumesShare env profile :: shares).map shareSpec) = .ok shares ↔
      HomeCovers env profile := by
  obtain ⟨outside, effective_eq, is_outside⟩ := exists_effectiveVolumes env volumes
  rw [buildVirtiofsShares, effective_eq, parseVolumes] at built
  rw [buildVirtiofsShares, List.map_cons, effectiveVolumes_child, parseVolumes]
  cases set : env.home with
  | none =>
      have nothing_under : ∀ hostPath, underHome env hostPath = false := by simp [underHome, set]
      have all_kept : ∀ specs, outsideHome env specs = specs := by simp [outsideHome, nothing_under]
      simp only [HomeCovers, set, reduceCtorEq, false_and, exists_false, iff_false]
      intro rebuilt
      have length_eq := length_parseVolumesFrom rebuilt
      simp [all_kept] at length_eq
  | some home =>
      simp only [set, Option.map_some, Option.toList_some, List.cons_append, List.nil_append]
        at built ⊢
      obtain ⟨homeShare, others, rfl, parsed_home, parsed_others⟩ :=
        parseVolumesFrom_cons.mp built
      have home_path : Text.firstPiece ':' (shareSpec homeShare) = Text.firstPiece ':' home := by
        have piece : Text.firstPiece ':' (home ++ ":") = Text.firstPiece ':' home := by
          simpa using Text.firstPiece_append ':' home ""
        rw [firstPiece_shareSpec, ← firstPiece_of_parseVolume parsed_home, piece,
          Text.firstPiece_of_free (Text.firstPiece_free ':' _)]
      have home_under := underHome_firstPiece_home set
      have kept := outsideHome_map_shareSpec parsed_others is_outside
      have covers_iff : HomeCovers env profile ↔ ':' ∉ home.toList ∧
          underHome env (Text.firstPiece ':' (pelagosVolumesHostPath env profile)) = true := by
        simp [HomeCovers, set]
      rw [covers_iff, ← home_under, List.map_cons]
      cases home_in : underHome env (Text.firstPiece ':' home) <;>
        cases volumes_in :
          underHome env (Text.firstPiece ':' (pelagosVolumesHostPath env profile))
      case true.true =>
        have dropped : outsideHome env (shareSpec (volumesShare env profile) ::
            shareSpec homeShare :: others.map shareSpec) = others.map shareSpec := by
          rw [← kept]
          simp [outsideHome, home_path, home_in, firstPiece_shareSpec, volumesShare, volumes_in]
        simp only [dropped, and_self, iff_true]
        exact parseVolumesFrom_cons.mpr ⟨homeShare, others, rfl, parsed_home,
          parseVolumesFrom_map_shareSpec parsed_others⟩
      -- In the other cases the rebuilt list is longer.
      all_goals
        simp only [Bool.false_eq_true, and_false, false_and, iff_false]
        intro rebuilt
        have length_eq := length_parseVolumesFrom rebuilt
        have kept_length := congrArg List.length kept
        simp [outsideHome, home_path, home_in, firstPiece_shareSpec, volumesShare, volumes_in]
          at length_eq kept_length
        omega

/-! ## Parent and subprocess -/

/-- The shares of accepted flags. -/
theorem shares_of_daemonArgsFromCli {env : HostEnv} {now : Nat} {cli : Cli} {args : DaemonArgs}
    (accepted : daemonArgsFromCli env now cli = .ok args) :
    args.profile = cli.profile ∧ ∃ shares, buildVirtiofsShares env cli.volumes = .ok shares ∧
      args.virtiofsShares = volumesShare env cli.profile :: shares := by
  unfold daemonArgsFromCli at accepted
  dsimp only at accepted
  split at accepted
  · simp at accepted
  · split at accepted
    · simp at accepted
    · cases built : buildVirtiofsShares env cli.volumes with
      | error e => simp [built, bind, Except.bind] at accepted
      | ok shares =>
          cases forwards : parsePorts cli.ports with
          | error e => simp [built, forwards, bind, Except.bind] at accepted
          | ok forwards =>
              simp only [built, forwards, bind, Except.bind, Except.ok.injEq] at accepted
              subst accepted
              exact ⟨rfl, shares, rfl, rfl⟩

theorem shares_of_childDaemonArgs (env : HostEnv) (now : Nat) (args : DaemonArgs) :
    (childDaemonArgs env now args).map DaemonArgs.virtiofsShares =
      (buildVirtiofsShares env (args.virtiofsShares.map shareSpec)).map
        (volumesShare env args.profile :: ·) := by
  rw [childDaemonArgs, parseArgs_daemonSubprocessArgs]
  simp only [daemonArgsFromCli, childCli, Option.some_or, parsePorts_map_portSpec]
  cases buildVirtiofsShares env (args.virtiofsShares.map shareSpec) <;> rfl

/-- For flags the parent accepts, the subprocess computes the parent's share list if and only if
`$HOME` covers the two shares the parent added on its own. -/
theorem child_shares_eq_iff {env : HostEnv} {now later : Nat} {cli : Cli} {args : DaemonArgs}
    (accepted : daemonArgsFromCli env now cli = .ok args) :
    (childDaemonArgs env later args).map DaemonArgs.virtiofsShares = .ok args.virtiofsShares ↔
      HomeCovers env cli.profile := by
  obtain ⟨profile_eq, shares, built, shares_eq⟩ := shares_of_daemonArgsFromCli accepted
  rw [shares_of_childDaemonArgs, shares_eq, profile_eq, ← buildVirtiofsShares_child_iff built]
  cases buildVirtiofsShares env ((volumesShare env cli.profile :: shares).map shareSpec) with
  | error e => simp [Except.map]
  | ok rebuilt => simp [Except.map]

/-- A host with the given home and data directories on which every path exists. -/
def plainHost (home xdgDataHome : Option String) : HostEnv :=
  { home, xdgDataHome, pelagosKernel := none, pelagosInitrd := none, pelagosDisk := none,
    pelagosCmdline := none, pathExists := fun path => path ≠ "",
    profileConfig := fun _ => ⟨none, none, none, none, none, none⟩,
    artifacts := some ⟨"/opt/pelagos/vmlinuz", none, "/opt/pelagos/root.img"⟩ }

/-- With the data directory in `$HOME` the subprocess gets the parent's shares. -/
theorem child_shares_eq_of_default_dirs :
    let env := plainHost (some "/Users/ada") none
    let cli :=
      { Cli.defaults env with volumes := ["/Users/ada/src:/src", "/Volumes/data:/data:ro"] }
    ∃ args, daemonArgsFromCli env 0 cli = .ok args ∧
      (childDaemonArgs env 1 args).map DaemonArgs.virtiofsShares = .ok args.virtiofsShares := by
  intro env cli
  obtain ⟨args, accepted⟩ : ∃ args, daemonArgsFromCli env 0 cli = .ok args := ⟨_, rfl⟩
  refine ⟨args, accepted, (child_shares_eq_iff accepted).mpr ⟨"/Users/ada", rfl, ?_, ?_⟩⟩
  · decide
  · decide

/-- A data directory outside `$HOME` gives the subprocess one share more than the parent. -/
theorem child_shares_ne_of_outside_data_dir :
    ¬ ∀ (env : HostEnv) (now later : Nat) (cli : Cli) (args : DaemonArgs),
      daemonArgsFromCli env now cli = .ok args →
      (childDaemonArgs env later args).map DaemonArgs.virtiofsShares = .ok args.virtiofsShares := by
  intro equal
  have same := equal (plainHost (some "/Users/ada") (some "/Volumes/data")) 0 1
    (Cli.defaults (plainHost (some "/Users/ada") (some "/Volumes/data"))) _ rfl
  exact absurd same (by decide)

end Pelagos.CommandLine
