import Pelagos.DockerShim.Invocations

/-!
# Agreement of the shim and the CLI

The subcommands and flags that the shim uses are those that the CLI declares, but for `port-proxy`.
The values that it hands on have to look like values.
-/

namespace Pelagos.DockerShim

open CommandGrammar CommandLine

/-- The values of the prefix arguments look like values. -/
def PlainConfig (cfg : Config) : Prop :=
  plain cfg.kernel = true ∧ plain cfg.initrd = true ∧ plain cfg.disk = true ∧
    plain cfg.cmdline = true

/-- All of them look like values. -/
def Plain (values : List String) : Prop := ∀ value ∈ values, plain value = true

/-- The names that `cmd_inspect` inspects. -/
def inspected (world : Surroundings) (inspectType : Option String) (names : List String) :
    List String :=
  if inspectType = some "container" then names.filter fun name => (world.listed 0).contains name
  else if names.all fun name => (world.listed 0).contains name then
    names.filter fun name => (world.listed 1).contains name
  else []

/-- No port is published, values look like values, and the operands with what follows them are read
by the CLI without any other flag. -/
def Agrees (cfg : Config) (world : Surroundings) : DockerCmd → Prop
  | .pull image => PlainConfig cfg ∧ cliGrammar.reads "run" [image, "/bin/true"] = true
  | .run opts =>
      match opts.imageAndArgs with
      | [] => True
      | image :: cmdArgs =>
          opts.ports = [] ∧ PlainConfig cfg ∧ plain (effectiveName world opts.name) = true ∧
            Plain opts.volumes ∧ Plain (opts.mounts.filterMap parseMountAsVolume) ∧
            Plain opts.env ∧ Plain opts.labelArgs ∧
            cliGrammar.reads "run" (image :: (opts.entrypoint.toList ++ cmdArgs)) = true
  | .exec _ env user workdir nameAndArgs =>
      match nameAndArgs with
      | [] => True
      | name :: cmdArgs =>
          PlainConfig cfg ∧ Plain user.toList ∧ Plain workdir.toList ∧
            cliGrammar.reads "exec" (name :: (envWords env user ++ cmdArgs)) = true
  | .start names => names ≠ [] → PlainConfig cfg ∧ Plain names
  | .stop name | .rm _ name | .logs _ name => PlainConfig cfg ∧ plain name = true
  | .ps _ filters =>
      PlainConfig cfg ∧ (filters.any isLabelFilter = true → Plain (world.listed 0))
  | .inspect inspectType names =>
      names ≠ [] → inspectType ≠ some "image" →
        PlainConfig cfg ∧ Plain (inspected world inspectType names)
  | .events => 0 < world.polls → PlainConfig cfg ∧ ∀ poll < world.polls, Plain (world.listed poll)
  | .build tag file args _ context =>
      (∀ image ∈ world.pulled, probeName world.isAlphanumeric image ≠ none →
        PlainConfig cfg ∧ cliGrammar.reads "run" [image, "/bin/true"] = true) ∧
      (world.allPulled = true → PlainConfig cfg ∧ plain tag = true ∧
        plain (dockerfilePath world file context) = true ∧ Plain args ∧
        cliGrammar.reads "build" [context] = true)
  | .volume sub name => PlainConfig cfg ∧ cliGrammar.reads "volume" (sub :: name.toList) = true
  | .network sub name => PlainConfig cfg ∧ cliGrammar.reads "network" (sub :: name.toList) = true
  | .cp src dst => PlainConfig cfg ∧ plain src = true ∧ plain dst = true
  | .version | .info | .buildx | .context _ | .port _ => True

theorem plain_repr (value : Nat) : plain value.repr = true := by
  rw [plain, Nat.toList_repr]
  split
  · rename_i second rest digits
    have digit : ('-').isDigit = true :=
      Nat.isDigit_of_mem_toDigits (by decide) (by decide) (digits ▸ List.mem_cons_self)
    cases digit
  · rfl

theorem accepts_iff {cfg : Config} {name : String} (operand : plain name = true)
    (words : List String) :
    cliGrammar.accepts (pelagosPrefixArgs cfg ++ name :: words) = true ↔
      PlainConfig cfg ∧ cliGrammar.reads name words = true := by
  have vector : pelagosPrefixArgs cfg ++ name :: words =
      "--kernel" :: cfg.kernel :: "--initrd" :: cfg.initrd :: "--disk" :: cfg.disk ::
        "--cmdline" :: cfg.cmdline :: "--memory" :: cfg.memoryMib.repr :: name :: words := rfl
  rw [vector, Grammar.accepts_awaiting (by decide), Grammar.accepts_awaiting (by decide),
    Grammar.accepts_awaiting (by decide), Grammar.accepts_awaiting (by decide),
    Grammar.accepts_awaiting (by decide), Grammar.accepts_operand operand, plain_repr]
  simp only [PlainConfig, Bool.and_eq_true, Bool.true_and, and_assoc]

/-- The CLI accepts all of these words behind the prefix arguments. -/
def Accepted (cfg : Config) (vectors : List (List String)) : Prop :=
  ∀ words ∈ vectors, cliGrammar.accepts (pelagosPrefixArgs cfg ++ words) = true

theorem accepted_nil (cfg : Config) : Accepted cfg [] := nofun

theorem accepted_cons {cfg : Config} {words : List String} {vectors : List (List String)} :
    Accepted cfg (words :: vectors) ↔
      cliGrammar.accepts (pelagosPrefixArgs cfg ++ words) = true ∧ Accepted cfg vectors :=
  List.forall_mem_cons

theorem accepted_append {cfg : Config} {left right : List (List String)} :
    Accepted cfg (left ++ right) ↔ Accepted cfg left ∧ Accepted cfg right :=
  List.forall_mem_append

theorem accepted_single {cfg : Config} {words : List String} :
    Accepted cfg [words] ↔ cliGrammar.accepts (pelagosPrefixArgs cfg ++ words) = true :=
  List.forall_mem_singleton

theorem all_plain_iff {values : List String} : values.all plain = true ↔ Plain values :=
  List.all_eq_true

/-- A subcommand with one operand. -/
theorem accepts_single_iff {cfg : Config} {sub : String} (operand : plain sub = true)
    (shape : cliGrammar.shape? sub = some (1, 1, false)) (name : String) :
    cliGrammar.accepts (pelagosPrefixArgs cfg ++ [sub, name]) = true ↔
      PlainConfig cfg ∧ plain name = true := by
  rw [accepts_iff operand, Grammar.reads_single shape]

/-- A subcommand with a switch and one operand. -/
theorem accepts_switch_iff {cfg : Config} {sub flag : String} (operand : plain sub = true)
    (shape : cliGrammar.shape? sub = some (1, 1, false))
    (declared : cliGrammar.declares sub flag .complete = true) (given : Bool) (name : String) :
    cliGrammar.accepts (pelagosPrefixArgs cfg ++ sub :: (switch given flag ++ [name])) = true ↔
      PlainConfig cfg ∧ plain name = true := by
  rw [accepts_iff operand, Grammar.reads_switch declared, Grammar.reads_single shape]

theorem accepts_ps_iff (cfg : Config) (all : Bool) :
    cliGrammar.accepts (pelagosPrefixArgs cfg ++ psArgs all) = true ↔ PlainConfig cfg := by
  have read : cliGrammar.reads "ps" (switch all "--all") = true := by cases all <;> decide
  rw [psArgs, accepts_iff (by decide), read]
  simp

theorem accepted_inspect_iff {cfg : Config} {names : List String} :
    Accepted cfg (names.map inspectArgs) ↔ ∀ name ∈ names, PlainConfig cfg ∧ plain name = true := by
  rw [Accepted, List.forall_mem_map]
  exact forall₂_congr fun name _ => accepts_single_iff (by decide) (by decide) name

theorem accepted_pullProbe_iff {cfg : Config} {name : String} (operand : plain name = true)
    (image : String) :
    Accepted cfg (pullProbe name image) ↔
      PlainConfig cfg ∧ cliGrammar.reads "run" [image, "/bin/true"] = true := by
  have words : ["--detach", "--name", name, image, "/bin/true"] =
      switch true "--detach" ++ "--name" :: name :: [image, "/bin/true"] := rfl
  rw [pullProbe, accepted_cons, accepted_cons, accepted_single, accepts_iff (by decide), words,
    Grammar.reads_switch (by decide), Grammar.reads_value (by decide), operand, Bool.true_and,
    accepts_single_iff (by decide) (by decide), accepts_single_iff (by decide) (by decide)]
  tauto

/-- The CLI has no `port-proxy`. -/
theorem not_accepts_portProxy (cfg : Config) (words : List String) :
    cliGrammar.accepts (pelagosPrefixArgs cfg ++ "port-proxy" :: words) ≠ true := by
  have undeclared : cliGrammar.command? "port-proxy" = none := by decide
  rw [ne_eq, accepts_iff (by decide), Grammar.reads, undeclared]
  exact fun understood => Bool.false_ne_true understood.2

theorem accepts_runArgs_iff {cfg : Config} {world : Surroundings} {opts : RunOpts} {image : String}
    {cmdArgs : List String} :
    cliGrammar.accepts (pelagosPrefixArgs cfg ++ runArgs world opts image cmdArgs) = true ↔
      PlainConfig cfg ∧ plain (effectiveName world opts.name) = true ∧ Plain opts.volumes ∧
        Plain (opts.mounts.filterMap parseMountAsVolume) ∧ Plain opts.env ∧ Plain opts.labelArgs ∧
        cliGrammar.reads "run" (image :: (opts.entrypoint.toList ++ cmdArgs)) = true := by
  rw [runArgs, accepts_iff (by decide), Grammar.reads_value (by decide),
    Grammar.reads_switch (by decide), Grammar.reads_repeated (by decide),
    Grammar.reads_repeated (by decide), Grammar.reads_repeated (by decide),
    Grammar.reads_repeated (by decide)]
  simp only [Bool.and_eq_true, all_plain_iff]

theorem accepted_run_iff (cfg : Config) (world : Surroundings) (opts : RunOpts) :
    Accepted cfg (cmdRun world opts) ↔ Agrees cfg world (.run opts) := by
  rw [cmdRun, Agrees]
  cases opts.imageAndArgs with
  | nil => exact iff_of_true (accepted_nil cfg) trivial
  | cons image cmdArgs =>
      dsimp only
      rw [accepted_append, accepted_single, accepts_runArgs_iff]
      refine and_congr_left fun _ => ?_
      cases opts.ports with
      | nil => exact iff_of_true (accepted_nil cfg) rfl
      | cons port ports =>
          refine iff_of_false ?_ (List.cons_ne_nil port ports)
          exact fun accepted => not_accepts_portProxy cfg _ (accepted_single.mp accepted)

theorem accepted_exec_iff (cfg : Config) (world : Surroundings) (tty : Bool) (env : List String)
    (user workdir : Option String) (nameAndArgs : List String) :
    Accepted cfg (cmdExec tty env user workdir nameAndArgs) ↔
      Agrees cfg world (.exec tty env user workdir nameAndArgs) := by
  unfold cmdExec Agrees
  cases nameAndArgs with
  | nil => exact iff_of_true (accepted_nil cfg) trivial
  | cons name cmdArgs =>
      dsimp only
      rw [accepted_single, accepts_iff (by decide), Grammar.reads_switch (by decide),
        Grammar.reads_repeated (by decide), Grammar.reads_repeated (by decide)]
      simp only [Bool.and_eq_true, all_plain_iff]

theorem accepted_inspectContainer_iff {cfg : Config} {world : Surroundings} {calls : Nat}
    {names : List String} :
    Accepted cfg (cmdInspectContainer world calls names) ↔
      PlainConfig cfg ∧ Plain (names.filter fun name => (world.listed calls).contains name) := by
  rw [cmdInspectContainer, accepted_cons, accepts_ps_iff, accepted_inspect_iff]
  refine and_congr_right fun plain_config => ?_
  exact forall₂_congr fun name _ => and_iff_right plain_config

theorem accepted_cmdInspect_iff (cfg : Config) (world : Surroundings) (inspectType : Option String)
    (names : List String) :
    Accepted cfg (cmdInspect world inspectType names) ↔
      Agrees cfg world (.inspect inspectType names) := by
  unfold cmdInspect Agrees inspected
  dsimp only
  by_cases nobody : names = []
  · rw [if_pos (List.isEmpty_iff.mpr nobody)]
    exact iff_of_true (accepted_nil cfg) fun nonempty => absurd nobody nonempty
  · rw [if_neg (mt List.isEmpty_iff.mp nobody), imp_iff_right nobody]
    by_cases image : inspectType = some "image"
    · rw [if_pos image]
      exact iff_of_true (accepted_nil cfg) fun other => absurd image other
    · rw [if_neg image, imp_iff_right image]
      by_cases container : inspectType = some "container"
      · rw [if_pos container, if_pos container]
        exact accepted_inspectContainer_iff
      · rw [if_neg container, if_neg container, accepted_cons, accepts_ps_iff]
        split
        · rw [accepted_inspectContainer_iff]
          exact and_iff_right_of_imp And.left
        · exact and_congr_right fun _ => iff_of_true (accepted_nil cfg) nofun

theorem accepted_start_iff (cfg : Config) (world : Surroundings) (names : List String) :
    Accepted cfg (subArgs world (.start names)) ↔ Agrees cfg world (.start names) := by
  have each : Accepted cfg (subArgs world (.start names)) ↔
      ∀ name ∈ names, PlainConfig cfg ∧ plain name = true := by
    rw [subArgs, Accepted, List.forall_mem_map]
    exact forall₂_congr fun name _ => accepts_single_iff (by decide) (by decide) name
  rw [each, Agrees]
  constructor
  · intro all nonempty
    obtain ⟨first, member⟩ := List.exists_mem_of_ne_nil names nonempty
    exact ⟨(all first member).1, fun name listed => (all name listed).2⟩
  · intro all name listed
    obtain ⟨plain_config, all_plain⟩ := all (List.ne_nil_of_mem listed)
    exact ⟨plain_config, all_plain name listed⟩

theorem accepted_ps_iff (cfg : Config) (world : Surroundings) (all : Bool) (filters : List String) :
    Accepted cfg (cmdPs world all filters) ↔ Agrees cfg world (.ps all filters) := by
  rw [cmdPs, Agrees, accepted_cons, accepts_ps_iff]
  refine and_congr_right fun plain_config => ?_
  split
  · rename_i by_label
    rw [imp_iff_right by_label, accepted_inspect_iff]
    exact forall₂_congr fun name _ => and_iff_right plain_config
  · rename_i not_by_label
    exact iff_of_true (accepted_nil cfg) fun by_label => absurd by_label not_by_label

theorem accepted_events_iff (cfg : Config) (world : Surroundings) (polls : Nat) :
    Accepted cfg (cmdEvents world polls) ↔
      (0 < polls → PlainConfig cfg ∧ ∀ poll < polls, Plain (world.listed poll)) := by
  induction polls with
  | zero => exact iff_of_true (accepted_nil cfg) nofun
  | succ polls ih =>
      rw [cmdEvents, accepted_append, accepted_cons, accepts_ps_iff, accepted_inspect_iff, ih]
      constructor
      · rintro ⟨earlier, plain_config, unseen⟩ -
        refine ⟨plain_config, fun poll before name listed => ?_⟩
        rcases Nat.lt_succ_iff_lt_or_eq.mp before with earlier_poll | rfl
        · exact (earlier (by omega)).2 poll earlier_poll name listed
        · by_cases known : name ∈ (List.range poll).flatMap world.listed
          · obtain ⟨other, in_range, listed⟩ := List.mem_flatMap.mp known
            have other_lt := List.mem_range.mp in_range
            exact (earlier (by omega)).2 other other_lt name listed
          · refine (unseen name ?_).2
            simp only [List.mem_filter, List.mem_eraseDups]
            exact ⟨listed, by simpa using known⟩
      · intro all
        obtain ⟨plain_config, all_plain⟩ := all (Nat.succ_pos polls)
        refine ⟨fun _ => ⟨plain_config, fun poll before => all_plain poll (by omega)⟩, plain_config,
          fun name unseen => ⟨plain_config, all_plain polls (Nat.lt_succ_self polls) name ?_⟩⟩
        exact List.mem_eraseDups.mp (List.mem_of_mem_filter unseen)

theorem probeName_plain {isAlphanumeric : Char → Bool} {image name : String}
    (probe : probeName isAlphanumeric image = some name) : plain name = true := by
  obtain ⟨front, -, rfl⟩ := Option.map_eq_some_iff.mp probe
  rw [plain, String.toList_append]
  rfl

theorem accepted_pullImageProbe_iff {cfg : Config} {world : Surroundings} {image : String} :
    Accepted cfg (pullImageProbe world image) ↔ (probeName world.isAlphanumeric image ≠ none →
      PlainConfig cfg ∧ cliGrammar.reads "run" [image, "/bin/true"] = true) := by
  unfold pullImageProbe
  cases probe : probeName world.isAlphanumeric image with
  | none => exact iff_of_true (accepted_nil cfg) fun some => absurd rfl some
  | some name =>
      rw [accepted_pullProbe_iff (probeName_plain probe), imp_iff_right (Option.some_ne_none name)]

theorem accepted_build_iff (cfg : Config) (world : Surroundings) (tag file : String)
    (args : List String) (noCache : Bool) (context : String) :
    Accepted cfg (cmdBuild world tag file args noCache context) ↔
      Agrees cfg world (.build tag file args noCache context) := by
  rw [cmdBuild, Agrees, accepted_append]
  refine and_congr ?_ ?_
  · rw [Accepted, List.forall_mem_flatMap]
    exact forall₂_congr fun image _ => accepted_pullImageProbe_iff
  · cases world.allPulled with
    | false => exact iff_of_true (accepted_nil cfg) nofun
    | true =>
        rw [if_pos rfl, accepted_single, buildArgs, accepts_iff (by decide),
          Grammar.reads_value (by decide), Grammar.reads_value (by decide),
          Grammar.reads_repeated (by decide), Grammar.reads_switch (by decide)]
        simp only [Bool.and_eq_true, all_plain_iff, true_imp_iff]

theorem accepted_network_iff (cfg : Config) (world : Surroundings) (sub : String)
    (name : Option String) :
    Accepted cfg (cmdNetwork sub name) ↔ Agrees cfg world (.network sub name) := by
  unfold cmdNetwork Agrees
  cases name with
  | none => rw [accepted_single, accepts_iff (by decide)]; rfl
  | some name =>
      dsimp only
      split
      · rename_i create
        subst create
        rw [accepted_single, accepts_iff (by decide),
          Grammar.reads_trailing (by decide) (by decide),
          Grammar.reads_trailing (by decide) (by decide)]
      · rw [accepted_single, accepts_iff (by decide)]
        rfl

/-- For every command, all values and whatever the subprocesses answer: the CLI accepts every
argument vector exactly when no port is published and the values look like values. -/
theorem vectors_accepted_iff (cfg : Config) (world : Surroundings) (cmd : DockerCmd) :
    (∀ argv ∈ argumentVectors cfg world cmd, cliGrammar.accepts argv = true) ↔
      Agrees cfg world cmd := by
  rw [argumentVectors, List.forall_mem_map]
  change Accepted cfg (subArgs world cmd) ↔ _
  cases cmd with
  | pull image => exact accepted_pullProbe_iff (by decide) image
  | run opts => exact accepted_run_iff cfg world opts
  | exec tty env user workdir nameAndArgs =>
      exact accepted_exec_iff cfg world tty env user workdir nameAndArgs
  | start names => exact accepted_start_iff cfg world names
  | stop name => exact accepted_single.trans (accepts_single_iff (by decide) (by decide) name)
  | rm force name =>
      exact accepted_single.trans
        (accepts_switch_iff (by decide) (by decide) (by decide) force name)
  | ps all filters => exact accepted_ps_iff cfg world all filters
  | logs follow name =>
      exact accepted_single.trans
        (accepts_switch_iff (by decide) (by decide) (by decide) follow name)
  | inspect inspectType names => exact accepted_cmdInspect_iff cfg world inspectType names
  | events => exact accepted_events_iff cfg world world.polls
  | build tag file args noCache context =>
      exact accepted_build_iff cfg world tag file args noCache context
  | volume sub name => exact accepted_single.trans (accepts_iff (by decide) _)
  | network sub name => exact accepted_network_iff cfg world sub name
  | cp src dst =>
      rw [subArgs, accepted_single, accepts_iff (by decide), Grammar.reads_pair (by decide),
        Bool.and_eq_true]
      rfl
  | version | info | buildx | context sub | port name =>
      exact iff_of_true (accepted_nil cfg) trivial

/-- Where the image does not begin with a hyphen, the trailing arguments of a run are not judged:
whether the vector is accepted up to them does not depend on them. -/
theorem run_accepted {cfg : Config} {opts : RunOpts} {image : String} {cmdArgs : List String}
    (world : Surroundings) (words : opts.imageAndArgs = image :: cmdArgs)
    (plain_image : plain image = true) (plain_config : PlainConfig cfg)
    (plain_name : plain (effectiveName world opts.name) = true) (unpublished : opts.ports = [])
    (volumes : Plain opts.volumes) (mounts : Plain (opts.mounts.filterMap parseMountAsVolume))
    (env : Plain opts.env) (labels : Plain opts.labelArgs) :
    Accepted cfg (cmdRun world opts) := by
  rw [accepted_run_iff, Agrees, words]
  exact ⟨unpublished, plain_config, plain_name, volumes, mounts, env, labels,
    Grammar.reads_trailing (by decide) plain_image _⟩

/-- `docker run -p 8080:80 alpine` asks for a subcommand that the CLI does not have. -/
theorem published_port_refused :
    ¬ ∀ (cfg : Config) (world : Surroundings) (cmd : DockerCmd),
      ∀ argv ∈ argumentVectors cfg world cmd, cliGrammar.accepts argv = true := by
  intro accepts
  let cfg : Config :=
    { kernel := "vmlinuz", initrd := "initramfs", disk := "root.img", cmdline := "console=hvc0"
      memoryMib := 4096 }
  let world : Surroundings :=
    { millis := 7, listed := fun _ => [], polls := 0, resolved := .unchanged, pulled := []
      allPulled := true, isAlphanumeric := Char.isAlphanum }
  let opts : RunOpts :=
    { name := none, detach := false, volumes := [], mounts := [], env := [], ports := ["8080:80"]
      labelArgs := [], entrypoint := none, imageAndArgs := ["alpine"] }
  exact not_accepts_portProxy cfg (repeated "--port" opts.ports)
    (accepts cfg world (.run opts) _ List.mem_cons_self)

end Pelagos.DockerShim
