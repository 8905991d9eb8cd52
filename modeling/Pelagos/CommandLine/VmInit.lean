import Pelagos.CommandLine.VmConf
import Pelagos.Library.Execution
import Pelagos.Library.LexicalPath

/-!
# Initialising a profile

`vm init` copies a fresh disk image over the profile's `root.img`.  It looks for a running daemon
once at the beginning, or with `--force` once before the copy, when it asks the daemon to stop and
waits for at most 45 seconds.
-/

namespace Pelagos.CommandLine

open Execution LexicalPath

/-- What the process sees of the installation. -/
structure InitFiles where
  /-- `canonicalize`, or the error. -/
  canonicalize : String → Except String String
  pathExists : String → Bool
  currentExe : Except String String

/-- Where the artifacts are; the kernel and the initrd only when they go into `vm.conf`. -/
structure InitArtifacts where
  kernel : Option String
  initrd : Option String
  disk : String
  deriving DecidableEq

/-- The artifacts in a directory that was given. -/
def artifactsIn (files : InitFiles) (dir : String) : Except String InitArtifacts :=
  match ["vmlinuz", "ubuntu-vmlinuz"].map (join dir) |>.find? files.pathExists with
  | none => .error ("vmlinuz not found in " ++ dir)
  | some kernel =>
      let initrd :=
        ["initramfs.gz", "initramfs-custom.gz"].map (join dir) |>.find? files.pathExists
      let disk := join dir "root.img"
      if files.pathExists disk then .ok { kernel := some kernel, initrd, disk }
      else .error ("root.img not found in " ++ dir)

/-- The disk image of the installation. -/
def installedDisk (files : InitFiles) : Except String InitArtifacts :=
  match files.currentExe with
  | .error error => .error ("cannot locate binary: " ++ error)
  | .ok binary =>
      match parentDir binary with
      | none => .error "binary has no parent directory"
      | some binDir =>
          let candidates := ["../share/pelagos-mac", "share/pelagos-mac", "../../../out"].map
            fun dir => join (join binDir dir) "root.img"
          match candidates.find? files.pathExists with
          | none =>
              .error ("root.img not found. Specify --vm-data <dir> or run " ++
                "'brew install pelagos-containers/tap/pelagos-mac' first.")
          | some disk => .ok { kernel := none, initrd := none, disk }

def locateArtifacts (files : InitFiles) (vmData : Option String) :
    Except String InitArtifacts :=
  match vmData with
  | some path =>
      match files.canonicalize path with
      | .error error => .error ("vm-data directory " ++ path ++ ": " ++ error)
      | .ok dir => artifactsIn files dir
  | none => installedDisk files

/-- The `vm.conf` that is written. -/
def initConf (dstDisk : String) (artifacts : InitArtifacts) : String :=
  "# vm.conf — written by pelagos vm init\n" ++
    "# kernel and initrd are discovered automatically from the Homebrew\n" ++
    "# pkgshare unless overridden here (e.g. via --vm-data for dev builds).\n" ++
    "disk   = " ++ dstDisk ++ "\n" ++
    (artifacts.kernel.elim "" fun kernel => "kernel = " ++ kernel ++ "\n") ++
    (artifacts.initrd.elim "" fun initrd => "initrd = " ++ initrd ++ "\n")

/-- The arguments, and the state directory of the profile. -/
structure InitArgs where
  stateDir : String
  vmData : Option String
  force : Bool

/-- Where `vm_init` is. -/
inductive InitPhase where
  | guarding
  | locating
  | preparing (artifacts : InitArtifacts)
  /-- With `--force`: the daemon is looked for. -/
  | stopping (artifacts : InitArtifacts)
  /-- The daemon was sent `SIGTERM`. -/
  | waiting (artifacts : InitArtifacts) (pid : UInt32) (deadline : Nat)
  | warning (artifacts : InitArtifacts) (pid : UInt32)
  | replacing (artifacts : InitArtifacts)
  /-- `root.img` is being overwritten. -/
  | copying (artifacts : InitArtifacts)
  | configuring (artifacts : InitArtifacts)
  | returned (result : Except String Unit)

def InitPhase.isCopying : InitPhase → Bool
  | copying _ => true
  | _ => false

/-- The profile's directory, the processes of the host, and the clock in milliseconds. -/
structure InitWorld where
  /-- The error of creating the state directory, if it cannot be created. -/
  dirError : Option String
  /-- The text of `vm.pid`, if it can be read. -/
  pidFile : Option String
  /-- `kill(pid, 0)` succeeds. -/
  reachable : UInt32 → Bool
  files : InitFiles
  /-- `root.img` is in the state directory. -/
  hasDisk : Bool
  vmConf : Option String
  now : Nat
  /-- The processes that were sent `SIGTERM`. -/
  terminated : List UInt32
  /-- Pids for which it was warned that the daemon did not exit. -/
  warned : List UInt32
  phase : InitPhase

/-- The next step of `vm_init`, or something else that happens.  No daemon is started: the pid file
is not written. -/
inductive InitAction where
  | next
  | copyFails (error : String)
  /-- A process exits. -/
  | exits (pid : UInt32)
  /-- Some process other than a daemon is started and gets the pid. -/
  | starts (pid : UInt32)
  /-- A daemon that stops clears the state directory. -/
  | clears
  | passes (milliseconds : Nat)

namespace InitWorld

/-- The pid on file. -/
def recordedPid (world : InitWorld) : Option UInt32 :=
  world.pidFile.bind fun text =>
    (Text.parseUnsigned UInt32.size (Text.trim text)).map UInt32.ofNat

/-- `StateDir::running_pid`. -/
def runningPid (world : InitWorld) : Option UInt32 :=
  world.recordedPid.filter world.reachable

def enter (world : InitWorld) (phase : InitPhase) : InitWorld := { world with phase }

/-- One step of `vm_init`. -/
def nextStep (args : InitArgs) (world : InitWorld) : Option InitWorld :=
  match world.phase with
  | .guarding =>
      if args.force = false ∧ world.dirError = none then
        match world.runningPid with
        | some pid =>
            some (world.enter (.returned (.error ("VM is running (pid " ++ pid.toNat.repr ++
              "). Stop it first with 'pelagos vm stop', then re-run " ++
              "'pelagos vm init', or pass --force to stop it automatically."))))
        | none => some (world.enter .locating)
      else some (world.enter .locating)
  | .locating =>
      match locateArtifacts world.files args.vmData with
      | .error error => some (world.enter (.returned (.error error)))
      | .ok artifacts => some (world.enter (.preparing artifacts))
  | .preparing artifacts =>
      match world.dirError with
      | some error => some (world.enter (.returned (.error error)))
      | none =>
          if world.vmConf.isSome ∧ args.force = false then
            some (world.enter (.returned (.error ("vm.conf already exists at " ++
              join args.stateDir "vm.conf" ++ ". Use --force to overwrite."))))
          else if args.force then some (world.enter (.stopping artifacts))
          else some (world.enter (.replacing artifacts))
  | .stopping artifacts =>
      match world.runningPid with
      | some pid =>
          some { world with
            terminated := world.terminated ++ [pid]
            phase := .waiting artifacts pid (world.now + 45000) }
      | none => some (world.enter (.replacing artifacts))
  | .waiting artifacts pid deadline =>
      if world.now < deadline then
        if world.runningPid = none then some (world.enter (.warning artifacts pid))
        else some world
      else some (world.enter (.warning artifacts pid))
  | .warning artifacts pid =>
      some { world with
        warned := if world.runningPid = none then world.warned else world.warned ++ [pid]
        phase := .replacing artifacts }
  | .replacing artifacts =>
      if world.hasDisk = false ∨ args.force then some (world.enter (.copying artifacts))
      else some (world.enter (.configuring artifacts))
  | .copying artifacts => some { world with hasDisk := true, phase := .configuring artifacts }
  | .configuring artifacts =>
      some { world with
        vmConf := some (initConf (join args.stateDir "root.img") artifacts)
        phase := .returned (.ok ()) }
  | .returned _ => none

def step (args : InitArgs) (world : InitWorld) : InitAction → Option InitWorld
  | .next => nextStep args world
  | .copyFails error =>
      if world.phase.isCopying then some (world.enter (.returned (.error error))) else none
  | .exits pid =>
      some { world with reachable := fun other => other ≠ pid && world.reachable other }
  | .starts pid =>
      some { world with reachable := fun other => other = pid || world.reachable other }
  | .clears => some { world with pidFile := none }
  | .passes milliseconds => some { world with now := world.now + milliseconds }

/-- A copy does not begin while the pid on file is that of a running process. -/
def CopiesStopped (args : InitArgs) (world : InitWorld) (action : InitAction) : Prop :=
  ∀ next ∈ step args world action, next.phase.isCopying = true → world.phase.isCopying = false →
    world.runningPid = none

/-- `vm_init` has found no running daemon and will not look again before the copy. -/
def Trusting (args : InitArgs) (world : InitWorld) : Prop :=
  match world.phase with
  | .locating | .preparing _ => args.force = false ∧ world.dirError = none
  | .warning _ _ | .replacing _ => True
  | _ => False

/-- The daemon exits before the deadline, and once `vm_init` has found none running, no other
process gets the pid on file. -/
def StopsInTime (args : InitArgs) (world : InitWorld) : InitAction → Prop
  | .next =>
      match world.phase with
      | .waiting _ _ deadline => deadline ≤ world.now → world.runningPid = none
      | _ => True
  | .starts pid => Trusting args world → world.recordedPid ≠ some pid
  | _ => True

instance (args : InitArgs) (world : InitWorld) : Decidable (Trusting args world) :=
  match phase : world.phase with
  | .locating | .preparing _ =>
      decidable_of_iff (args.force = false ∧ world.dirError = none) (by rw [Trusting, phase])
  | .warning _ _ | .replacing _ => isTrue (by rw [Trusting, phase]; trivial)
  | .guarding | .stopping _ | .waiting _ _ _ | .copying _ | .configuring _ | .returned _ =>
      isFalse (by rw [Trusting, phase]; exact id)

instance (args : InitArgs) (world : InitWorld) :
    ∀ action, Decidable (StopsInTime args world action)
  | .next =>
      match phase : world.phase with
      | .waiting _ _ deadline =>
          decidable_of_iff (deadline ≤ world.now → world.runningPid = none)
            (by rw [StopsInTime, phase])
      | .guarding | .locating | .preparing _ | .stopping _ | .warning _ _ | .replacing _
      | .copying _ | .configuring _ | .returned _ => isTrue (by rw [StopsInTime, phase]; trivial)
  | .starts pid => inferInstanceAs (Decidable (Trusting args world → world.recordedPid ≠ some pid))
  | .copyFails _ | .exits _ | .clears | .passes _ => isTrue trivial

variable {args : InitArgs} {world after : InitWorld}

theorem runningPid_eq_none_iff :
    world.runningPid = none ↔ ∀ pid ∈ world.recordedPid, world.reachable pid = false := by
  rw [runningPid, Option.filter_eq_none_iff]
  exact forall₂_congr fun pid _ => Bool.eq_false_iff.symm

/-- A step of `vm_init` that leads to where it trusts that no daemon runs. -/
theorem runningPid_of_nextStep (trusts : Trusting args world → world.runningPid = none)
    (in_time : StopsInTime args world .next) (stepped : nextStep args world = some after)
    (trusting : Trusting args after) : after.runningPid = none := by
  cases phase : world.phase with
  | guarding =>
      simp only [nextStep, phase] at stepped
      split at stepped
      · split at stepped
        · obtain rfl := Option.some.inj stepped
          exact trusting.elim
        · rename_i stopped
          obtain rfl := Option.some.inj stepped
          exact stopped
      · rename_i unguarded
        obtain rfl := Option.some.inj stepped
        exact absurd trusting unguarded
  | locating =>
      simp only [nextStep, phase] at stepped
      split at stepped
      · obtain rfl := Option.some.inj stepped
        exact trusting.elim
      · obtain rfl := Option.some.inj stepped
        exact trusts (by rw [Trusting, phase]; exact trusting)
  | preparing artifacts =>
      simp only [nextStep, phase] at stepped
      split at stepped
      · obtain rfl := Option.some.inj stepped
        exact trusting.elim
      · rename_i created
        split at stepped
        · obtain rfl := Option.some.inj stepped
          exact trusting.elim
        · split at stepped
          · obtain rfl := Option.some.inj stepped
            exact trusting.elim
          · rename_i unforced
            obtain rfl := Option.some.inj stepped
            refine trusts ?_
            rw [Trusting, phase]
            exact ⟨Bool.eq_false_of_not_eq_true unforced, created⟩
  | stopping artifacts =>
      simp only [nextStep, phase] at stepped
      split at stepped
      · obtain rfl := Option.some.inj stepped
        exact trusting.elim
      · rename_i stopped
        obtain rfl := Option.some.inj stepped
        exact stopped
  | waiting artifacts pid deadline =>
      simp only [nextStep, phase] at stepped
      split at stepped
      · split at stepped
        · rename_i stopped
          obtain rfl := Option.some.inj stepped
          exact stopped
        · obtain rfl := Option.some.inj stepped
          rw [Trusting, phase] at trusting
          exact trusting.elim
      · rename_i late
        obtain rfl := Option.some.inj stepped
        rw [StopsInTime, phase] at in_time
        exact in_time (Nat.le_of_not_lt late)
  | warning artifacts pid =>
      simp only [nextStep, phase] at stepped
      obtain rfl := Option.some.inj stepped
      exact trusts (by rw [Trusting, phase]; trivial)
  | replacing artifacts =>
      simp only [nextStep, phase] at stepped
      split at stepped
      · obtain rfl := Option.some.inj stepped
        exact trusting.elim
      · obtain rfl := Option.some.inj stepped
        exact trusting.elim
  | copying artifacts =>
      simp only [nextStep, phase] at stepped
      obtain rfl := Option.some.inj stepped
      exact trusting.elim
  | configuring artifacts =>
      simp only [nextStep, phase] at stepped
      obtain rfl := Option.some.inj stepped
      exact trusting.elim
  | returned result => simp [nextStep, phase] at stepped

/-- Where `vm_init` trusts that no daemon runs, none does. -/
theorem runningPid_of_step (trusts : Trusting args world → world.runningPid = none)
    {action : InitAction} (in_time : StopsInTime args world action)
    (stepped : step args world action = some after) (trusting : Trusting args after) :
    after.runningPid = none := by
  cases action with
  | next => exact runningPid_of_nextStep trusts in_time stepped trusting
  | copyFails error =>
      rw [step] at stepped
      split at stepped
      · obtain rfl := Option.some.inj stepped
        exact trusting.elim
      · cases stepped
  | exits pid =>
      obtain rfl := Option.some.inj stepped
      have stopped := runningPid_eq_none_iff.mp (trusts trusting)
      refine runningPid_eq_none_iff.mpr fun recorded on_file => ?_
      dsimp only
      rw [stopped recorded on_file, Bool.and_false]
  | starts pid =>
      obtain rfl := Option.some.inj stepped
      have stopped := runningPid_eq_none_iff.mp (trusts trusting)
      refine runningPid_eq_none_iff.mpr fun recorded on_file => ?_
      have different : recorded ≠ pid := by
        rintro rfl
        exact in_time trusting on_file
      dsimp only
      rw [stopped recorded on_file, Bool.or_false, decide_eq_false different]
  | clears =>
      obtain rfl := Option.some.inj stepped
      exact runningPid_eq_none_iff.mpr nofun
  | passes milliseconds =>
      obtain rfl := Option.some.inj stepped
      exact trusts trusting

/-- A copy begins only where `vm_init` trusts that no daemon runs. -/
theorem trusting_of_copies {action : InitAction} (stepped : step args world action = some after)
    (begins : after.phase.isCopying = true) (before : world.phase.isCopying = false) :
    Trusting args world := by
  have goes_on (same : after.phase = world.phase) : Trusting args world := by
    rw [same, before] at begins
    cases begins
  cases action with
  | next =>
      cases phase : world.phase with
      | replacing artifacts =>
          rw [Trusting, phase]
          trivial
      | _ =>
          simp only [step, nextStep, phase] at stepped
          grind [enter, InitPhase.isCopying]
  | copyFails error => simp [step, before] at stepped
  | exits pid | starts pid | clears | passes milliseconds =>
      obtain rfl := Option.some.inj stepped
      exact goes_on rfl

/-- In every run in which the daemon exits in time, no disk of a running daemon is overwritten. -/
theorem copies_stopped_of_stops_in_time {world : InitWorld} (enters : world.phase = .guarding)
    {actions : List InitAction} (in_time : Guarded (step args) (StopsInTime args) actions world) :
    Guarded (step args) (CopiesStopped args) actions world := by
  have preserved {before after : InitWorld} {action : InitAction}
      (trusts : Trusting args before → before.runningPid = none)
      (in_time : StopsInTime args before action) (stepped : step args before action = some after)
      (trusting : Trusting args after) : after.runningPid = none :=
    runningPid_of_step trusts in_time stepped trusting
  have implies {state : InitWorld} {action : InitAction}
      (trusts : Trusting args state → state.runningPid = none)
      (_ : StopsInTime args state action) : CopiesStopped args state action :=
    fun next stepped begins before => trusts (trusting_of_copies stepped begins before)
  have initially : Trusting args world → world.runningPid = none := by
    rw [Trusting, enters]
    exact False.elim
  exact Guarded.of_invariant preserved implies initially in_time

/-- When the wait ends while the daemon still runs, its disk is overwritten. -/
theorem overwrites_of_late {artifacts : InitArtifacts} {pid : UInt32} {deadline : Nat}
    (forces : args.force = true) (waits : world.phase = .waiting artifacts pid deadline)
    (late : deadline ≤ world.now) (live : world.runningPid ≠ none) :
    ¬ Guarded (step args) (CopiesStopped args) [.next, .next, .next] world := by
  intro guarded
  have gives_up : step args world .next = some (world.enter (.warning artifacts pid)) := by
    simp [step, nextStep, waits, Nat.not_lt.mpr late]
  obtain ⟨warned, goes_on, phase, same⟩ : ∃ warned,
      step args (world.enter (.warning artifacts pid)) .next = some warned ∧
        warned.phase = .replacing artifacts ∧ warned.runningPid = world.runningPid :=
    ⟨_, rfl, rfl, rfl⟩
  have copies : step args warned .next = some (warned.enter (.copying artifacts)) := by
    simp [step, nextStep, phase, forces]
  have later := ((guarded_cons gives_up).mp guarded).2
  have last := ((guarded_cons goes_on).mp later).2
  have stopped := last.1 _ copies rfl (by rw [phase]; rfl)
  exact live (same ▸ stopped)

/-- A daemon with pid 4711 runs for a profile that has been initialised before. -/
def upgrading : InitWorld where
  dirError := none
  pidFile := some "4711"
  reachable pid := pid = 4711
  files :=
    { canonicalize := .ok, pathExists := fun _ => true
      currentExe := .ok "/opt/homebrew/bin/pelagos" }
  hasDisk := true
  vmConf := some ""
  now := 0
  terminated := []
  warned := []
  phase := .guarding

def forced : InitArgs where
  stateDir := "/Users/ada/.local/share/pelagos"
  vmData := none
  force := true

/-- The daemon exits three seconds after it was asked to. -/
def promptExit : List InitAction :=
  [.next, .next, .next, .next, .next, .passes 3000, .clears, .exits 4711, .next, .next, .next]

theorem prompt_exit_copies_stopped :
    (run (step forced) promptExit upgrading).isSome = true ∧
      Guarded (step forced) (CopiesStopped forced) promptExit upgrading := by
  exact ⟨rfl, copies_stopped_of_stops_in_time rfl (by decide)⟩

/-- The daemon ignores `SIGTERM` for 45 seconds. -/
def hungDaemon : List InitAction :=
  [.next, .next, .next, .next, .passes 45000, .next, .next]

/-- A daemon that ignores `SIGTERM` loses its disk. -/
theorem hung_daemon_overwritten :
    ¬ ∀ (args : InitArgs) (world : InitWorld) (actions : List InitAction),
      world.phase = .guarding → Guarded (step args) (CopiesStopped args) actions world := by
  intro copies_stopped
  have guarded := copies_stopped forced upgrading (hungDaemon ++ [.next]) rfl
  obtain ⟨world, execution⟩ : ∃ world, run (step forced) hungDaemon upgrading = some world :=
    Option.isSome_iff_exists.mp rfl
  have live : ((run (step forced) hungDaemon upgrading).bind runningPid) = some 4711 := rfl
  have idle : ((run (step forced) hungDaemon upgrading).map fun world =>
      world.phase.isCopying) = some false := rfl
  have copies : ((run (step forced) hungDaemon upgrading).bind fun world =>
      (step forced world .next).map fun next => next.phase.isCopying) = some true := rfl
  rw [execution] at live idle copies
  obtain ⟨next, stepped, begins⟩ := Option.map_eq_some_iff.mp copies
  have last := ((guarded_append execution).mp guarded).2
  have stopped := last.1 next stepped begins (Option.some.inj idle)
  rw [Option.bind_some, stopped] at live
  cases live

end InitWorld

end Pelagos.CommandLine
