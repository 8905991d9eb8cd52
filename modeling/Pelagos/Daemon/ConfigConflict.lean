import Pelagos.Daemon.Startup

/-!
# Conflicts of configuration

A daemon records its pid before it records its configuration, and a caller that finds the pid reads
a configuration that is not recorded yet as an empty one.
-/

namespace Pelagos.Daemon

open Execution

/-- The caller has returned one of the two errors. -/
def CallerPhase.Conflicting (phase : CallerPhase) : Prop :=
  phase = .returned (.err differentMounts) ∨ phase = .returned (.err differentDisks)

/-- The caller compares configurations, or has read the pid of a daemon of ours. -/
def CallerPhase.trusting : CallerPhase → Bool
  | .probing (.daemon _) | .verifyingMounts | .verifyingDisks => true
  | _ => false

/-- The daemon is past its `clear`. -/
def DaemonPhase.cleared : DaemonPhase → Bool
  | .spawned | .probing _ | .clearing _ | .exited => false
  | _ => true

/-- The daemon has removed the shares of an earlier one. -/
def DaemonPhase.clearedMounts : DaemonPhase → Bool
  | .spawned | .probing _ | .exited => false
  | .clearing .pid | .clearing .sock | .clearing .consoleSock | .clearing .mounts => false
  | _ => true

namespace ProfileWorld

/-- Everybody has this configuration, and a caller that fails for another reason has another error
to report. -/
def SameConfig (config : MountConfig) : StartupAction → Prop
  | .enter other => other = config
  | .spawn _ other => other = config
  | .abandon _ message => message ≠ differentMounts ∧ message ≠ differentDisks
  | _ => True

instance (config : MountConfig) (action : StartupAction) :
    Decidable (SameConfig config action) := by
  unfold SameConfig
  split <;> infer_instance

/-- A caller reads a list only when it is on record or empty, and the pid that an earlier daemon
left is not in use when it is probed. -/
def ReadsRecorded (config : MountConfig) (world : ProfileWorld) : StartupAction → Prop
  | .probe _ owner reused => reused = true → owner ≠ .stale
  | .verifyMounts _ => world.dir.mountsFile.isSome ∨ config.mounts = []
  | .verifyDisks _ => world.dir.extraDisksFile.isSome ∨ config.extraDisks = []
  | _ => True

instance (config : MountConfig) (world : ProfileWorld) (action : StartupAction) :
    Decidable (world.ReadsRecorded config action) := by
  unfold ReadsRecorded
  split <;> infer_instance

/-- No caller has returned one of the two errors. -/
def Peaceful (world : ProfileWorld) : Prop := ∀ caller ∈ world.callers, ¬ caller.phase.Conflicting

/-- What is on record is this configuration. -/
structure Recorded (config : MountConfig) (dir : StateDir) : Prop where
  mounts : ∀ mounts ∈ dir.mountsFile, mounts = config.mounts
  extraDisks : ∀ extraDisks ∈ dir.extraDisksFile, extraDisks = config.extraDisks

/-- No daemon has emptied the state directory yet, and no caller trusts what is in it. -/
structure Untouched (world : ProfileWorld) : Prop where
  pid : ∀ index, world.dir.pidFile ≠ some (.daemon index)
  callers : ∀ caller ∈ world.callers, caller.phase.trusting = false
  daemons : ∀ daemon ∈ world.daemons, daemon.phase.cleared = false

/-- The invariant of the runs in which everybody has this configuration. -/
structure Consistent (config : MountConfig) (world : ProfileWorld) : Prop where
  callers : ∀ caller ∈ world.callers, caller.config = config ∧ ¬ caller.phase.Conflicting
  daemons : ∀ daemon ∈ world.daemons, daemon.config = config
  /-- A daemon that is emptying the directory may be past the shares and not yet at the disks. -/
  mounts : (∀ mounts ∈ world.dir.mountsFile, mounts = config.mounts) ∨
    ∀ daemon ∈ world.daemons, daemon.phase.clearedMounts = false
  files : Recorded config world.dir ∨ world.Untouched

theorem mounts_remove {config : MountConfig} {dir : StateDir}
    (recorded : ∀ mounts ∈ dir.mountsFile, mounts = config.mounts) (file : StateFile) :
    ∀ mounts ∈ (dir.remove file).mountsFile, mounts = config.mounts := by
  cases file with
  | mounts => nofun
  | _ => exact recorded

/-- Removing files leaves nothing else on record. -/
theorem Recorded.remove {config : MountConfig} {dir : StateDir} (recorded : Recorded config dir)
    (file : StateFile) : Recorded config (dir.remove file) where
  mounts := mounts_remove recorded.mounts file
  extraDisks := by
    cases file with
    | extraDisks => nofun
    | _ => exact recorded.extraDisks

/-- What the removal of files does not break. -/
structure Fewer (config : MountConfig) (before after : StateDir) : Prop where
  mounts : (∀ mounts ∈ before.mountsFile, mounts = config.mounts) →
    ∀ mounts ∈ after.mountsFile, mounts = config.mounts
  recorded : Recorded config before → Recorded config after
  pid : ∀ index, before.pidFile ≠ some (.daemon index) → after.pidFile ≠ some (.daemon index)

theorem fewer_refl (config : MountConfig) (dir : StateDir) : Fewer config dir dir :=
  ⟨id, id, fun _ => id⟩

theorem fewer_remove (config : MountConfig) (dir : StateDir) (file : StateFile) :
    Fewer config dir (dir.remove file) where
  mounts recorded := mounts_remove recorded file
  recorded recorded := recorded.remove file
  pid index absent := by
    cases file with
    | pid => nofun
    | _ => exact absent

theorem not_conflicting_of_not_returned {phase : CallerPhase}
    (running : ∀ result, phase ≠ .returned result) : ¬ phase.Conflicting := by
  rintro (conflict | conflict)
  · exact running _ conflict
  · exact running _ conflict

theorem mem_modify {α : Type} {change : α → α} {items : List α} {index : Nat} {item : α}
    (member : item ∈ items.modify index change) :
    item ∈ items ∨ ∃ old, items[index]? = some old ∧ item = change old := by
  obtain ⟨place, found⟩ := List.mem_iff_getElem?.mp member
  rw [List.getElem?_modify] at found
  obtain ⟨old, old_found, rfl⟩ := Option.map_eq_some_iff.mp found
  by_cases same : index = place
  · subst same
    exact .inr ⟨old, old_found, by simp⟩
  · exact .inl (by simpa [same] using List.mem_of_getElem? old_found)

theorem mem_setCaller {world : ProfileWorld} {index : Nat} {phase : CallerPhase} {caller : Caller}
    (member : caller ∈ (world.setCaller index phase).callers) :
    caller ∈ world.callers ∨
      ∃ old, world.callers[index]? = some old ∧ caller = { old with phase } := mem_modify member

theorem mem_setDaemon {world : ProfileWorld} {index : Nat} {phase : DaemonPhase}
    {daemon : DaemonProcess} (member : daemon ∈ (world.setDaemon index phase).daemons) :
    daemon ∈ world.daemons ∨
      ∃ old, world.daemons[index]? = some old ∧ daemon = { old with phase } := mem_modify member

section Moves

variable {config : MountConfig} {world : ProfileWorld} (consistent : world.Consistent config)
  {index : Nat}
include consistent

/-- A caller moves; it may remove a file. -/
theorem Consistent.setCaller {dir : StateDir} {new : CallerPhase} (peaceful : ¬ new.Conflicting)
    (fewer : Fewer config world.dir dir)
    (trusted : new.trusting = true → Recorded config world.dir) :
    ((world.setDir dir).setCaller index new).Consistent config where
  callers caller member := by
    rcases mem_setCaller member with kept | ⟨old, found, rfl⟩
    · exact consistent.callers caller kept
    · exact ⟨(consistent.callers old (List.mem_of_getElem? found)).1, peaceful⟩
  daemons := consistent.daemons
  mounts := consistent.mounts.imp_left fewer.mounts
  files := by
    by_cases trusting : new.trusting = true
    · exact .inl (fewer.recorded (trusted trusting))
    · refine consistent.files.imp fewer.recorded fun untouched => ?_
      refine ⟨fun owner => fewer.pid owner (untouched.pid owner), fun caller member => ?_,
        untouched.daemons⟩
      rcases mem_setCaller member with kept | ⟨old, -, rfl⟩
      · exact untouched.callers caller kept
      · exact Bool.eq_false_of_not_eq_true trusting

/-- A daemon moves; it may remove a file. -/
theorem Consistent.setDaemon {dir : StateDir} {new : DaemonPhase}
    (fewer : Fewer config world.dir dir)
    (mounts : new.clearedMounts = true → ∀ mounts ∈ dir.mountsFile, mounts = config.mounts)
    (files : new.cleared = true → Recorded config dir) :
    ((world.setDir dir).setDaemon index new).Consistent config where
  callers := consistent.callers
  daemons daemon member := by
    rcases mem_setDaemon member with kept | ⟨old, found, rfl⟩
    · exact consistent.daemons daemon kept
    · exact consistent.daemons old (List.mem_of_getElem? found)
  mounts := by
    by_cases cleared : new.clearedMounts = true
    · exact .inl (mounts cleared)
    · refine consistent.mounts.imp fewer.mounts fun uncleared daemon member => ?_
      rcases mem_setDaemon member with kept | ⟨old, -, rfl⟩
      · exact uncleared daemon kept
      · exact Bool.eq_false_of_not_eq_true cleared
  files := by
    by_cases cleared : new.cleared = true
    · exact .inl (files cleared)
    · refine consistent.files.imp fewer.recorded fun untouched => ?_
      refine ⟨fun owner => fewer.pid owner (untouched.pid owner), untouched.callers,
        fun daemon member => ?_⟩
      rcases mem_setDaemon member with kept | ⟨old, -, rfl⟩
      · exact untouched.daemons daemon kept
      · exact Bool.eq_false_of_not_eq_true cleared

/-- A daemon moves, and what is on record then is this configuration. -/
theorem Consistent.setDaemonRecorded {dir : StateDir} {new : DaemonPhase}
    (recorded : Recorded config dir) :
    ((world.setDir dir).setDaemon index new).Consistent config where
  callers := consistent.callers
  daemons daemon member := by
    rcases mem_setDaemon member with kept | ⟨old, found, rfl⟩
    · exact consistent.daemons daemon kept
    · exact consistent.daemons old (List.mem_of_getElem? found)
  mounts := .inl recorded.mounts
  files := .inl recorded

/-- A daemon looks for another one, or ends. -/
theorem Consistent.setDaemonUncleared {new : DaemonPhase} (mounts : new.clearedMounts = false)
    (files : new.cleared = false) : (world.setDaemon index new).Consistent config :=
  consistent.setDaemon (fewer_refl config world.dir) (by simp [mounts]) (by simp [files])

theorem Consistent.enter {other : MountConfig} (same : other = config) :
    Consistent config
      { world with callers := world.callers ++ [{ config := other, phase := .entered }] } where
  callers caller member := by
    rcases List.mem_append.mp member with kept | entered
    · exact consistent.callers caller kept
    · obtain rfl := List.mem_singleton.mp entered
      exact ⟨same, not_conflicting_of_not_returned nofun⟩
  daemons := consistent.daemons
  mounts := consistent.mounts
  files := by
    refine consistent.files.imp_right fun untouched => ?_
    refine { untouched with callers := fun caller member => ?_ }
    rcases List.mem_append.mp member with kept | entered
    · exact untouched.callers caller kept
    · obtain rfl := List.mem_singleton.mp entered
      rfl

theorem Consistent.spawn {other : MountConfig} (same : other = config) :
    Consistent config
      { world with daemons := world.daemons ++ [{ config := other, phase := .spawned }] } where
  callers := consistent.callers
  daemons daemon member := by
    rcases List.mem_append.mp member with kept | spawned
    · exact consistent.daemons daemon kept
    · obtain rfl := List.mem_singleton.mp spawned
      exact same
  mounts := by
    refine consistent.mounts.imp_right fun uncleared daemon member => ?_
    rcases List.mem_append.mp member with kept | spawned
    · exact uncleared daemon kept
    · obtain rfl := List.mem_singleton.mp spawned
      rfl
  files := by
    refine consistent.files.imp_right fun untouched => ?_
    refine { untouched with daemons := fun daemon member => ?_ }
    rcases List.mem_append.mp member with kept | spawned
    · exact untouched.daemons daemon kept
    · obtain rfl := List.mem_singleton.mp spawned
      rfl

/-- Once a daemon has cleared the state directory only this configuration is put on record. -/
theorem Consistent.recorded {daemon : DaemonProcess} (found : world.daemons[index]? = some daemon)
    (cleared : daemon.phase.cleared = true) : Recorded config world.dir := by
  refine consistent.files.resolve_right fun untouched => ?_
  have uncleared := untouched.daemons daemon (List.mem_of_getElem? found)
  rw [cleared] at uncleared
  cases uncleared

/-- A daemon that has cleared the state directory moves, and leaves what is on record there. -/
theorem Consistent.keepRecord {daemon : DaemonProcess}
    (found : world.daemons[index]? = some daemon) (cleared : daemon.phase.cleared = true)
    {dir : StateDir} {new : DaemonPhase} (mounts_eq : dir.mountsFile = world.dir.mountsFile)
    (disks_eq : dir.extraDisksFile = world.dir.extraDisksFile) :
    ((world.setDir dir).setDaemon index new).Consistent config := by
  have recorded := consistent.recorded found cleared
  refine consistent.setDaemonRecorded { mounts := ?_, extraDisks := ?_ }
  · rw [mounts_eq]
    exact recorded.mounts
  · rw [disks_eq]
    exact recorded.extraDisks

/-- A daemon empties the state directory, file by file. -/
theorem Consistent.clears {daemon : DaemonProcess} (found : world.daemons[index]? = some daemon)
    {file : StateFile} (phase : daemon.phase = .clearing file) :
    ((world.setDir (world.dir.remove file)).setDaemon index
      (file.next?.elim .booting .clearing)).Consistent config := by
  have passed (cleared : daemon.phase.clearedMounts = true) :
      ∀ mounts ∈ world.dir.mountsFile, mounts = config.mounts := by
    refine consistent.mounts.resolve_right fun uncleared => ?_
    have before := uncleared daemon (List.mem_of_getElem? found)
    rw [cleared] at before
    cases before
  have fewer := fewer_remove config world.dir file
  cases file with
  | pid | sock | consoleSock => exact consistent.setDaemon fewer nofun nofun
  | mounts => exact consistent.setDaemon fewer (fun _ => nofun) nofun
  | ports =>
      have mounts := passed (by rw [phase]; rfl)
      exact consistent.setDaemon fewer (fun _ => mounts) nofun
  | extraDisks =>
      have mounts := passed (by rw [phase]; rfl)
      exact consistent.setDaemonRecorded { mounts, extraDisks := nofun }

/-- What a caller trusts is on record. -/
theorem Consistent.trusted {caller : Caller} (found : world.callers[index]? = some caller)
    (trusting : caller.phase.trusting = true) : Recorded config world.dir := by
  refine consistent.files.resolve_right fun untouched => ?_
  have before := untouched.callers caller (List.mem_of_getElem? found)
  rw [trusting] at before
  cases before

/-- The pid of a daemon of ours is that of one that has cleared the state directory. -/
theorem Consistent.recordedPid {owner : Nat}
    (recorded : world.dir.pidFile = some (.daemon owner)) : Recorded config world.dir :=
  consistent.files.resolve_right fun untouched => untouched.pid owner recorded

end Moves

theorem getD_eq_of_recorded {α : Type} {recorded : Option (List α)} {list : List α}
    (same : ∀ found ∈ recorded, found = list) (present : recorded.isSome ∨ list = []) :
    recorded.getD [] = list := by
  cases recorded with
  | none => simpa using present.symm
  | some found => exact same found rfl

theorem Consistent.step {config : MountConfig} {world after : ProfileWorld}
    {action : StartupAction} (consistent : world.Consistent config)
    (same : SameConfig config action) (reads : world.ReadsRecorded config action)
    (stepped : world.step action = some after) : after.Consistent config := by
  cases action with
  | enter other =>
      obtain rfl := Option.some.inj stepped
      exact consistent.enter same
  | readPid index =>
      obtain ⟨caller, found, phase, rfl⟩ := atCaller_eq_some.mp stepped
      cases recorded : world.dir.pidFile with
      | none =>
          exact consistent.setCaller (not_conflicting_of_not_returned nofun)
            (fewer_refl config world.dir) nofun
      | some owner =>
          refine consistent.setCaller (not_conflicting_of_not_returned nofun)
            (fewer_refl config world.dir) fun trusting => ?_
          cases owner with
          | stale => cases trusting
          | daemon owner => exact consistent.recordedPid recorded
  | probe index owner reused =>
      obtain ⟨caller, found, phase, rfl⟩ := atCaller_eq_some.mp stepped
      cases alive : world.isDaemonAlive reused owner with
      | false =>
          exact consistent.setCaller (not_conflicting_of_not_returned nofun)
            (fewer_refl config world.dir) nofun
      | true =>
          refine consistent.setCaller (not_conflicting_of_not_returned nofun)
            (fewer_refl config world.dir) fun _ => ?_
          cases owner with
          | stale => exact absurd rfl (reads alive)
          | daemon owner => exact consistent.trusted found (by rw [phase]; rfl)
  | clear index file =>
      obtain ⟨caller, found, phase, rfl⟩ := atCaller_eq_some.mp stepped
      have fewer := fewer_remove config world.dir file
      cases file <;>
        exact consistent.setCaller (not_conflicting_of_not_returned nofun) fewer nofun
  | spawn index other =>
      obtain ⟨caller, found, phase, rfl⟩ := atCaller_eq_some.mp stepped
      have waiting : (world.setCaller index .waiting).Consistent config :=
        consistent.setCaller (not_conflicting_of_not_returned nofun)
          (fewer_refl config world.dir) nofun
      exact waiting.spawn same
  | abandon index message =>
      obtain ⟨caller, found, -, rfl⟩ := abandon_eq_some stepped
      refine consistent.setCaller ?_ (fewer_refl config world.dir) nofun
      rintro (conflict | conflict) <;> cases conflict
      · exact same.1 rfl
      · exact same.2 rfl
  | poll index =>
      obtain ⟨caller, found, phase, rfl⟩ := atCaller_eq_some.mp stepped
      split
      · exact consistent.setCaller (by simp [CallerPhase.Conflicting])
          (fewer_refl config world.dir) nofun
      · exact consistent
  | timeOut index =>
      obtain ⟨caller, found, phase, rfl⟩ := atCaller_eq_some.mp stepped
      refine consistent.setCaller ?_ (fewer_refl config world.dir) nofun
      rintro (conflict | conflict) <;> exact absurd conflict (by decide)
  | verifyMounts index =>
      obtain ⟨caller, found, phase, rfl⟩ := atCaller_eq_some.mp stepped
      have recorded := consistent.trusted found (by rw [phase]; rfl)
      have config_eq := (consistent.callers caller (List.mem_of_getElem? found)).1
      have read := getD_eq_of_recorded recorded.mounts reads
      rw [if_neg (by rw [read, config_eq]; exact not_not_intro rfl)]
      exact consistent.setCaller (not_conflicting_of_not_returned nofun)
        (fewer_refl config world.dir) fun _ => recorded
  | verifyDisks index =>
      obtain ⟨caller, found, phase, rfl⟩ := atCaller_eq_some.mp stepped
      have recorded := consistent.trusted found (by rw [phase]; rfl)
      have config_eq := (consistent.callers caller (List.mem_of_getElem? found)).1
      have read := getD_eq_of_recorded recorded.extraDisks reads
      rw [if_neg (by rw [read, config_eq]; exact not_not_intro rfl)]
      exact consistent.setCaller (by simp [CallerPhase.Conflicting])
        (fewer_refl config world.dir) nofun
  | daemonReadPid index =>
      obtain ⟨daemon, found, phase, rfl⟩ := atDaemon_eq_some.mp stepped
      cases world.dir.pidFile with
      | none => exact consistent.setDaemonUncleared rfl rfl
      | some owner => exact consistent.setDaemonUncleared rfl rfl
  | daemonProbe index owner reused =>
      obtain ⟨daemon, found, phase, rfl⟩ := atDaemon_eq_some.mp stepped
      split
      · exact consistent.setDaemonUncleared rfl rfl
      · exact consistent.setDaemonUncleared rfl rfl
  | daemonClear index file =>
      obtain ⟨daemon, found, phase, rfl⟩ := atDaemon_eq_some.mp stepped
      exact consistent.clears found phase
  | boot index =>
      obtain ⟨daemon, found, phase, rfl⟩ := atDaemon_eq_some.mp stepped
      exact consistent.keepRecord found (by rw [phase]; rfl) rfl rfl
  | bindSock index =>
      obtain ⟨daemon, found, phase, rfl⟩ := atDaemon_eq_some.mp stepped
      have cleared : daemon.phase.cleared = true := by rw [phase]; rfl
      split
      · exact consistent.keepRecord found cleared rfl rfl
      · exact consistent.keepRecord found cleared rfl rfl
  | bindConsole index =>
      obtain ⟨daemon, found, phase, rfl⟩ := atDaemon_eq_some.mp stepped
      have cleared : daemon.phase.cleared = true := by rw [phase]; rfl
      split
      · exact consistent.keepRecord found cleared rfl rfl
      · exact consistent.keepRecord found cleared rfl rfl
  | writePid index =>
      obtain ⟨daemon, found, phase, rfl⟩ := atDaemon_eq_some.mp stepped
      exact consistent.keepRecord found (by rw [phase]; rfl) rfl rfl
  | writeMounts index =>
      obtain ⟨daemon, found, phase, rfl⟩ := atDaemon_eq_some.mp stepped
      have recorded := consistent.recorded found (by rw [phase]; rfl)
      have config_eq := consistent.daemons daemon (List.mem_of_getElem? found)
      refine consistent.setDaemonRecorded { mounts := ?_, extraDisks := recorded.extraDisks }
      rintro mounts ⟨⟩
      rw [config_eq]
  | writeExtraDisks index =>
      obtain ⟨daemon, found, phase, rfl⟩ := atDaemon_eq_some.mp stepped
      have recorded := consistent.recorded found (by rw [phase]; rfl)
      have config_eq := consistent.daemons daemon (List.mem_of_getElem? found)
      refine consistent.setDaemonRecorded { mounts := recorded.mounts, extraDisks := ?_ }
      rintro extraDisks ⟨⟩
      rw [config_eq]
  | stopVm index =>
      obtain ⟨daemon, found, phase, rfl⟩ := atDaemon_eq_some.mp stepped
      exact consistent.keepRecord found (by rw [phase]; rfl) rfl rfl
  | shutdownClear index file =>
      obtain ⟨daemon, found, phase, rfl⟩ := atDaemon_eq_some.mp stepped
      have recorded := consistent.recorded found (by rw [phase]; rfl)
      exact consistent.setDaemonRecorded (recorded.remove file)
  | exit index =>
      obtain ⟨daemon, found, phase, rfl⟩ := atDaemon_eq_some.mp stepped
      exact consistent.setDaemonUncleared rfl rfl
  | die index =>
      simp only [ProfileWorld.step] at stepped
      split at stepped
      · cases stepped
      · split at stepped
        · cases stepped
        · obtain rfl := Option.some.inj stepped
          exact consistent.setDaemonUncleared rfl rfl

theorem consistent_init {dir : StateDir} (left : ∀ index, dir.pidFile ≠ some (.daemon index))
    (config : MountConfig) : (init dir).Consistent config where
  callers := nofun
  daemons := nofun
  mounts := .inr nofun
  files := .inr { pid := left, callers := nofun, daemons := nofun }

/-- In every run in which everybody has one configuration, whatever an earlier daemon left, no
caller reports a conflict if each list is on record, or empty, when it is read. -/
theorem peaceful_of_reads_recorded {config : MountConfig} {dir : StateDir}
    {actions : List StartupAction} (left : ∀ index, dir.pidFile ≠ some (.daemon index))
    (same : ∀ action ∈ actions, SameConfig config action)
    (reads : Guarded step (ReadsRecorded config) actions (init dir)) :
    Always step Peaceful actions (init dir) := by
  have domain : Guarded step (fun _ action => SameConfig config action) actions (init dir) :=
    guarded_of_forall (fun action member _ => same action member) (init dir)
  have consistent : Always step (Consistent config) actions (init dir) :=
    always_of_guarded (fun holds allowed stepped => holds.step allowed.1 allowed.2 stepped)
      (consistent_init left config) (domain.and reads)
  exact consistent.imp fun _ holds caller member => (holds.callers caller member).2

/-- A share and an extra disk. -/
def homeAndDisk : MountConfig where
  mounts := [{ hostPath := "/Users/ada", tag := "share0", readOnly := false,
               containerPath := "/data" }]
  extraDisks := ["/disk.img"]

/-- One caller starts a daemon in an empty state directory, up to the recording of its pid. -/
def untilPid (config : MountConfig) : List StartupAction :=
  [.enter config, .readPid 0] ++ clearBy (.clear 0) ++ [.spawn 0 config, .daemonReadPid 0] ++
    clearBy (.daemonClear 0) ++ [.boot 0, .bindSock 0, .bindConsole 0, .writePid 0]

/-- A second caller finds the daemon when the shares and the disks are on record. -/
theorem peaceful_when_recorded :
    Always step Peaceful
      (untilPid homeAndDisk ++ [.writeMounts 0, .writeExtraDisks 0, .enter homeAndDisk,
        .readPid 1, .probe 1 (.daemon 0) false, .verifyMounts 1, .verifyDisks 1])
      (init ⟨none, some .stale, none, none, none, none⟩) := by
  have same : ∀ action ∈ untilPid homeAndDisk ++ [.writeMounts 0, .writeExtraDisks 0,
      .enter homeAndDisk, .readPid 1, .probe 1 (.daemon 0) false, .verifyMounts 1, .verifyDisks 1],
      SameConfig homeAndDisk action := by decide
  exact peaceful_of_reads_recorded (by simp) same (by decide)

/-- A second caller with the same shares finds the daemon before the shares are on record. -/
theorem conflict_before_mounts_recorded :
    ¬ ∀ (config : MountConfig) (dir : StateDir) (actions : List StartupAction),
      (∀ index, dir.pidFile ≠ some (.daemon index)) →
        (∀ action ∈ actions, SameConfig config action) →
          Always step Peaceful actions (init dir) := by
  intro peaceful
  have always := peaceful homeAndDisk ⟨none, none, none, none, none, none⟩
    (untilPid homeAndDisk ++
      [.enter homeAndDisk, .readPid 1, .probe 1 (.daemon 0) false, .verifyMounts 1]) (by simp)
    (by decide)
  have conflicting := always _ (List.prefix_refl _) _ rfl
    { config := homeAndDisk, phase := .returned (.err differentMounts) }
  exact conflicting (by decide) (.inl rfl)

end ProfileWorld

end Pelagos.Daemon
