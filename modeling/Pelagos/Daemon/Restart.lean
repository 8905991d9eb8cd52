import Pelagos.Daemon.ConfigConflict

/-!
# Stopping and starting again

An operator who wants another configuration stops the daemon, waits for its pid to go away and
starts it again.  `vm stop` only knows the pid on file: it must not come while a daemon is on its
way to recording one, and it returns while the daemon may still be removing its other files.  When
the next start leaves the daemon the time to remove its socket, each start takes effect, whatever
the daemons do meanwhile.
-/

namespace Pelagos.Daemon

open Execution

/-- The action is one of a daemon. -/
def StartupAction.isDaemon : StartupAction → Bool
  | .daemonReadPid _ | .daemonProbe .. | .daemonClear .. | .boot _ | .bindSock _ | .bindConsole _
  | .writePid _ | .writeMounts _ | .writeExtraDisks _ | .stopVm _ | .shutdownClear .. | .exit _
  | .die _ => true
  | _ => false

/-- The caller whose step this is. -/
def StartupAction.caller? : StartupAction → Option Nat
  | .readPid index | .probe index .. | .clear index _ | .spawn index _ | .abandon index _
  | .poll index | .timeOut index | .verifyMounts index | .verifyDisks index => some index
  | _ => none

/-- The configuration that a daemon is spawned with. -/
def StartupAction.spawned? : StartupAction → Option MountConfig
  | .spawn _ config => some config
  | _ => none

/-- What the operator is doing. -/
inductive OperatorPhase where
  | idle
  /-- In the `ensure_running` of `vm start`. -/
  | starting (caller : Nat)
  /-- Before a `running_pid` of `vm_stop`; the flag says whether SIGTERM has been sent. -/
  | stopping (sent : Bool)
  /-- In that `running_pid`, with the owner that the pid file named. -/
  | probing (sent : Bool) (owner : FileOwner)
  deriving DecidableEq

/-- The caller has emptied the state directory. -/
def CallerPhase.emptied : CallerPhase → Bool
  | .entered | .probing _ | .clearing _ => false
  | _ => true

/-- One operator, who gives one command after the other. -/
structure Operator where
  world : ProfileWorld
  phase : OperatorPhase
  /-- What was started last, unless `vm stop` has found no daemon since. -/
  last : Option MountConfig
  deriving DecidableEq

/-- A command of the operator, a step of `vm_stop`, or a step of a daemon or a caller. -/
inductive OperatorAction where
  | start (config : MountConfig)
  | stop
  /-- `vm_stop` reads the pid file. -/
  | readPid
  /-- `vm_stop` probes the pid, and sends SIGTERM when it is the first time. -/
  | probe (reused : Bool)
  /-- 45 seconds are over. -/
  | giveUp
  /-- A step of `ensure_running`. -/
  | own (action : StartupAction)
  | daemon (action : StartupAction)
  /-- `ensure_running` has returned. -/
  | finish
  deriving DecidableEq

namespace Operator

/-- Nobody is running; the files are those of an earlier daemon. -/
def init (dir : StateDir) : Operator := { world := .init dir, phase := .idle, last := none }

/-- `vm stop` returns without a daemon. -/
def stopped (operator : Operator) : Operator := { operator with phase := .idle, last := none }

/-- The daemon that is spawned gets the configuration that was asked for. -/
def step (operator : Operator) : OperatorAction → Option Operator
  | .start config =>
      if operator.phase = .idle then do
        let world ← operator.world.step (.enter config)
        return { world, phase := .starting operator.world.callers.length, last := some config }
      else none
  | .stop =>
      if operator.phase = .idle then some { operator with phase := .stopping false } else none
  | .readPid =>
      match operator.phase with
      | .stopping sent =>
          match operator.world.dir.pidFile with
          | none => some operator.stopped
          | some owner => some { operator with phase := .probing sent owner }
      | _ => none
  | .probe reused =>
      match operator.phase with
      | .probing _ owner =>
          if operator.world.isDaemonAlive reused owner then
            some { operator with phase := .stopping true }
          else some operator.stopped
      | _ => none
  | .giveUp =>
      if operator.phase = .stopping true then some { operator with phase := .idle } else none
  | .own action =>
      match operator.phase, action.caller? with
      | .starting caller, some index =>
          if index = caller ∧ (action.spawned?.isSome → action.spawned? = operator.last) then do
            return { operator with world := ← operator.world.step action }
          else none
      | _, _ => none
  | .daemon action =>
      if action.isDaemon then do return { operator with world := ← operator.world.step action }
      else none
  | .finish =>
      match operator.phase with
      | .starting caller =>
          match operator.world.callerPhase caller with
          | some (.returned _) => some { operator with phase := .idle }
          | _ => none
      | _ => none

/-- No daemon is on its way to recording its pid. -/
def NobodyStarting (world : ProfileWorld) : Prop :=
  ∀ daemon ∈ world.daemons, daemon.phase.starting = false

instance (world : ProfileWorld) : Decidable (NobodyStarting world) :=
  inferInstanceAs (Decidable (∀ _ ∈ _, _))

/-- No daemon has removed its pid and has its socket still to remove. -/
def SockRemoved (world : ProfileWorld) : Prop :=
  ∀ daemon ∈ world.daemons, daemon.phase ≠ .shuttingDown .sock

instance (world : ProfileWorld) : Decidable (SockRemoved world) :=
  inferInstanceAs (Decidable (∀ _ ∈ _, _))

/-- `vm stop` does not come while a daemon is on its way to recording its pid, each start comes
after a stop that has found no daemon, and it does not look for a daemon between the removal of a
pid and that of the socket; nor does it fail before it has emptied the state directory.  The pids of
dead daemons are not in use. -/
def Careful (operator : Operator) : OperatorAction → Prop
  | .start _ => operator.last = none
  | .readPid => operator.phase = .stopping false → NobodyStarting operator.world
  | .probe reused => reused = false
  | .own (.readPid _) => SockRemoved operator.world
  | .own (.probe _ _ reused) => reused = false ∧ SockRemoved operator.world
  | .own (.abandon index message) =>
      message ≠ differentMounts ∧ message ≠ differentDisks ∧
        ∀ caller ∈ operator.world.callers[index]?, caller.phase.emptied = true
  | _ => True

instance (operator : Operator) (action : OperatorAction) : Decidable (operator.Careful action) := by
  unfold Careful
  split <;> infer_instance

end Operator

/-- The caller has removed the socket that an earlier daemon left and has not spawned its own. -/
def CallerPhase.unserved : CallerPhase → Bool
  | .clearing .pid | .clearing .sock => false
  | .clearing _ | .spawning => true
  | _ => false

theorem starting_of_unserved {phase : CallerPhase} (unserved : phase.unserved = true) :
    phase.starting = true := by
  unfold CallerPhase.unserved at unserved
  split at unserved <;> first | rfl | cases unserved

namespace Operator

/-- The start that is under way has emptied the state directory. -/
def Cleared (operator : Operator) : Prop :=
  ∀ caller phase, operator.phase = .starting caller →
    operator.world.callerPhase caller = some phase → phase.emptied = true

/-- The socket is that of a daemon with this configuration. -/
def ServedBy (config : MountConfig) (world : ProfileWorld) : Prop :=
  ∀ owner, world.dir.sockFile = some owner →
    ∃ index daemon, owner = .daemon index ∧ world.daemons[index]? = some daemon ∧
      daemon.config = config

/-- No daemon is starting or on record. -/
def Stopped (world : ProfileWorld) : Prop :=
  ∀ daemon ∈ world.daemons, daemon.phase.starting = false ∧ daemon.phase.owning = false

/-- A daemon moves from one phase to another. -/
structure DaemonMove (before after : ProfileWorld) (index : Nat) (old new : DaemonPhase) :
    Prop where
  found : before.daemonPhase index = some old
  running : old ≠ .exited
  callers : after.callers = before.callers
  phases : ∀ other, after.daemonPhase other =
    if other = index then some new else before.daemonPhase other
  configs : ∀ other : Nat, (after.daemons[other]?).map DaemonProcess.config =
    (before.daemons[other]?).map DaemonProcess.config
  starting : new.starting = true → old.starting = true
  holding : new.starting = true ∨ new.bound = true → old.starting = true ∨ old.bound = true
  owning : new.owning = true → old.starting = true ∨ old.owning = true
  sock : after.dir.sockFile = before.dir.sockFile ∨
    (old.starting = true ∨ old.bound = true) ∧
      (after.dir.sockFile = none ∨ after.dir.sockFile = some (.daemon index))
  pid : after.dir.pidFile = before.dir.pidFile ∨ after.dir.pidFile = none ∨
    after.dir.pidFile = some (.daemon index) ∧ new.owning = true
  pidKept : old.owning = true → new.owning = true ∨ new = .exited ∨ after.dir.pidFile = none

section Moves

variable {before : ProfileWorld} {index : Nat} {daemon : DaemonProcess}

theorem configs_setDaemon (dir : StateDir) (phase : DaemonPhase) (other : Nat) :
    (((before.setDir dir).setDaemon index phase).daemons[other]?).map DaemonProcess.config =
      (before.daemons[other]?).map DaemonProcess.config := by
  simp only [ProfileWorld.setDaemon, ProfileWorld.setDir, List.getElem?_modify]
  cases before.daemons[other]? with
  | none => rfl
  | some process => by_cases same : index = other <;> simp [same]

/-- A daemon that is starting moves, and may put itself on record. -/
theorem daemonMove_starting (found : before.daemons[index]? = some daemon)
    (starting : daemon.phase.starting = true) {dir : StateDir} {new : DaemonPhase}
    (sock : dir.sockFile = before.dir.sockFile ∨ dir.sockFile = none ∨
      dir.sockFile = some (.daemon index))
    (pid : dir.pidFile = before.dir.pidFile ∨ dir.pidFile = none ∨
      dir.pidFile = some (.daemon index) ∧ new.owning = true) :
    DaemonMove before ((before.setDir dir).setDaemon index new) index daemon.phase new where
  found := congrArg (Option.map DaemonProcess.phase) found
  running exited := by simp [exited, DaemonPhase.starting] at starting
  callers := rfl
  phases := ProfileWorld.daemonPhase_setDaemon found new
  configs := configs_setDaemon dir new
  starting _ := starting
  holding _ := .inl starting
  owning _ := .inl starting
  sock := sock.imp_right fun changed => ⟨.inl starting, changed⟩
  pid := pid
  pidKept owning := by
    unfold DaemonPhase.owning at owning
    split at owning <;> simp_all [DaemonPhase.starting]

/-- A daemon on record stays there. -/
theorem daemonMove_owning (found : before.daemons[index]? = some daemon)
    (owning : daemon.phase.owning = true) {dir : StateDir} {new : DaemonPhase}
    (not_starting : new.starting = false) (still : new.owning = true)
    (sock : dir.sockFile = before.dir.sockFile) (pid : dir.pidFile = before.dir.pidFile) :
    DaemonMove before ((before.setDir dir).setDaemon index new) index daemon.phase new where
  found := congrArg (Option.map DaemonProcess.phase) found
  running exited := by simp [exited, DaemonPhase.owning] at owning
  callers := rfl
  phases := ProfileWorld.daemonPhase_setDaemon found new
  configs := configs_setDaemon dir new
  starting starting := by simp [not_starting] at starting
  holding _ := .inr (ProfileWorld.bound_of_owning owning)
  owning _ := .inr owning
  sock := .inl sock
  pid := .inl pid
  pidKept _ := .inl still

/-- A daemon removes one file after the other when it shuts down. -/
theorem daemonMove_shuttingDown (found : before.daemons[index]? = some daemon) {file : StateFile}
    (phase : daemon.phase = .shuttingDown file) :
    DaemonMove before
      ((before.setDir (before.dir.remove file)).setDaemon index
        (file.next?.elim .leaving .shuttingDown))
      index daemon.phase (file.next?.elim .leaving .shuttingDown) where
  found := congrArg (Option.map DaemonProcess.phase) found
  running exited := by simp [phase] at exited
  callers := rfl
  phases := ProfileWorld.daemonPhase_setDaemon found _
  configs := configs_setDaemon _ _
  starting starting := by cases file <;> cases starting
  holding holding := by
    rw [phase]
    cases file with
    | pid => exact .inr rfl
    | sock => exact .inr rfl
    | _ => rcases holding with starting | bound <;> contradiction
  owning owning := by cases file <;> cases owning
  sock := by
    rw [phase]
    cases file with
    | sock => exact .inr ⟨.inr rfl, .inl rfl⟩
    | _ => exact .inl rfl
  pid := by
    cases file with
    | pid => exact .inr (.inl rfl)
    | _ => exact .inl rfl
  pidKept owning := by
    rw [phase] at owning
    cases file with
    | pid => exact .inr (.inr rfl)
    | _ => cases owning

/-- A daemon ends. -/
theorem daemonMove_exited (found : before.daemons[index]? = some daemon)
    (running : daemon.phase ≠ .exited) :
    DaemonMove before (before.setDaemon index .exited) index daemon.phase .exited where
  found := congrArg (Option.map DaemonProcess.phase) found
  running := running
  callers := rfl
  phases := ProfileWorld.daemonPhase_setDaemon found .exited
  configs := configs_setDaemon before.dir .exited
  starting := by simp [DaemonPhase.starting]
  holding := by simp [DaemonPhase.starting, DaemonPhase.bound]
  owning := by simp [DaemonPhase.owning]
  sock := .inl rfl
  pid := .inl rfl
  pidKept _ := .inr (.inl rfl)

end Moves

/-- Every step of a daemon is such a move. -/
theorem daemonMove_of_step {before after : ProfileWorld} {action : StartupAction}
    (isDaemon : action.isDaemon = true) (stepped : before.step action = some after) :
    ∃ index old new, DaemonMove before after index old new := by
  cases action with
  | daemonReadPid index =>
      obtain ⟨daemon, found, phase, rfl⟩ := ProfileWorld.atDaemon_eq_some.mp stepped
      exact ⟨index, _, _, daemonMove_starting found (by rw [phase]; rfl) (.inl rfl) (.inl rfl)⟩
  | daemonProbe index owner reused =>
      obtain ⟨daemon, found, phase, rfl⟩ := ProfileWorld.atDaemon_eq_some.mp stepped
      exact ⟨index, _, _, daemonMove_starting found (by rw [phase]; rfl) (.inl rfl) (.inl rfl)⟩
  | daemonClear index file =>
      obtain ⟨daemon, found, phase, rfl⟩ := ProfileWorld.atDaemon_eq_some.mp stepped
      refine ⟨index, _, _, daemonMove_starting found (by rw [phase]; rfl) ?_ ?_⟩
      · cases file with
        | sock => exact .inr (.inl rfl)
        | _ => exact .inl rfl
      · cases file with
        | pid => exact .inr (.inl rfl)
        | _ => exact .inl rfl
  | boot index =>
      obtain ⟨daemon, found, phase, rfl⟩ := ProfileWorld.atDaemon_eq_some.mp stepped
      exact ⟨index, _, _, daemonMove_starting found (by rw [phase]; rfl) (.inl rfl) (.inl rfl)⟩
  | bindSock index =>
      obtain ⟨daemon, found, phase, rfl⟩ := ProfileWorld.atDaemon_eq_some.mp stepped
      split
      · exact ⟨index, _, _, daemonMove_exited found (by simp [phase])⟩
      · exact ⟨index, _, _, daemonMove_starting found (by rw [phase]; rfl) (.inr (.inr rfl))
          (.inl rfl)⟩
  | bindConsole index =>
      obtain ⟨daemon, found, phase, rfl⟩ := ProfileWorld.atDaemon_eq_some.mp stepped
      split
      · exact ⟨index, _, _, daemonMove_exited found (by simp [phase])⟩
      · exact ⟨index, _, _, daemonMove_starting found (by rw [phase]; rfl) (.inl rfl) (.inl rfl)⟩
  | writePid index =>
      obtain ⟨daemon, found, phase, rfl⟩ := ProfileWorld.atDaemon_eq_some.mp stepped
      exact ⟨index, _, _, daemonMove_starting found (by rw [phase]; rfl) (.inl rfl)
        (.inr (.inr ⟨rfl, rfl⟩))⟩
  | writeMounts index =>
      obtain ⟨daemon, found, phase, rfl⟩ := ProfileWorld.atDaemon_eq_some.mp stepped
      exact ⟨index, _, _, daemonMove_owning found (by rw [phase]; rfl) rfl rfl rfl rfl⟩
  | writeExtraDisks index =>
      obtain ⟨daemon, found, phase, rfl⟩ := ProfileWorld.atDaemon_eq_some.mp stepped
      exact ⟨index, _, _, daemonMove_owning found (by rw [phase]; rfl) rfl rfl rfl rfl⟩
  | stopVm index =>
      obtain ⟨daemon, found, phase, rfl⟩ := ProfileWorld.atDaemon_eq_some.mp stepped
      exact ⟨index, _, _, daemonMove_owning found (by rw [phase]; rfl) rfl rfl rfl rfl⟩
  | shutdownClear index file =>
      obtain ⟨daemon, found, phase, rfl⟩ := ProfileWorld.atDaemon_eq_some.mp stepped
      exact ⟨index, _, _, daemonMove_shuttingDown found phase⟩
  | exit index =>
      obtain ⟨daemon, found, phase, rfl⟩ := ProfileWorld.atDaemon_eq_some.mp stepped
      exact ⟨index, _, _, daemonMove_exited found (by simp [phase])⟩
  | die index =>
      simp only [ProfileWorld.step] at stepped
      split at stepped
      · cases stepped
      · rename_i daemon found
        split at stepped
        · cases stepped
        · rename_i running
          obtain rfl := Option.some.inj stepped
          exact ⟨index, _, _, daemonMove_exited found running⟩
  | _ => cases isDaemon

/-! ## Nobody is in the state directory -/

/-- The pid of a daemon on file is that of one on record or of a dead one. -/
def PidKept (world : ProfileWorld) : Prop :=
  ∀ index, world.dir.pidFile = some (.daemon index) →
    ∃ phase, world.daemonPhase index = some phase ∧ (phase.owning = true ∨ phase = .exited)

theorem Stopped.phase {world : ProfileWorld} (stopped : Stopped world) {index : Nat}
    {phase : DaemonPhase} (found : world.daemonPhase index = some phase) :
    phase.starting = false ∧ phase.owning = false := by
  obtain ⟨daemon, at_index, rfl⟩ := Option.map_eq_some_iff.mp found
  exact stopped daemon (List.mem_of_getElem? at_index)

theorem stopped_of_phases {world : ProfileWorld}
    (phases : ∀ index phase, world.daemonPhase index = some phase →
      phase.starting = false ∧ phase.owning = false) : Stopped world := by
  intro daemon member
  obtain ⟨index, found⟩ := List.mem_iff_getElem?.mp member
  exact phases index daemon.phase (congrArg (Option.map DaemonProcess.phase) found)

theorem NobodyStarting.phase {world : ProfileWorld} (nobody : NobodyStarting world) {index : Nat}
    {phase : DaemonPhase} (found : world.daemonPhase index = some phase) :
    phase.starting = false := by
  obtain ⟨daemon, at_index, rfl⟩ := Option.map_eq_some_iff.mp found
  exact nobody daemon (List.mem_of_getElem? at_index)

/-- A daemon that neither starts nor is on record is bound only between two removals. -/
theorem not_bound {phase : DaemonPhase} (not_starting : phase.starting = false)
    (not_owning : phase.owning = false) (removed : phase ≠ .shuttingDown .sock) :
    phase.bound = false := by
  by_contra bound
  unfold DaemonPhase.bound at bound
  split at bound <;> simp_all [DaemonPhase.starting, DaemonPhase.owning]

/-- The invariant of a careful operator. -/
structure Steady (operator : Operator) : Prop where
  exclusive : operator.world.Exclusive
  pidKept : PidKept operator.world
  /-- Only the start that is under way has not returned. -/
  returned : ∀ index phase, operator.world.callerPhase index = some phase →
    operator.phase ≠ .starting index → ∃ result, phase = .returned result
  peaceful : ∀ index phase, operator.world.callerPhase index = some phase →
    ¬ phase.Conflicting ∧ phase ≠ .verifyingMounts ∧ phase ≠ .verifyingDisks
  stopping : operator.phase = .stopping true → NobodyStarting operator.world
  /-- `vm stop` has read the pid of the daemon on record, if there is one. -/
  probing : ∀ sent owner, operator.phase = .probing sent owner →
    NobodyStarting operator.world ∧ ∀ index phase, operator.world.daemonPhase index = some phase →
      phase.owning = true → owner = .daemon index
  stopped : operator.last = none → Stopped operator.world
  entered : ∀ caller, operator.phase = .starting caller →
    operator.world.callerPhase caller = some .entered → Stopped operator.world
  /-- `vm start` has read a pid that nobody has any more. -/
  probed : ∀ caller owner, operator.phase = .starting caller →
    operator.world.callerPhase caller = some (.probing owner) → Stopped operator.world ∧
      ∀ index, owner = .daemon index → operator.world.daemonPhase index = some .exited
  unserved : ∀ caller phase, operator.phase = .starting caller →
    operator.world.callerPhase caller = some phase → phase.unserved = true →
      operator.world.dir.sockFile = none
  begun : ∀ caller, operator.phase = .starting caller → operator.last ≠ none
  daemons : ∀ config, operator.last = some config → operator.Cleared →
    ∀ (index : Nat) (daemon : DaemonProcess), operator.world.daemons[index]? = some daemon →
      daemon.phase.starting = true ∨ daemon.phase.bound = true → daemon.config = config
  served : ∀ config, operator.last = some config → operator.Cleared →
    ServedBy config operator.world

section Moved

variable {before after : ProfileWorld} {index : Nat} {old new : DaemonPhase}
  (move : DaemonMove before after index old new)
include move

theorem DaemonMove.daemon_after {other : Nat} {process : DaemonProcess}
    (found : before.daemons[other]? = some process) :
    ∃ daemon, after.daemons[other]? = some daemon := by
  have mapped := move.configs other
  rw [found] at mapped
  obtain ⟨daemon, daemon_found, -⟩ := Option.map_eq_some_iff.mp mapped
  exact ⟨daemon, daemon_found⟩

theorem DaemonMove.config_eq {other : Nat} {process daemon : DaemonProcess}
    (found : before.daemons[other]? = some process)
    (found_after : after.daemons[other]? = some daemon) : process.config = daemon.config := by
  have mapped := move.configs other
  rw [found, found_after] at mapped
  exact (Option.some.inj mapped).symm

theorem DaemonMove.pidKept_after (kept : PidKept before) : PidKept after := by
  intro other recorded
  rw [move.phases]
  rcases move.pid with same | cleared | ⟨own, owning⟩
  · obtain ⟨phase, found, standing⟩ := kept other (same ▸ recorded)
    split
    · rename_i moved
      subst moved
      obtain rfl := Option.some.inj (move.found.symm.trans found)
      rcases move.pidKept (standing.resolve_right move.running) with owning | exited | cleared
      · exact ⟨new, rfl, .inl owning⟩
      · exact ⟨new, rfl, .inr exited⟩
      · rw [cleared] at recorded
        cases recorded
    · exact ⟨phase, found, standing⟩
  · rw [cleared] at recorded
    cases recorded
  · obtain rfl : index = other := by
      rw [own] at recorded
      cases recorded
      rfl
    exact ⟨new, if_pos rfl, .inl owning⟩

/-- A phase after the move is one before it, or that of the daemon that has moved. -/
theorem DaemonMove.phase_before {other : Nat} {phase : DaemonPhase}
    (found : after.daemonPhase other = some phase) :
    before.daemonPhase other = some phase ∨ other = index ∧ phase = new := by
  rw [move.phases] at found
  split at found
  · rename_i same
    exact .inr ⟨same, (Option.some.inj found).symm⟩
  · exact .inl found

theorem DaemonMove.nobodyStarting (nobody : NobodyStarting before) : NobodyStarting after := by
  intro daemon member
  obtain ⟨other, found⟩ := List.mem_iff_getElem?.mp member
  rcases move.phase_before (congrArg (Option.map DaemonProcess.phase) found) with kept | ⟨-, moved⟩
  · exact nobody.phase kept
  · by_contra starting
    rw [moved] at starting
    have old_starting := move.starting (by simpa using starting)
    simp [nobody.phase move.found] at old_starting

theorem DaemonMove.stopped (stopped : Stopped before) : Stopped after := by
  have quiet := stopped.phase move.found
  refine stopped_of_phases fun other phase found => ?_
  rcases move.phase_before found with kept | ⟨-, rfl⟩
  · exact stopped.phase kept
  · constructor
    · by_contra starting
      have old_starting := move.starting (by simpa using starting)
      simp [quiet] at old_starting
    · by_contra owning
      have old_owning := move.owning (by simpa using owning)
      simp [quiet] at old_owning

theorem DaemonMove.exited {other : Nat} (exited : before.daemonPhase other = some .exited) :
    after.daemonPhase other = some .exited := by
  rw [move.phases, if_neg]
  · exact exited
  · rintro rfl
    exact move.running (Option.some.inj (move.found.symm.trans exited))

end Moved

/-! ## The daemons' steps -/

theorem Steady.daemonMoves {operator : Operator} (steady : Steady operator) {after : ProfileWorld}
    {index : Nat} {old new : DaemonPhase} (move : DaemonMove operator.world after index old new)
    (exclusive : after.Exclusive) : Steady { operator with world := after } := by
  have callers (other : Nat) : after.callerPhase other = operator.world.callerPhase other := by
    rw [ProfileWorld.callerPhase, move.callers]
    rfl
  have held (other : Nat) (holds : after.Holds (.daemon other)) :
      operator.world.Holds (.daemon other) := by
    obtain ⟨phase, found, active⟩ := holds
    rcases move.phase_before found with kept | ⟨rfl, rfl⟩
    · exact ⟨phase, kept, active⟩
    · exact ⟨old, move.found, move.holding active⟩
  have cleared_before (cleared : Cleared { operator with world := after }) : operator.Cleared :=
    fun caller phase starting found => cleared caller phase starting ((callers caller).trans found)
  exact {
    exclusive
    pidKept := move.pidKept_after steady.pidKept
    returned := fun other phase found => steady.returned other phase (callers other ▸ found)
    peaceful := fun other phase found => steady.peaceful other phase (callers other ▸ found)
    stopping := fun stopping => move.nobodyStarting (steady.stopping stopping)
    probing := by
      intro sent owner probing
      obtain ⟨nobody, read⟩ := steady.probing sent owner probing
      refine ⟨move.nobodyStarting nobody, fun other phase found owning => ?_⟩
      rcases move.phase_before found with kept | ⟨rfl, rfl⟩
      · exact read other phase kept owning
      · have was_owning := (move.owning owning).resolve_left (by simp [nobody.phase move.found])
        exact read _ old move.found was_owning
    stopped := fun none_since => move.stopped (steady.stopped none_since)
    entered := fun caller starting entered =>
      move.stopped (steady.entered caller starting (callers caller ▸ entered))
    probed := by
      intro caller owner starting probing
      obtain ⟨stopped, dead⟩ := steady.probed caller owner starting (callers caller ▸ probing)
      exact ⟨move.stopped stopped, fun other named => move.exited (dead other named)⟩
    begun := steady.begun
    unserved := by
      intro caller phase starting found unserved
      have found_before := callers caller ▸ found
      rcases move.sock with same | ⟨holding, -⟩
      · exact same.trans (steady.unserved caller phase starting found_before unserved)
      · -- a daemon that touches the files would hold the directory beside the caller
        have caller_holds : operator.world.Holds (.caller caller) :=
          ⟨phase, found_before, starting_of_unserved unserved⟩
        have daemon_holds : operator.world.Holds (.daemon index) := ⟨old, move.found, holding⟩
        have same := steady.exclusive.one _ _ caller_holds daemon_holds
        cases same
    daemons := by
      intro config last cleared other daemon found holding
      obtain ⟨phase, phase_found, active⟩ := held other
        ⟨daemon.phase, congrArg (Option.map DaemonProcess.phase) found, holding⟩
      obtain ⟨process, process_found, rfl⟩ := Option.map_eq_some_iff.mp phase_found
      rw [← move.config_eq process_found found]
      exact steady.daemons config last (cleared_before cleared) other process process_found active
    served := by
      intro config last cleared owner bound
      have clear := cleared_before cleared
      rcases move.sock with same | ⟨holding, none_bound | own⟩
      · obtain ⟨other, process, rfl, found, configured⟩ :=
          steady.served config last clear owner (same ▸ bound)
        obtain ⟨daemon, daemon_found⟩ := move.daemon_after found
        exact ⟨other, daemon, rfl, daemon_found,
          (move.config_eq found daemon_found).symm.trans configured⟩
      · rw [none_bound] at bound
        cases bound
      · obtain ⟨process, found, rfl⟩ := Option.map_eq_some_iff.mp move.found
        obtain ⟨daemon, daemon_found⟩ := move.daemon_after found
        obtain rfl := Option.some.inj (own.symm.trans bound)
        exact ⟨index, daemon, rfl, daemon_found,
          (move.config_eq found daemon_found).symm.trans
            (steady.daemons config last clear index process found holding)⟩ }

/-! ## The operator's steps -/

theorem ne_starting_of_eq {operator : Operator} {phase : OperatorPhase}
    (at_phase : operator.phase = phase) (other : ∀ caller, phase ≠ .starting caller)
    (caller : Nat) : operator.phase ≠ .starting caller :=
  fun starting => other caller (at_phase.symm.trans starting)

/-- No command begins or ends a start. -/
theorem Steady.turns {operator : Operator} (steady : Steady operator) {phase : OperatorPhase}
    (before : ∀ caller, operator.phase ≠ .starting caller)
    (after : ∀ caller, phase ≠ .starting caller)
    (stopping : phase = .stopping true → NobodyStarting operator.world)
    (probing : ∀ sent owner, phase = .probing sent owner →
      NobodyStarting operator.world ∧ ∀ index old, operator.world.daemonPhase index = some old →
        old.owning = true → owner = .daemon index) :
    Steady { operator with phase } where
  exclusive := steady.exclusive
  pidKept := steady.pidKept
  returned index old found _ := steady.returned index old found (before index)
  peaceful := steady.peaceful
  stopping := stopping
  probing := probing
  stopped := steady.stopped
  entered caller starting := absurd starting (after caller)
  probed caller _ starting := absurd starting (after caller)
  unserved caller _ starting := absurd starting (after caller)
  begun caller starting := absurd starting (after caller)
  daemons config last _ := steady.daemons config last fun caller _ starting =>
    absurd starting (before caller)
  served config last _ := steady.served config last fun caller _ starting =>
    absurd starting (before caller)

/-- `vm stop` finds no daemon. -/
theorem Steady.stops {operator : Operator} (steady : Steady operator)
    (before : ∀ caller, operator.phase ≠ .starting caller) (stopped : Stopped operator.world) :
    Steady operator.stopped where
  exclusive := steady.exclusive
  pidKept := steady.pidKept
  returned index old found _ := steady.returned index old found (before index)
  peaceful := steady.peaceful
  stopping := by simp [Operator.stopped]
  probing := by simp [Operator.stopped]
  stopped _ := stopped
  entered := by simp [Operator.stopped]
  probed := by simp [Operator.stopped]
  unserved := by simp [Operator.stopped]
  begun := by simp [Operator.stopped]
  daemons := by simp [Operator.stopped]
  served := by simp [Operator.stopped]

/-- `vm stop` reads the pid file. -/
theorem Steady.reads {operator : Operator} (steady : Steady operator) {sent : Bool}
    (stopping : operator.phase = .stopping sent) (nobody : NobodyStarting operator.world)
    {after : Operator} (stepped : operator.step .readPid = some after) : Steady after := by
  have before := ne_starting_of_eq stopping (by simp)
  simp only [step, stopping] at stepped
  split at stepped
  · rename_i unrecorded
    obtain rfl := Option.some.inj stepped
    refine steady.stops before (stopped_of_phases fun index phase found => ?_)
    refine ⟨nobody.phase found, ?_⟩
    by_contra owning
    have recorded := steady.exclusive.pid index phase found (by simpa using owning)
    rw [unrecorded] at recorded
    cases recorded
  · rename_i owner recorded
    obtain rfl := Option.some.inj stepped
    refine steady.turns before (by simp) (by simp) ?_
    rintro _ _ ⟨⟩
    refine ⟨nobody, fun index phase found owning => ?_⟩
    exact Option.some.inj (recorded.symm.trans (steady.exclusive.pid index phase found owning))

/-- `vm stop` probes the pid that it has read. -/
theorem Steady.probes {operator : Operator} (steady : Steady operator) {sent : Bool}
    {owner : FileOwner} (probing : operator.phase = .probing sent owner) {after : Operator}
    (stepped : operator.step (.probe false) = some after) : Steady after := by
  obtain ⟨nobody, read⟩ := steady.probing sent owner probing
  have before := ne_starting_of_eq probing (by simp)
  simp only [step, probing] at stepped
  split at stepped
  · obtain rfl := Option.some.inj stepped
    exact steady.turns before (by simp) (fun _ => nobody) (by simp)
  · rename_i absent
    obtain rfl := Option.some.inj stepped
    refine steady.stops before (stopped_of_phases fun index phase found => ?_)
    refine ⟨nobody.phase found, ?_⟩
    by_contra owning
    obtain ⟨daemon, at_index, rfl⟩ := Option.map_eq_some_iff.mp found
    have named := read index daemon.phase found (by simpa using owning)
    have exited : daemon.phase = .exited := by
      simpa [named, ProfileWorld.isDaemonAlive, at_index] using absent
    simp [exited, DaemonPhase.owning] at owning

/-- `vm start` returns. -/
theorem Steady.finishes {operator : Operator} (steady : Steady operator) {caller : Nat}
    {result : EnsureResult} (starting : operator.phase = .starting caller)
    (returned : operator.world.callerPhase caller = some (.returned result)) :
    Steady { operator with phase := .idle } := by
  have only {other : Nat} (starting_other : operator.phase = .starting other) : other = caller := by
    rw [starting] at starting_other
    cases starting_other
    rfl
  have cleared : operator.Cleared := by
    intro other phase starting_other found
    rw [only starting_other, returned] at found
    obtain rfl := Option.some.inj found
    rfl
  exact {
    exclusive := steady.exclusive
    pidKept := steady.pidKept
    returned := by
      intro index phase found _
      by_cases same : operator.phase = .starting index
      · rw [only same, returned] at found
        exact ⟨result, (Option.some.inj found).symm⟩
      · exact steady.returned index phase found same
    peaceful := steady.peaceful
    stopping := by simp
    probing := by simp
    stopped := steady.stopped
    entered := by simp
    probed := by simp
    unserved := by simp
    begun := by simp
    daemons := fun config last _ => steady.daemons config last cleared
    served := fun config last _ => steady.served config last cleared }

theorem callerPhase_enter (world : ProfileWorld) (config : MountConfig) (index : Nat) :
    ProfileWorld.callerPhase
        { world with callers := world.callers ++ [{ config, phase := .entered }] } index =
      if index = world.callers.length then some .entered else world.callerPhase index := by
  simp only [ProfileWorld.callerPhase, List.getElem?_append]
  rcases Nat.lt_trichotomy index world.callers.length with old | rfl | beyond
  · simp [old, old.ne]
  · simp
  · have past : index - world.callers.length ≠ 0 := by omega
    simp [beyond.le, beyond.ne', past]

/-- `vm start` begins. -/
theorem Steady.begins {operator : Operator} (steady : Steady operator) (config : MountConfig)
    (before : ∀ caller, operator.phase ≠ .starting caller) (none_since : operator.last = none) :
    Steady
      { world :=
          { operator.world with
            callers := operator.world.callers ++ [{ config, phase := .entered }] },
        phase := .starting operator.world.callers.length, last := some config } := by
  have own : ProfileWorld.callerPhase
      { operator.world with callers := operator.world.callers ++ [{ config, phase := .entered }] }
      operator.world.callers.length = some .entered := by
    rw [callerPhase_enter, if_pos rfl]
  have not_cleared (cleared : Cleared
      { world :=
          { operator.world with
            callers := operator.world.callers ++ [{ config, phase := .entered }] },
        phase := .starting operator.world.callers.length, last := some config }) : False := by
    cases cleared _ _ rfl own
  exact {
    exclusive := steady.exclusive.enter config
    pidKept := steady.pidKept
    returned := by
      intro index phase found elsewhere
      rw [callerPhase_enter] at found
      split at found
      · rename_i new
        exact absurd (congrArg OperatorPhase.starting new.symm) elsewhere
      · exact steady.returned index phase found (before index)
    peaceful := by
      intro index phase found
      rw [callerPhase_enter] at found
      split at found
      · obtain rfl := Option.some.inj found
        exact ⟨ProfileWorld.not_conflicting_of_not_returned (by simp), by simp, by simp⟩
      · exact steady.peaceful index phase found
    stopping := by simp
    probing := by simp
    stopped := by simp
    entered := fun _ _ _ => steady.stopped none_since
    probed := by
      intro caller owner starting probing
      cases starting
      cases own.symm.trans probing
    unserved := by
      intro caller phase starting found unserved
      cases starting
      obtain rfl := Option.some.inj (own.symm.trans found)
      cases unserved
    begun := by simp
    daemons := fun _ _ cleared => (not_cleared cleared).elim
    served := fun _ _ cleared => (not_cleared cleared).elim }

section Own

variable {operator : Operator} (steady : Steady operator) {index : Nat} {caller : Caller}
  (starting : operator.phase = .starting index)
  (found : operator.world.callers[index]? = some caller)
include steady starting found

/-- The caller of the start moves. -/
theorem Steady.callerMoves {dir : StateDir} {new : CallerPhase}
    (exclusive : ((operator.world.setDir dir).setCaller index new).Exclusive)
    (peaceful : ¬ new.Conflicting ∧ new ≠ .verifyingMounts ∧ new ≠ .verifyingDisks)
    (not_entered : new ≠ .entered)
    (pid : dir.pidFile = operator.world.dir.pidFile ∨ dir.pidFile = none)
    (probed : ∀ owner, new = .probing owner → Stopped operator.world ∧
      ∀ other, owner = .daemon other → operator.world.daemonPhase other = some .exited)
    (unserved : new.unserved = true → dir.sockFile = none)
    (daemons : new.emptied = true → ∀ config, operator.last = some config →
      ∀ (other : Nat) (daemon : DaemonProcess), operator.world.daemons[other]? = some daemon →
        daemon.phase.starting = true ∨ daemon.phase.bound = true → daemon.config = config)
    (served : new.emptied = true → ∀ config, operator.last = some config →
      ServedBy config (operator.world.setDir dir)) :
    Steady
      { operator with world := (operator.world.setDir dir).setCaller index new } := by
  have phases (other : Nat) : ((operator.world.setDir dir).setCaller index new).callerPhase other =
      if other = index then some new else operator.world.callerPhase other :=
    @ProfileWorld.callerPhase_setCaller (operator.world.setDir dir) index caller found new other
  have at_index {other : Nat} {phase : CallerPhase}
      (starting_other : operator.phase = .starting other)
      (found : ((operator.world.setDir dir).setCaller index new).callerPhase other = some phase) :
      new = phase := by
    rw [starting] at starting_other
    cases starting_other
    rw [phases, if_pos rfl] at found
    exact Option.some.inj found
  have emptied (cleared : Cleared
      { operator with world := (operator.world.setDir dir).setCaller index new }) :
      new.emptied = true := cleared index new starting (by rw [phases, if_pos rfl])
  exact {
    exclusive
    pidKept := by
      intro other recorded
      rcases pid with same | none_recorded
      · exact steady.pidKept other (same ▸ recorded)
      · have recorded_in : dir.pidFile = some (.daemon other) := recorded
        rw [none_recorded] at recorded_in
        cases recorded_in
    returned := by
      intro other phase found_after elsewhere
      rw [phases] at found_after
      split at found_after
      · rename_i same
        exact absurd (same ▸ starting) elsewhere
      · exact steady.returned other phase found_after elsewhere
    peaceful := by
      intro other phase found_after
      rw [phases] at found_after
      split at found_after
      · obtain rfl := Option.some.inj found_after
        exact peaceful
      · exact steady.peaceful other phase found_after
    stopping := by simp [starting]
    probing := by simp [starting]
    stopped := fun none_since => absurd none_since (steady.begun index starting)
    entered := fun other starting_other entered =>
      absurd (at_index starting_other entered) not_entered
    probed := fun other owner starting_other probing =>
      probed owner (at_index starting_other probing)
    unserved := fun other phase starting_other found_after without =>
      unserved (at_index starting_other found_after ▸ without)
    begun := steady.begun
    daemons := fun config last cleared => daemons (emptied cleared) config last
    served := fun config last cleared => served (emptied cleared) config last }

/-- The caller returns: the daemon it has spawned is not its concern any more. -/
theorem Steady.callerReturns {result : EnsureResult} (emptied : caller.phase.emptied = true)
    (peaceful : ¬ (CallerPhase.returned result).Conflicting) :
    Steady
      { operator with world := operator.world.setCaller index (.returned result) } := by
  have cleared : operator.Cleared := by
    intro other phase starting_other found_other
    rw [starting] at starting_other
    cases starting_other
    rw [ProfileWorld.callerPhase, found, Option.map_some] at found_other
    exact Option.some.inj found_other ▸ emptied
  exact @Steady.callerMoves operator steady index caller starting found operator.world.dir _
    (steady.exclusive.callerLeaves found rfl) ⟨peaceful, by simp, by simp⟩ (by simp) (.inl rfl)
    (by simp) (by simp [CallerPhase.unserved])
    (fun _ config last => steady.daemons config last cleared)
    (fun _ config last => steady.served config last cleared)

/-- Nobody is in the way of a start that finds no daemon. -/
theorem Steady.nobodyActive (idle : caller.phase.starting = false)
    (stopped : Stopped operator.world) (removed : SockRemoved operator.world) :
    operator.world.NobodyActive := by
  constructor
  · intro other member
    obtain ⟨place, at_place⟩ := List.mem_iff_getElem?.mp member
    by_cases same : operator.phase = .starting place
    · rw [starting] at same
      cases same
      obtain rfl := Option.some.inj (found.symm.trans at_place)
      exact idle
    · obtain ⟨result, returned⟩ := steady.returned place other.phase
        (congrArg (Option.map Caller.phase) at_place) same
      rw [returned]
      rfl
  · intro daemon member
    obtain ⟨not_starting, not_owning⟩ := stopped daemon member
    exact ⟨not_starting, not_bound not_starting not_owning (removed daemon member)⟩

/-- A start that has found no daemon begins to empty the state directory. -/
theorem Steady.callerClears (idle : caller.phase.starting = false)
    (stopped : Stopped operator.world) (removed : SockRemoved operator.world) :
    Steady
      { operator with world := operator.world.setCaller index (.clearing .pid) } := by
  have nobody := steady.nobodyActive starting found idle stopped removed
  have exclusive := steady.exclusive.setCaller found operator.world.dir
    (fun _ => .inr nobody.not_holds : (CallerPhase.clearing .pid).starting = true → _)
    (.inl ⟨rfl, rfl⟩)
  exact @Steady.callerMoves operator steady index caller starting found operator.world.dir _
    exclusive ⟨ProfileWorld.not_conflicting_of_not_returned (by simp), by simp, by simp⟩ (by simp)
    (.inl rfl) (by simp) (by simp [CallerPhase.unserved]) (by simp [CallerPhase.emptied])
    (by simp [CallerPhase.emptied])

/-- A start removes a file. -/
theorem Steady.callerRemoves {file : StateFile} (phase : caller.phase = .clearing file) :
    Steady
      { operator with
        world := (operator.world.setDir (operator.world.dir.remove file)).setCaller index
          (file.next?.elim .spawning .clearing) } := by
  have at_index : operator.world.callerPhase index = some (.clearing file) := by
    rw [ProfileWorld.callerPhase, found, Option.map_some, phase]
  have holder : caller.phase.starting = true := by rw [phase]; rfl
  have exclusive := steady.exclusive.setCaller found (operator.world.dir.remove file)
    (fun _ => .inl holder : (file.next?.elim CallerPhase.spawning CallerPhase.clearing).starting =
      true → _) (.inr holder)
  have unserved : (file.next?.elim CallerPhase.spawning CallerPhase.clearing).unserved = true →
      (operator.world.dir.remove file).sockFile = none := by
    intro without
    cases file with
    | pid => cases without
    | sock => rfl
    | _ => exact steady.unserved index _ starting at_index rfl
  have emptied : (file.next?.elim CallerPhase.spawning CallerPhase.clearing).emptied = true →
      (operator.world.dir.remove file).sockFile = none := by
    intro emptied
    cases file with
    | extraDisks => exact unserved rfl
    | _ => cases emptied
  refine steady.callerMoves starting found exclusive ?_ ?_ ?_ ?_ unserved ?_ ?_
  · cases file <;>
      exact ⟨ProfileWorld.not_conflicting_of_not_returned (by simp [StateFile.next?]),
        by simp [StateFile.next?], by simp [StateFile.next?]⟩
  · cases file <;> simp [StateFile.next?]
  · cases file with
    | pid => exact .inr rfl
    | _ => exact .inl rfl
  · cases file <;> simp [StateFile.next?]
  · intro _ config last other daemon daemon_found holding
    have caller_holds : operator.world.Holds (.caller index) := ⟨_, at_index, rfl⟩
    have daemon_holds : operator.world.Holds (.daemon other) :=
      ⟨_, congrArg (Option.map DaemonProcess.phase) daemon_found, holding⟩
    have same := steady.exclusive.one _ _ caller_holds daemon_holds
    cases same
  · intro cleared config last owner bound
    have bound_in : (operator.world.dir.remove file).sockFile = some owner := bound
    rw [emptied cleared] at bound_in
    cases bound_in

end Own

/-- The start spawns its daemon. -/
theorem Steady.spawns {operator : Operator} (steady : Steady operator) {index : Nat}
    (starting : operator.phase = .starting index) {config : MountConfig}
    (last : operator.last = some config) {after : ProfileWorld}
    (stepped : operator.world.step (.spawn index config) = some after) :
    Steady { operator with world := after } := by
  have alone : operator.world.StartsAlone (.spawn index config) := (absurd · Bool.false_ne_true)
  have exclusive := ProfileWorld.exclusive_step steady.exclusive alone stepped
  obtain ⟨caller, found, phase, rfl⟩ := ProfileWorld.atCaller_eq_some.mp stepped
  have spawning : operator.world.callerPhase index = some .spawning := by
    rw [ProfileWorld.callerPhase, found, ← phase]
    rfl
  have no_sock := steady.unserved index .spawning starting spawning rfl
  have phases := ProfileWorld.callerPhase_setCaller found .waiting
  have only {other : Nat} (starting_other : operator.phase = .starting other) : other = index := by
    rw [starting] at starting_other
    cases starting_other
    rfl
  exact {
    exclusive
    pidKept := by
      intro other recorded
      obtain ⟨phase, phase_found, standing⟩ := steady.pidKept other recorded
      obtain ⟨daemon, daemon_found, rfl⟩ := Option.map_eq_some_iff.mp phase_found
      refine ⟨daemon.phase, ?_, standing⟩
      rw [ProfileWorld.daemonPhase, List.getElem?_append_left
        (List.getElem?_eq_some_iff.mp daemon_found).1, daemon_found]
      rfl
    returned := by
      intro other phase found_after elsewhere
      have at_other := (phases other).symm.trans found_after
      split at at_other
      · rename_i same
        exact absurd (same ▸ starting) elsewhere
      · exact steady.returned other phase at_other elsewhere
    peaceful := by
      intro other phase found_after
      have at_other := (phases other).symm.trans found_after
      split at at_other
      · obtain rfl := Option.some.inj at_other
        exact ⟨ProfileWorld.not_conflicting_of_not_returned (by simp), by simp, by simp⟩
      · exact steady.peaceful other phase at_other
    stopping := by simp [starting]
    probing := by simp [starting]
    stopped := fun none_since => absurd none_since (steady.begun index starting)
    entered := by
      intro other starting_other entered
      have at_other := (phases other).symm.trans entered
      simp [only starting_other] at at_other
    probed := by
      intro other owner starting_other probing
      have at_other := (phases other).symm.trans probing
      simp [only starting_other] at at_other
    unserved := fun _ _ _ _ _ => no_sock
    begun := steady.begun
    daemons := by
      intro asked asked_last _ other daemon daemon_found holding
      obtain rfl := Option.some.inj (last.symm.trans asked_last)
      rw [List.getElem?_append] at daemon_found
      split at daemon_found
      · -- another daemon would hold the directory beside the caller
        have caller_holds : operator.world.Holds (.caller index) := ⟨_, spawning, rfl⟩
        have daemon_holds : operator.world.Holds (.daemon other) :=
          ⟨_, congrArg (Option.map DaemonProcess.phase) daemon_found, holding⟩
        have same := steady.exclusive.one _ _ caller_holds daemon_holds
        cases same
      · obtain rfl := List.mem_singleton.mp (List.mem_of_getElem? daemon_found)
        rfl
    served := by
      intro _ _ _ owner bound
      have bound_before : operator.world.dir.sockFile = some owner := bound
      rw [no_sock] at bound_before
      cases bound_before }

/-! ## Runs -/

/-- A step of a careful start. -/
theorem Steady.own {operator : Operator} (steady : Steady operator) {index : Nat}
    (starting : operator.phase = .starting index) {action : StartupAction}
    (own : action.caller? = some index)
    (configured : action.spawned?.isSome → action.spawned? = operator.last)
    (careful : operator.Careful (.own action)) {after : ProfileWorld}
    (stepped : operator.world.step action = some after) :
    Steady { operator with world := after } := by
  have at_index {caller : Caller} (found : operator.world.callers[index]? = some caller) :
      operator.world.callerPhase index = some caller.phase :=
    congrArg (Option.map Caller.phase) found
  cases action with
  | readPid caller =>
      obtain rfl := Option.some.inj own
      obtain ⟨process, found, phase, rfl⟩ := ProfileWorld.atCaller_eq_some.mp stepped
      have stopped := steady.entered _ starting (phase ▸ at_index found)
      cases recorded : operator.world.dir.pidFile with
      | none => exact steady.callerClears starting found (by rw [phase]; rfl) stopped careful
      | some owner =>
          have dead : ∀ other, owner = .daemon other →
              operator.world.daemonPhase other = some .exited := by
            rintro other rfl
            obtain ⟨standing, standing_found, owning | rfl⟩ := steady.pidKept other recorded
            · simp [(stopped.phase standing_found).2] at owning
            · exact standing_found
          exact @Steady.callerMoves operator steady _ process starting found operator.world.dir _
            (steady.exclusive.callerLeaves found rfl)
            ⟨ProfileWorld.not_conflicting_of_not_returned (by simp), by simp, by simp⟩ (by simp)
            (.inl rfl) (fun named probing => CallerPhase.probing.inj probing ▸ ⟨stopped, dead⟩)
            (by simp [CallerPhase.unserved]) (by simp [CallerPhase.emptied])
            (by simp [CallerPhase.emptied])
  | probe caller owner reused =>
      obtain rfl := Option.some.inj own
      obtain ⟨rfl, removed⟩ : reused = false ∧ SockRemoved operator.world := careful
      obtain ⟨process, found, phase, rfl⟩ := ProfileWorld.atCaller_eq_some.mp stepped
      obtain ⟨stopped, dead⟩ := steady.probed _ owner starting (phase ▸ at_index found)
      have absent : operator.world.isDaemonAlive false owner = false := by
        cases owner with
        | stale => rfl
        | daemon other =>
            obtain ⟨daemon, at_other, exited⟩ := Option.map_eq_some_iff.mp (dead other rfl)
            simp [ProfileWorld.isDaemonAlive, at_other, exited]
      simp only [absent, Bool.false_eq_true, if_false]
      exact steady.callerClears starting found (by rw [phase]; rfl) stopped removed
  | clear caller file =>
      obtain rfl := Option.some.inj own
      obtain ⟨process, found, phase, rfl⟩ := ProfileWorld.atCaller_eq_some.mp stepped
      exact steady.callerRemoves starting found phase
  | spawn caller config =>
      obtain rfl := Option.some.inj own
      exact steady.spawns starting (configured rfl).symm stepped
  | abandon caller message =>
      obtain rfl := Option.some.inj own
      obtain ⟨process, found, -, rfl⟩ := ProfileWorld.abandon_eq_some stepped
      obtain ⟨other_mounts, other_disks, emptied⟩ := careful
      refine steady.callerReturns starting found (emptied process found) ?_
      rintro (conflict | conflict)
      · cases conflict
        exact other_mounts rfl
      · cases conflict
        exact other_disks rfl
  | poll caller =>
      obtain rfl := Option.some.inj own
      obtain ⟨process, found, phase, rfl⟩ := ProfileWorld.atCaller_eq_some.mp stepped
      split
      · refine steady.callerReturns starting found (by rw [phase]; rfl) ?_
        rintro (conflict | conflict) <;> cases conflict
      · exact steady
  | timeOut caller =>
      obtain rfl := Option.some.inj own
      obtain ⟨process, found, phase, rfl⟩ := ProfileWorld.atCaller_eq_some.mp stepped
      refine steady.callerReturns starting found (by rw [phase]; rfl) ?_
      rintro (conflict | conflict) <;> exact absurd conflict (by decide)
  | verifyMounts caller =>
      obtain rfl := Option.some.inj own
      obtain ⟨process, found, phase, rfl⟩ := ProfileWorld.atCaller_eq_some.mp stepped
      exact absurd phase (steady.peaceful _ _ (at_index found)).2.1
  | verifyDisks caller =>
      obtain rfl := Option.some.inj own
      obtain ⟨process, found, phase, rfl⟩ := ProfileWorld.atCaller_eq_some.mp stepped
      exact absurd phase (steady.peaceful _ _ (at_index found)).2.2
  | _ => cases own

theorem startsAlone_of_isDaemon {world : ProfileWorld} {action : StartupAction}
    (isDaemon : action.isDaemon = true) : world.StartsAlone action := by
  cases action with
  | readPid | probe => cases isDaemon
  | _ => exact (absurd · Bool.false_ne_true)

theorem Steady.step {operator after : Operator} {action : OperatorAction}
    (steady : Steady operator) (careful : operator.Careful action)
    (stepped : operator.step action = some after) : Steady after := by
  cases action with
  | start config =>
      simp only [Operator.step] at stepped
      split at stepped
      · rename_i idle
        obtain rfl := Option.some.inj stepped
        exact steady.begins config (ne_starting_of_eq idle (by simp)) careful
      · cases stepped
  | stop =>
      simp only [Operator.step] at stepped
      split at stepped
      · rename_i idle
        obtain rfl := Option.some.inj stepped
        exact steady.turns (ne_starting_of_eq idle (by simp)) (by simp) (by simp) (by simp)
      · cases stepped
  | readPid =>
      cases phase : operator.phase with
      | stopping sent =>
          have nobody : NobodyStarting operator.world := by
            cases sent with
            | false => exact careful phase
            | true => exact steady.stopping phase
          exact steady.reads phase nobody stepped
      | _ => simp [Operator.step, phase] at stepped
  | probe reused =>
      obtain rfl : reused = false := careful
      cases phase : operator.phase with
      | probing sent owner => exact steady.probes phase stepped
      | _ => simp [Operator.step, phase] at stepped
  | giveUp =>
      simp only [Operator.step] at stepped
      split at stepped
      · rename_i stopping
        obtain rfl := Option.some.inj stepped
        exact steady.turns (ne_starting_of_eq stopping (by simp)) (by simp) (by simp) (by simp)
      · cases stepped
  | own action =>
      simp only [Operator.step] at stepped
      split at stepped
      · rename_i caller index starting own
        split at stepped
        · rename_i guard
          obtain ⟨rfl, configured⟩ := guard
          obtain ⟨world, world_stepped, returned⟩ := Option.bind_eq_some_iff.mp stepped
          obtain rfl := Option.some.inj returned
          exact steady.own starting own configured careful world_stepped
        · cases stepped
      · cases stepped
  | daemon action =>
      simp only [Operator.step] at stepped
      split at stepped
      · rename_i isDaemon
        obtain ⟨world, world_stepped, returned⟩ := Option.bind_eq_some_iff.mp stepped
        obtain rfl := Option.some.inj returned
        obtain ⟨index, old, new, move⟩ := daemonMove_of_step isDaemon world_stepped
        exact steady.daemonMoves move (ProfileWorld.exclusive_step steady.exclusive
          (startsAlone_of_isDaemon isDaemon) world_stepped)
      · cases stepped
  | finish =>
      simp only [Operator.step] at stepped
      split at stepped
      · rename_i caller starting
        split at stepped
        · rename_i result returned
          obtain rfl := Option.some.inj stepped
          exact steady.finishes starting returned
        · cases stepped
      · cases stepped

end Operator

end Pelagos.Daemon
