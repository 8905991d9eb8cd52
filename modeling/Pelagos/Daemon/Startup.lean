import Pelagos.Daemon.Ports
import Pelagos.Library.Execution

/-!
# Starting the daemon of a profile

Any number of CLI processes call `ensure_running` for one profile while the daemons they spawn come
up, serve and shut down.  All of them use the files of the profile's state directory without a lock,
one file at a time: each look at a file, each probe of a pid, each removal, each bind and each
rename of a new file into place is a step.
-/

namespace Pelagos.Daemon

open Execution

/-- Who left a socket or a pid in the state directory. -/
inductive FileOwner where
  /-- A daemon of an earlier time. -/
  | stale
  /-- The daemon process with this number. -/
  | daemon (index : Nat)
  deriving DecidableEq

/-- The files of a profile's state directory. -/
structure StateDir where
  pidFile : Option FileOwner
  sockFile : Option FileOwner
  consoleSockFile : Option FileOwner
  mountsFile : Option (List VirtiofsShare)
  /-- Nothing writes this file any more. -/
  portsFile : Option (List PortForward)
  extraDisksFile : Option (List String)
  deriving DecidableEq

/-- The files that `StateDir::clear` removes. -/
inductive StateFile where
  | pid
  | sock
  | consoleSock
  | mounts
  | ports
  | extraDisks
  deriving DecidableEq

/-- The file that `StateDir::clear` removes next; it begins with the pid file. -/
def StateFile.next? : StateFile → Option StateFile
  | .pid => some .sock
  | .sock => some .consoleSock
  | .consoleSock => some .mounts
  | .mounts => some .ports
  | .ports => some .extraDisks
  | .extraDisks => none

/-- One `remove_file` of `StateDir::clear`. -/
def StateDir.remove (dir : StateDir) : StateFile → StateDir
  | .pid => { dir with pidFile := none }
  | .sock => { dir with sockFile := none }
  | .consoleSock => { dir with consoleSockFile := none }
  | .mounts => { dir with mountsFile := none }
  | .ports => { dir with portsFile := none }
  | .extraDisks => { dir with extraDisksFile := none }

/-- The configuration that a caller compares and a daemon records. -/
structure MountConfig where
  mounts : List VirtiofsShare
  extraDisks : List String
  deriving DecidableEq

/-- What `ensure_running` returns. -/
inductive EnsureResult where
  | ok
  | err (message : String)
  deriving DecidableEq

/-- The error of a caller whose shares are not those on record. -/
def differentMounts : String :=
  "daemon is running with different mount configuration; " ++
    "run 'pelagos vm stop' first, then retry"

/-- The error of a caller whose extra disks are not those on record. -/
def differentDisks : String :=
  "daemon is running with different extra-disk configuration; " ++
    "run 'pelagos vm stop' first, then retry"

/-- Where a caller is in `ensure_running`. -/
inductive CallerPhase where
  | entered
  /-- The pid file named this owner. -/
  | probing (owner : FileOwner)
  /-- This file and those behind it are still to be removed. -/
  | clearing (file : StateFile)
  | spawning
  | waiting
  | verifyingMounts
  | verifyingDisks
  | returned (result : EnsureResult)
  deriving DecidableEq

def CallerPhase.isReturned : CallerPhase → Bool
  | .returned _ => true
  | _ => false

/-- Where a daemon process is in `run`. -/
inductive DaemonPhase where
  | spawned
  /-- The pid file named this owner. -/
  | probing (owner : FileOwner)
  /-- This file and those behind it are still to be removed. -/
  | clearing (file : StateFile)
  | booting
  | bindingSock
  | bindingConsole
  | writingPid
  | writingMounts
  | writingDisks
  | accepting
  /-- The VM is stopped, and then this file and those behind it are removed. -/
  | shuttingDown (file : StateFile)
  | leaving
  | exited
  deriving DecidableEq

/-- One call of `ensure_running`. -/
structure Caller where
  config : MountConfig
  phase : CallerPhase
  deriving DecidableEq

/-- One `vm-daemon-internal` process. -/
structure DaemonProcess where
  config : MountConfig
  phase : DaemonPhase
  deriving DecidableEq

/-- The state directory of a profile and everybody who uses it. -/
structure ProfileWorld where
  dir : StateDir
  callers : List Caller
  daemons : List DaemonProcess
  deriving DecidableEq

/-- Steps of the callers and of the daemons.  The flag of a probe says whether the pid that was
read, if no daemon of ours has it, belongs to some other process by now. -/
inductive StartupAction where
  | enter (config : MountConfig)
  | readPid (caller : Nat)
  | probe (caller : Nat) (owner : FileOwner) (reused : Bool)
  | clear (caller : Nat) (file : StateFile)
  | spawn (caller : Nat) (config : MountConfig)
  /-- The caller fails, or it is killed. -/
  | abandon (caller : Nat) (message : String)
  | poll (caller : Nat)
  | timeOut (caller : Nat)
  | verifyMounts (caller : Nat)
  | verifyDisks (caller : Nat)
  | daemonReadPid (daemon : Nat)
  | daemonProbe (daemon : Nat) (owner : FileOwner) (reused : Bool)
  | daemonClear (daemon : Nat) (file : StateFile)
  | boot (daemon : Nat)
  | bindSock (daemon : Nat)
  | bindConsole (daemon : Nat)
  | writePid (daemon : Nat)
  | writeMounts (daemon : Nat)
  | writeExtraDisks (daemon : Nat)
  | stopVm (daemon : Nat)
  | shutdownClear (daemon : Nat) (file : StateFile)
  | exit (daemon : Nat)
  | die (daemon : Nat)
  deriving DecidableEq

namespace ProfileWorld

/-- The state directory as an earlier daemon left it, and nobody running. -/
def init (dir : StateDir) : ProfileWorld := { dir, callers := [], daemons := [] }

/-- `StateDir::is_daemon_alive`, once the pid of this owner has been read. -/
def isDaemonAlive (world : ProfileWorld) (reused : Bool) : FileOwner → Bool
  | .stale => reused
  | .daemon index =>
      match world.daemons[index]? with
      | none => reused
      | some daemon => if daemon.phase = .exited then reused else true

def setCaller (world : ProfileWorld) (index : Nat) (phase : CallerPhase) : ProfileWorld :=
  { world with callers := world.callers.modify index fun caller => { caller with phase } }

def setDaemon (world : ProfileWorld) (index : Nat) (phase : DaemonPhase) : ProfileWorld :=
  { world with daemons := world.daemons.modify index fun daemon => { daemon with phase } }

def setDir (world : ProfileWorld) (dir : StateDir) : ProfileWorld := { world with dir }

/-- A step of the caller `index`, enabled in one phase. -/
def atCaller (world : ProfileWorld) (index : Nat) (phase : CallerPhase)
    (next : Caller → ProfileWorld) : Option ProfileWorld :=
  match world.callers[index]? with
  | none => none
  | some caller => if caller.phase = phase then some (next caller) else none

/-- A step of the daemon `index`, enabled in one phase. -/
def atDaemon (world : ProfileWorld) (index : Nat) (phase : DaemonPhase)
    (next : DaemonProcess → ProfileWorld) : Option ProfileWorld :=
  match world.daemons[index]? with
  | none => none
  | some daemon => if daemon.phase = phase then some (next daemon) else none

/-- One step of a caller or a daemon. -/
def step (world : ProfileWorld) : StartupAction → Option ProfileWorld
  | .enter config =>
      some { world with callers := world.callers ++ [{ config, phase := .entered }] }
  | .readPid index =>
      world.atCaller index .entered fun _ =>
        world.setCaller index (world.dir.pidFile.elim (.clearing .pid) .probing)
  | .probe index owner reused =>
      world.atCaller index (.probing owner) fun _ =>
        world.setCaller index
          (if world.isDaemonAlive reused owner then .verifyingMounts else .clearing .pid)
  | .verifyMounts index =>
      world.atCaller index .verifyingMounts fun caller =>
        world.setCaller index
          (if world.dir.mountsFile.getD [] ≠ caller.config.mounts then
            .returned (.err differentMounts)
          else .verifyingDisks)
  | .verifyDisks index =>
      world.atCaller index .verifyingDisks fun caller =>
        world.setCaller index
          (if world.dir.extraDisksFile.getD [] ≠ caller.config.extraDisks then
            .returned (.err differentDisks)
          else .returned .ok)
  | .clear index file =>
      world.atCaller index (.clearing file) fun _ =>
        (world.setDir (world.dir.remove file)).setCaller index
          (file.next?.elim .spawning .clearing)
  | .abandon index message =>
      match world.callers[index]? with
      | none => none
      | some caller =>
          if caller.phase.isReturned then none
          else some (world.setCaller index (.returned (.err message)))
  | .spawn index config =>
      world.atCaller index .spawning fun _ =>
        { world.setCaller index .waiting with
          daemons := world.daemons ++ [{ config, phase := .spawned }] }
  | .poll index =>
      world.atCaller index .waiting fun _ =>
        if world.dir.sockFile.isSome then world.setCaller index (.returned .ok) else world
  | .timeOut index =>
      world.atCaller index .waiting fun _ =>
        world.setCaller index (.returned (.err "daemon did not start within 60s"))
  | .daemonReadPid index =>
      world.atDaemon index .spawned fun _ =>
        world.setDaemon index (world.dir.pidFile.elim (.clearing .pid) .probing)
  | .daemonProbe index owner reused =>
      world.atDaemon index (.probing owner) fun _ =>
        world.setDaemon index
          (if world.isDaemonAlive reused owner then .exited else .clearing .pid)
  | .daemonClear index file =>
      world.atDaemon index (.clearing file) fun _ =>
        (world.setDir (world.dir.remove file)).setDaemon index
          (file.next?.elim .booting .clearing)
  | .boot index =>
      world.atDaemon index .booting fun _ => world.setDaemon index .bindingSock
  | .bindSock index =>
      world.atDaemon index .bindingSock fun _ =>
        if world.dir.sockFile.isSome then world.setDaemon index .exited
        else
          (world.setDir { world.dir with sockFile := some (.daemon index) }).setDaemon index
            .bindingConsole
  | .bindConsole index =>
      world.atDaemon index .bindingConsole fun _ =>
        if world.dir.consoleSockFile.isSome then world.setDaemon index .exited
        else
          (world.setDir { world.dir with consoleSockFile := some (.daemon index) }).setDaemon index
            .writingPid
  | .writePid index =>
      world.atDaemon index .writingPid fun _ =>
        (world.setDir { world.dir with pidFile := some (.daemon index) }).setDaemon index
          .writingMounts
  | .writeMounts index =>
      world.atDaemon index .writingMounts fun daemon =>
        (world.setDir { world.dir with mountsFile := some daemon.config.mounts }).setDaemon index
          .writingDisks
  | .writeExtraDisks index =>
      world.atDaemon index .writingDisks fun daemon =>
        (world.setDir
          { world.dir with extraDisksFile := some daemon.config.extraDisks }).setDaemon index
          .accepting
  | .stopVm index =>
      world.atDaemon index .accepting fun _ => world.setDaemon index (.shuttingDown .pid)
  | .shutdownClear index file =>
      world.atDaemon index (.shuttingDown file) fun _ =>
        (world.setDir (world.dir.remove file)).setDaemon index
          (file.next?.elim .leaving .shuttingDown)
  | .exit index => world.atDaemon index .leaving fun _ => world.setDaemon index .exited
  | .die index =>
      match world.daemons[index]? with
      | none => none
      | some daemon => if daemon.phase = .exited then none else some (world.setDaemon index .exited)

/-- The phase of a caller. -/
def callerPhase (world : ProfileWorld) (index : Nat) : Option CallerPhase :=
  world.callers[index]?.map Caller.phase

/-- The phase of a daemon. -/
def daemonPhase (world : ProfileWorld) (index : Nat) : Option DaemonPhase :=
  world.daemons[index]?.map DaemonProcess.phase

end ProfileWorld

/-- The caller has found no daemon and has not spawned one yet. -/
def CallerPhase.starting : CallerPhase → Bool
  | .clearing _ | .spawning => true
  | _ => false

/-- The daemon has not recorded its pid yet. -/
def DaemonPhase.starting : DaemonPhase → Bool
  | .spawned | .probing _ | .clearing _ | .booting | .bindingSock | .bindingConsole | .writingPid =>
      true
  | _ => false

/-- The daemon has recorded its pid and not removed it. -/
def DaemonPhase.owning : DaemonPhase → Bool
  | .writingMounts | .writingDisks | .accepting | .shuttingDown .pid => true
  | _ => false

/-- The daemon has bound `vm.sock` and not removed it. -/
def DaemonPhase.bound : DaemonPhase → Bool
  | .bindingConsole | .writingPid | .writingMounts | .writingDisks | .accepting
  | .shuttingDown .pid | .shuttingDown .sock => true
  | _ => false

namespace ProfileWorld

/-- At most one daemon is in its accept loop, and `vm.sock` is the socket of every daemon that has
bound it and not removed it on its shutdown. -/
structure Safe (world : ProfileWorld) : Prop where
  one_accepting : ∀ first second, world.daemonPhase first = some .accepting →
    world.daemonPhase second = some .accepting → second = first
  sock_kept : ∀ index phase, world.daemonPhase index = some phase → phase.bound = true →
    world.dir.sockFile = some (.daemon index)

/-- No caller is about to spawn a daemon, and every daemon is dead or has removed its socket. -/
def NobodyActive (world : ProfileWorld) : Prop :=
  (∀ caller ∈ world.callers, caller.phase.starting = false) ∧
    ∀ daemon ∈ world.daemons, daemon.phase.starting = false ∧ daemon.phase.bound = false

instance (world : ProfileWorld) : Decidable world.NobodyActive :=
  inferInstanceAs (Decidable (_ ∧ _))

/-- With this action the alive-check of a caller ends, and it has found no daemon. -/
def findsNoDaemon (world : ProfileWorld) : StartupAction → Bool
  | .readPid _ => world.dir.pidFile.isNone
  | .probe _ owner reused => !world.isDaemonAlive reused owner
  | _ => false

/-- A caller finds no daemon only when there is none and nobody else is about to spawn one. -/
def StartsAlone (world : ProfileWorld) (action : StartupAction) : Prop :=
  world.findsNoDaemon action = true → world.NobodyActive

instance (world : ProfileWorld) (action : StartupAction) : Decidable (world.StartsAlone action) :=
  inferInstanceAs (Decidable (_ → _))

/-! ## One party at a time -/

/-- A caller or a daemon. -/
inductive Party where
  | caller (index : Nat)
  | daemon (index : Nat)
  deriving DecidableEq

/-- The party is starting a daemon or is the daemon behind the socket. -/
def Holds (world : ProfileWorld) : Party → Prop
  | .caller index => ∃ phase, world.callerPhase index = some phase ∧ phase.starting = true
  | .daemon index => ∃ phase, world.daemonPhase index = some phase ∧
      (phase.starting = true ∨ phase.bound = true)

/-- One party at most holds the state directory, and its pid and its socket are on file once it has
got that far. -/
structure Exclusive (world : ProfileWorld) : Prop where
  one : ∀ first second, world.Holds first → world.Holds second → second = first
  pid : ∀ index phase, world.daemonPhase index = some phase → phase.owning = true →
    world.dir.pidFile = some (.daemon index)
  sock : ∀ index phase, world.daemonPhase index = some phase → phase.bound = true →
    world.dir.sockFile = some (.daemon index)

theorem bound_of_owning {phase : DaemonPhase} (owning : phase.owning = true) :
    phase.bound = true := by
  unfold DaemonPhase.owning at owning
  split at owning <;> first | rfl | cases owning

theorem not_owning_of_not_bound {phase : DaemonPhase} (released : phase.bound = false) :
    phase.owning = false := by
  cases owning : phase.owning with
  | false => rfl
  | true => rw [bound_of_owning owning] at released; cases released

theorem holds_of_bound {world : ProfileWorld} {index : Nat} {phase : DaemonPhase}
    (found : world.daemonPhase index = some phase) (bound : phase.bound = true) :
    world.Holds (.daemon index) := ⟨phase, found, .inr bound⟩

theorem Exclusive.safe {world : ProfileWorld} (exclusive : world.Exclusive) : world.Safe where
  one_accepting := by
    intro first second first_accepting second_accepting
    have first_holds := holds_of_bound first_accepting rfl
    have second_holds := holds_of_bound second_accepting rfl
    simpa using exclusive.one _ _ first_holds second_holds
  sock_kept := exclusive.sock

theorem exclusive_init (dir : StateDir) : (init dir).Exclusive where
  one := by
    intro first second holds
    cases first <;> simp [Holds, init, callerPhase, daemonPhase] at holds
  pid := by simp [init, daemonPhase]
  sock := by simp [init, daemonPhase]

/-- A daemon moves: it does not start to hold, the files say what its new phase needs, and it
touches the files of others only as the holder. -/
theorem Exclusive.daemonMoves {world after : ProfileWorld} (exclusive : world.Exclusive)
    {index : Nat} {old new : DaemonPhase} (found : world.daemonPhase index = some old)
    (callers_eq : ∀ other, after.callerPhase other = world.callerPhase other)
    (daemons_eq : ∀ other, after.daemonPhase other =
      if other = index then some new else world.daemonPhase other)
    (holding : new.starting = true ∨ new.bound = true → old.starting = true ∨ old.bound = true)
    (pid_eq : new.owning = true → after.dir.pidFile = some (.daemon index))
    (sock_eq : new.bound = true → after.dir.sockFile = some (.daemon index))
    (files : after.dir.pidFile = world.dir.pidFile ∧ after.dir.sockFile = world.dir.sockFile ∨
      (old.starting = true ∨ old.bound = true)) : after.Exclusive := by
  have held : ∀ party, after.Holds party → world.Holds party := by
    rintro (other | other) ⟨phase, at_other, active⟩
    · exact ⟨phase, callers_eq other ▸ at_other, active⟩
    · rw [daemons_eq] at at_other
      split at at_other
      · rename_i same
        subst same
        obtain rfl := Option.some.inj at_other
        exact ⟨old, found, holding active⟩
      · exact ⟨phase, at_other, active⟩
  have alone : ∀ other, other ≠ index → world.Holds (.daemon other) →
      after.dir.pidFile = world.dir.pidFile ∧ after.dir.sockFile = world.dir.sockFile := by
    intro other different other_holds
    refine files.resolve_right fun holder => different ?_
    simpa using exclusive.one (.daemon index) _ ⟨old, found, holder⟩ other_holds
  refine ⟨?_, ?_, ?_⟩
  · intro first second first_holds second_holds
    exact exclusive.one first second (held first first_holds) (held second second_holds)
  · intro other phase at_other owning
    rw [daemons_eq] at at_other
    split at at_other
    · rename_i same
      subst same
      obtain rfl := Option.some.inj at_other
      exact pid_eq owning
    · rename_i different
      rw [(alone other different (holds_of_bound at_other (bound_of_owning owning))).1]
      exact exclusive.pid other phase at_other owning
  · intro other phase at_other bound
    rw [daemons_eq] at at_other
    split at at_other
    · rename_i same
      subst same
      obtain rfl := Option.some.inj at_other
      exact sock_eq bound
    · rename_i different
      rw [(alone other different (holds_of_bound at_other bound)).2]
      exact exclusive.sock other phase at_other bound

/-- A caller moves: when it starts to hold nobody else does, and it touches files only as the
holder. -/
theorem Exclusive.callerMoves {world after : ProfileWorld} (exclusive : world.Exclusive)
    {index : Nat} {old new : CallerPhase} (found : world.callerPhase index = some old)
    (callers_eq : ∀ other, after.callerPhase other =
      if other = index then some new else world.callerPhase other)
    (daemons_eq : ∀ other, after.daemonPhase other = world.daemonPhase other)
    (holding : new.starting = true →
      old.starting = true ∨ ∀ party, ¬ world.Holds party)
    (files : after.dir.pidFile = world.dir.pidFile ∧ after.dir.sockFile = world.dir.sockFile ∨
      old.starting = true) : after.Exclusive := by
  have held : ∀ party, after.Holds party →
      world.Holds party ∨ party = .caller index ∧ ∀ other, ¬ world.Holds other := by
    rintro (other | other) ⟨phase, at_other, active⟩
    · rw [callers_eq] at at_other
      split at at_other
      · rename_i same
        subst same
        obtain rfl := Option.some.inj at_other
        exact (holding active).imp (fun was => ⟨old, found, was⟩) fun nobody => ⟨rfl, nobody⟩
      · exact .inl ⟨phase, at_other, active⟩
    · exact .inl ⟨phase, daemons_eq other ▸ at_other, active⟩
  have alone : ∀ other, world.Holds (.daemon other) →
      after.dir.pidFile = world.dir.pidFile ∧ after.dir.sockFile = world.dir.sockFile := by
    intro other other_holds
    refine files.resolve_right fun holder => ?_
    simpa using exclusive.one (.caller index) _ ⟨old, found, holder⟩ other_holds
  refine ⟨?_, ?_, ?_⟩
  · intro first second first_holds second_holds
    rcases held first first_holds with first_held | ⟨rfl, nobody⟩
    · rcases held second second_holds with second_held | ⟨rfl, nobody⟩
      · exact exclusive.one first second first_held second_held
      · exact absurd first_held (nobody first)
    · rcases held second second_holds with second_held | ⟨rfl, -⟩
      · exact absurd second_held (nobody second)
      · rfl
  · intro other phase at_other owning
    rw [daemons_eq] at at_other
    rw [(alone other (holds_of_bound at_other (bound_of_owning owning))).1]
    exact exclusive.pid other phase at_other owning
  · intro other phase at_other bound
    rw [daemons_eq] at at_other
    rw [(alone other (holds_of_bound at_other bound)).2]
    exact exclusive.sock other phase at_other bound

/-- Spawning hands the state directory from the caller to its new daemon. -/
theorem Exclusive.spawns {world after : ProfileWorld} (exclusive : world.Exclusive) {index : Nat}
    {old : CallerPhase} (found : world.callerPhase index = some old)
    (holder : old.starting = true)
    (callers_eq : ∀ other, after.callerPhase other =
      if other = index then some .waiting else world.callerPhase other)
    (daemons_eq : ∀ other, after.daemonPhase other =
      if other = world.daemons.length then some .spawned else world.daemonPhase other) :
    after.Exclusive := by
  have nobody : ∀ party, world.Holds party → party = .caller index :=
    fun party holds => exclusive.one _ _ ⟨old, found, holder⟩ holds
  have only_new : ∀ party, after.Holds party → party = .daemon world.daemons.length := by
    rintro (other | other) ⟨phase, at_other, active⟩
    · rw [callers_eq] at at_other
      split at at_other
      · obtain rfl := Option.some.inj at_other
        simp [CallerPhase.starting] at active
      · rename_i different
        have same := nobody (.caller other) ⟨phase, at_other, active⟩
        simp [different] at same
    · rw [daemons_eq] at at_other
      split at at_other
      · rename_i same
        rw [same]
      · have impossible := nobody (.daemon other) ⟨phase, at_other, active⟩
        simp at impossible
  have idle : ∀ other phase, after.daemonPhase other = some phase → phase.bound = true → False := by
    intro other phase at_other bound
    have same := only_new _ (holds_of_bound at_other bound)
    rw [daemons_eq, if_pos (by simpa using same)] at at_other
    obtain rfl := Option.some.inj at_other
    simp [DaemonPhase.bound] at bound
  refine ⟨?_, ?_, ?_⟩
  · intro first second first_holds second_holds
    rw [only_new first first_holds, only_new second second_holds]
  · intro other phase at_other owning
    exact (idle other phase at_other (bound_of_owning owning)).elim
  · intro other phase at_other bound
    exact (idle other phase at_other bound).elim

/-! ## The steps -/

theorem atCaller_eq_some {world after : ProfileWorld} {index : Nat} {phase : CallerPhase}
    {next : Caller → ProfileWorld} :
    world.atCaller index phase next = some after ↔
      ∃ caller, world.callers[index]? = some caller ∧ caller.phase = phase ∧
        next caller = after := by
  unfold atCaller
  cases world.callers[index]? with
  | none => simp
  | some caller => by_cases enabled : caller.phase = phase <;> simp [enabled]

theorem atDaemon_eq_some {world after : ProfileWorld} {index : Nat} {phase : DaemonPhase}
    {next : DaemonProcess → ProfileWorld} :
    world.atDaemon index phase next = some after ↔
      ∃ daemon, world.daemons[index]? = some daemon ∧ daemon.phase = phase ∧
        next daemon = after := by
  unfold atDaemon
  cases world.daemons[index]? with
  | none => simp
  | some daemon => by_cases enabled : daemon.phase = phase <;> simp [enabled]

theorem abandon_eq_some {world after : ProfileWorld} {index : Nat} {message : String}
    (stepped : world.step (.abandon index message) = some after) :
    ∃ caller, world.callers[index]? = some caller ∧ caller.phase.isReturned = false ∧
      world.setCaller index (.returned (.err message)) = after := by
  simp only [step] at stepped
  split at stepped
  · cases stepped
  · rename_i caller found
    split at stepped
    · cases stepped
    · rename_i going
      exact ⟨caller, found, by simpa using going, Option.some.inj stepped⟩

theorem callerPhase_setCaller {world : ProfileWorld} {index : Nat} {caller : Caller}
    (found : world.callers[index]? = some caller) (phase : CallerPhase) (other : Nat) :
    (world.setCaller index phase).callerPhase other =
      if other = index then some phase else world.callerPhase other := by
  simp only [callerPhase, setCaller, List.getElem?_modify]
  by_cases same : other = index
  · subst same
    simp [found]
  · simp [same, Ne.symm same]

theorem daemonPhase_setDaemon {world : ProfileWorld} {index : Nat} {daemon : DaemonProcess}
    (found : world.daemons[index]? = some daemon) (phase : DaemonPhase) (other : Nat) :
    (world.setDaemon index phase).daemonPhase other =
      if other = index then some phase else world.daemonPhase other := by
  simp only [daemonPhase, setDaemon, List.getElem?_modify]
  by_cases same : other = index
  · subst same
    simp [found]
  · simp [same, Ne.symm same]

/-- Where nobody is active nobody holds the state directory. -/
theorem NobodyActive.not_holds {world : ProfileWorld} (nobody : world.NobodyActive) :
    ∀ party, ¬ world.Holds party := by
  rintro (index | index) ⟨phase, found, active⟩
  · obtain ⟨caller, at_index, rfl⟩ := Option.map_eq_some_iff.mp found
    simp [nobody.1 caller (List.mem_of_getElem? at_index)] at active
  · obtain ⟨daemon, at_index, rfl⟩ := Option.map_eq_some_iff.mp found
    simp [nobody.2 daemon (List.mem_of_getElem? at_index)] at active

theorem not_bound_afterRemoving (file : StateFile) :
    (file.next?.elim DaemonPhase.booting DaemonPhase.clearing).bound = false := by
  cases file <;> rfl

section Moves

variable {world : ProfileWorld} (exclusive : world.Exclusive) {index : Nat}
include exclusive

theorem Exclusive.setCaller {caller : Caller} (found : world.callers[index]? = some caller)
    (dir : StateDir) {new : CallerPhase}
    (holding : new.starting = true →
      caller.phase.starting = true ∨ ∀ party, ¬ world.Holds party)
    (files : dir.pidFile = world.dir.pidFile ∧ dir.sockFile = world.dir.sockFile ∨
      caller.phase.starting = true) :
    ((world.setDir dir).setCaller index new).Exclusive :=
  exclusive.callerMoves (congrArg (Option.map Caller.phase) found)
    (fun other => callerPhase_setCaller found new other) (fun _ => rfl) holding files

theorem Exclusive.setDaemon {daemon : DaemonProcess}
    (found : world.daemons[index]? = some daemon) (dir : StateDir) {new : DaemonPhase}
    (holding : new.starting = true ∨ new.bound = true →
      daemon.phase.starting = true ∨ daemon.phase.bound = true)
    (pid_eq : new.owning = true → dir.pidFile = some (.daemon index))
    (sock_eq : new.bound = true → dir.sockFile = some (.daemon index))
    (files : dir.pidFile = world.dir.pidFile ∧ dir.sockFile = world.dir.sockFile ∨
      (daemon.phase.starting = true ∨ daemon.phase.bound = true)) :
    ((world.setDir dir).setDaemon index new).Exclusive :=
  exclusive.daemonMoves (congrArg (Option.map DaemonProcess.phase) found) (fun _ => rfl)
    (fun other => daemonPhase_setDaemon found new other) holding pid_eq sock_eq files

/-- A caller that is not starting a daemon afterwards leaves the files alone. -/
theorem Exclusive.callerLeaves {caller : Caller} (found : world.callers[index]? = some caller)
    {new : CallerPhase} (released : new.starting = false) :
    (world.setCaller index new).Exclusive :=
  exclusive.setCaller found world.dir (by simp [released]) (.inl ⟨rfl, rfl⟩)

/-- A daemon that is not active afterwards leaves the two files alone. -/
theorem Exclusive.daemonLeaves {daemon : DaemonProcess}
    (found : world.daemons[index]? = some daemon) (dir : StateDir)
    (pid_eq : dir.pidFile = world.dir.pidFile) (sock_eq : dir.sockFile = world.dir.sockFile)
    {new : DaemonPhase} (idle : new.starting = false) (released : new.bound = false) :
    ((world.setDir dir).setDaemon index new).Exclusive :=
  exclusive.setDaemon found dir (by simp [idle, released])
    (by simp [not_owning_of_not_bound released]) (by simp [released]) (.inl ⟨pid_eq, sock_eq⟩)

/-- A daemon on the way to its recorded pid goes on. -/
theorem Exclusive.daemonStarts {daemon : DaemonProcess}
    (found : world.daemons[index]? = some daemon) (holder : daemon.phase.starting = true)
    (dir : StateDir) {new : DaemonPhase} (released : new.bound = false) :
    ((world.setDir dir).setDaemon index new).Exclusive :=
  exclusive.setDaemon found dir (fun _ => .inl holder)
    (by simp [not_owning_of_not_bound released]) (by simp [released]) (.inr (.inl holder))

/-- A daemon on record goes on; it may write its configuration. -/
theorem Exclusive.daemonOwns {daemon : DaemonProcess}
    (found : world.daemons[index]? = some daemon) (owning : daemon.phase.owning = true)
    (dir : StateDir) (pid_eq : dir.pidFile = world.dir.pidFile)
    (sock_eq : dir.sockFile = world.dir.sockFile) (new : DaemonPhase) :
    ((world.setDir dir).setDaemon index new).Exclusive := by
  have at_index : world.daemonPhase index = some daemon.phase :=
    congrArg (Option.map DaemonProcess.phase) found
  have bound := bound_of_owning owning
  refine exclusive.setDaemon found dir (fun _ => .inr bound) (fun _ => ?_) (fun _ => ?_)
    (.inl ⟨pid_eq, sock_eq⟩)
  · exact pid_eq.trans (exclusive.pid index _ at_index owning)
  · exact sock_eq.trans (exclusive.sock index _ at_index bound)

/-- A daemon removes the files one after the other when it shuts down. -/
theorem Exclusive.daemonClears {daemon : DaemonProcess}
    (found : world.daemons[index]? = some daemon) {file : StateFile}
    (phase : daemon.phase = .shuttingDown file) :
    ((world.setDir (world.dir.remove file)).setDaemon index
      (file.next?.elim .leaving .shuttingDown)).Exclusive := by
  have at_index : world.daemonPhase index = some (.shuttingDown file) := by
    rw [daemonPhase, found, Option.map_some, phase]
  cases file with
  | pid =>
      have holder : daemon.phase.bound = true := by rw [phase]; rfl
      exact exclusive.setDaemon found _ (fun _ => .inr holder) (by simp [StateFile.next?,
        DaemonPhase.owning]) (fun _ => exclusive.sock index _ at_index rfl) (.inr (.inr holder))
  | sock =>
      have holder : daemon.phase.bound = true := by rw [phase]; rfl
      exact exclusive.setDaemon found _ (fun _ => .inr holder) (by simp [StateFile.next?,
        DaemonPhase.owning]) (by simp [StateFile.next?, DaemonPhase.bound]) (.inr (.inr holder))
  -- what is behind the socket is none of the two files
  | consoleSock => refine exclusive.daemonLeaves found (world.dir.remove _) rfl rfl ?_ ?_ <;> rfl
  | mounts => refine exclusive.daemonLeaves found (world.dir.remove _) rfl rfl ?_ ?_ <;> rfl
  | ports => refine exclusive.daemonLeaves found (world.dir.remove _) rfl rfl ?_ ?_ <;> rfl
  | extraDisks => refine exclusive.daemonLeaves found (world.dir.remove _) rfl rfl ?_ ?_ <;> rfl

end Moves

theorem Exclusive.enter {world : ProfileWorld} (exclusive : world.Exclusive)
    (config : MountConfig) :
    Exclusive { world with callers := world.callers ++ [{ config, phase := .entered }] } := by
  have held : ∀ party, Holds
      { world with callers := world.callers ++ [{ config, phase := .entered }] } party →
      world.Holds party := by
    rintro (index | index) ⟨phase, found, active⟩
    · refine ⟨phase, ?_, active⟩
      simp only [callerPhase, List.getElem?_append] at found ⊢
      split at found
      · exact found
      · obtain ⟨caller, at_index, rfl⟩ := Option.map_eq_some_iff.mp found
        obtain rfl := List.mem_singleton.mp (List.mem_of_getElem? at_index)
        simp [CallerPhase.starting] at active
    · exact ⟨phase, found, active⟩
  exact ⟨fun first second first_holds second_holds =>
    exclusive.one first second (held first first_holds) (held second second_holds),
    exclusive.pid, exclusive.sock⟩

/-- Every step by which no second party starts keeps the state directory exclusive. -/
theorem exclusive_step {world after : ProfileWorld} {action : StartupAction}
    (exclusive : world.Exclusive) (alone : world.StartsAlone action)
    (stepped : world.step action = some after) : after.Exclusive := by
  cases action with
  | enter config =>
      obtain rfl := Option.some.inj stepped
      exact exclusive.enter config
  | readPid index =>
      obtain ⟨caller, found, phase, rfl⟩ := atCaller_eq_some.mp stepped
      cases recorded : world.dir.pidFile with
      | none =>
          have nobody : world.NobodyActive := alone (by simp [findsNoDaemon, recorded])
          exact exclusive.setCaller found world.dir (fun _ => .inr nobody.not_holds)
            (.inl ⟨rfl, rfl⟩)
      | some owner => exact exclusive.callerLeaves found rfl
  | probe index owner reused =>
      obtain ⟨caller, found, phase, rfl⟩ := atCaller_eq_some.mp stepped
      cases alive : world.isDaemonAlive reused owner with
      | true => exact exclusive.callerLeaves found rfl
      | false =>
          have nobody : world.NobodyActive := alone (by simp [findsNoDaemon, alive])
          exact exclusive.setCaller found world.dir (fun _ => .inr nobody.not_holds)
            (.inl ⟨rfl, rfl⟩)
  | clear index file =>
      obtain ⟨caller, found, phase, rfl⟩ := atCaller_eq_some.mp stepped
      have holder : caller.phase.starting = true := by rw [phase]; rfl
      exact exclusive.setCaller found (world.dir.remove file) (fun _ => .inl holder) (.inr holder)
  | spawn index config =>
      obtain ⟨caller, found, phase, rfl⟩ := atCaller_eq_some.mp stepped
      refine exclusive.spawns (congrArg (Option.map Caller.phase) found) (by rw [phase]; rfl)
        (fun other => callerPhase_setCaller found .waiting other) ?_
      intro other
      simp only [daemonPhase, List.getElem?_append]
      rcases Nat.lt_trichotomy other world.daemons.length with old | rfl | beyond
      · simp [old, old.ne]
      · simp
      · have past : other - world.daemons.length ≠ 0 := by omega
        simp [beyond.le, beyond.ne', past]
  | abandon index message =>
      obtain ⟨caller, found, -, rfl⟩ := abandon_eq_some stepped
      exact exclusive.callerLeaves found rfl
  | poll index =>
      obtain ⟨caller, found, phase, rfl⟩ := atCaller_eq_some.mp stepped
      split
      · exact exclusive.callerLeaves found rfl
      · exact exclusive
  | timeOut index =>
      obtain ⟨caller, found, phase, rfl⟩ := atCaller_eq_some.mp stepped
      exact exclusive.callerLeaves found rfl
  | verifyMounts index =>
      obtain ⟨caller, found, phase, rfl⟩ := atCaller_eq_some.mp stepped
      refine exclusive.callerLeaves found ?_
      split <;> rfl
  | verifyDisks index =>
      obtain ⟨caller, found, phase, rfl⟩ := atCaller_eq_some.mp stepped
      refine exclusive.callerLeaves found ?_
      split <;> rfl
  | daemonReadPid index =>
      obtain ⟨daemon, found, phase, rfl⟩ := atDaemon_eq_some.mp stepped
      refine exclusive.daemonStarts found (by rw [phase]; rfl) world.dir ?_
      cases world.dir.pidFile <;> rfl
  | daemonProbe index owner reused =>
      obtain ⟨daemon, found, phase, rfl⟩ := atDaemon_eq_some.mp stepped
      refine exclusive.daemonStarts found (by rw [phase]; rfl) world.dir ?_
      split <;> rfl
  | daemonClear index file =>
      obtain ⟨daemon, found, phase, rfl⟩ := atDaemon_eq_some.mp stepped
      exact exclusive.daemonStarts found (by rw [phase]; rfl) (world.dir.remove file)
        (not_bound_afterRemoving file)
  | boot index =>
      obtain ⟨daemon, found, phase, rfl⟩ := atDaemon_eq_some.mp stepped
      exact exclusive.daemonStarts found (by rw [phase]; rfl) world.dir rfl
  | bindSock index =>
      obtain ⟨daemon, found, phase, rfl⟩ := atDaemon_eq_some.mp stepped
      have holder : daemon.phase.starting = true := by rw [phase]; rfl
      split
      · exact exclusive.daemonLeaves found world.dir rfl rfl rfl rfl
      · exact exclusive.setDaemon found _ (fun _ => .inl holder) (by simp [DaemonPhase.owning])
          (fun _ => rfl) (.inr (.inl holder))
  | bindConsole index =>
      obtain ⟨daemon, found, phase, rfl⟩ := atDaemon_eq_some.mp stepped
      have holder : daemon.phase.starting = true := by rw [phase]; rfl
      have at_index : world.daemonPhase index = some .bindingConsole := by
        simp [daemonPhase, found, phase]
      split
      · exact exclusive.daemonLeaves found world.dir rfl rfl rfl rfl
      · exact exclusive.setDaemon found _ (fun _ => .inl holder) (by simp [DaemonPhase.owning])
          (fun _ => exclusive.sock index _ at_index rfl) (.inr (.inl holder))
  | writePid index =>
      obtain ⟨daemon, found, phase, rfl⟩ := atDaemon_eq_some.mp stepped
      have holder : daemon.phase.starting = true := by rw [phase]; rfl
      have at_index : world.daemonPhase index = some .writingPid := by
        simp [daemonPhase, found, phase]
      exact exclusive.setDaemon found _ (fun _ => .inl holder) (fun _ => rfl)
        (fun _ => exclusive.sock index _ at_index rfl) (.inr (.inl holder))
  | writeMounts index =>
      obtain ⟨daemon, found, phase, rfl⟩ := atDaemon_eq_some.mp stepped
      refine exclusive.daemonOwns found (by rw [phase]; rfl) _ ?_ ?_ .writingDisks <;> rfl
  | writeExtraDisks index =>
      obtain ⟨daemon, found, phase, rfl⟩ := atDaemon_eq_some.mp stepped
      refine exclusive.daemonOwns found (by rw [phase]; rfl) _ ?_ ?_ .accepting <;> rfl
  | stopVm index =>
      obtain ⟨daemon, found, phase, rfl⟩ := atDaemon_eq_some.mp stepped
      exact exclusive.daemonOwns found (by rw [phase]; rfl) world.dir rfl rfl (.shuttingDown .pid)
  | shutdownClear index file =>
      obtain ⟨daemon, found, phase, rfl⟩ := atDaemon_eq_some.mp stepped
      exact exclusive.daemonClears found phase
  | exit index =>
      obtain ⟨daemon, found, phase, rfl⟩ := atDaemon_eq_some.mp stepped
      exact exclusive.daemonLeaves found world.dir rfl rfl rfl rfl
  | die index =>
      simp only [step] at stepped
      split at stepped
      · simp at stepped
      · rename_i daemon found
        split at stepped
        · simp at stepped
        · obtain rfl := Option.some.inj stepped
          exact exclusive.daemonLeaves found world.dir rfl rfl rfl rfl

/-- In every run in which a caller finds no daemon only when there is none, or none that has not
removed its socket, and nobody else is about to spawn one: whatever the interleaving, at most one
daemon accepts and no live daemon loses its `vm.sock`. -/
theorem safe_of_starts_alone {dir : StateDir} {actions : List StartupAction}
    (alone : Guarded step StartsAlone actions (init dir)) :
    Always step Safe actions (init dir) :=
  (always_of_guarded exclusive_step (exclusive_init dir) alone).imp fun _ => Exclusive.safe

/-- A caller, or a daemon, empties the state directory. -/
def clearBy (remove : StateFile → StartupAction) : List StartupAction :=
  [.pid, .sock, .consoleSock, .mounts, .ports, .extraDisks].map remove

/-- A second caller that arrives when the daemon is on record finds it and starts nothing. -/
theorem safe_when_second_caller_waits :
    Always step Safe
      ([.enter ⟨[], []⟩, .readPid 0, .probe 0 .stale false] ++ clearBy (.clear 0) ++
        [.spawn 0 ⟨[], []⟩, .daemonReadPid 0] ++ clearBy (.daemonClear 0) ++
        [.boot 0, .bindSock 0, .bindConsole 0, .writePid 0, .writeMounts 0, .writeExtraDisks 0,
          .poll 0, .enter ⟨[], []⟩, .readPid 1, .probe 1 (.daemon 0) false, .verifyMounts 1,
          .verifyDisks 1])
      (init ⟨some .stale, some .stale, none, none, none, none⟩) :=
  safe_of_starts_alone (by decide)

/-- Two callers that both look before either daemon has recorded its pid end up with two daemons in
their accept loops. -/
theorem two_daemons_accepting :
    ¬ ∀ (dir : StateDir) (actions : List StartupAction), Always step Safe actions (init dir) := by
  intro always
  have safe := always ⟨none, none, none, none, none, none⟩
    ([.enter ⟨[], []⟩, .enter ⟨[], []⟩, .readPid 0] ++ clearBy (.clear 0) ++
      [.spawn 0 ⟨[], []⟩, .daemonReadPid 0] ++ clearBy (.daemonClear 0) ++
      [.boot 0, .bindSock 0, .bindConsole 0, .readPid 1] ++ clearBy (.clear 1) ++
      [.spawn 1 ⟨[], []⟩, .daemonReadPid 1] ++ clearBy (.daemonClear 1) ++
      [.boot 1, .bindSock 1, .bindConsole 1, .writePid 0, .writeMounts 0, .writeExtraDisks 0,
        .writePid 1, .writeMounts 1, .writeExtraDisks 1]) _ (List.prefix_refl _) _ rfl
  exact absurd (safe.one_accepting 0 1 rfl rfl) (by decide)

end ProfileWorld
end Pelagos.Daemon
