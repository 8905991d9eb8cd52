import Pelagos.Daemon.Ports
import Pelagos.Guest.Subscription

/-!
# Port release by the subscription watcher

The watcher releases the ports it has on record for a container when it reads that container's exit
event.  The event is older than the guest's present state, and the record is kept by name: in the
meantime the name or the port may belong to a container that runs.
-/

namespace Pelagos.Daemon

open Execution Guest

namespace WatchEvent

/-- A guest event as the watcher deserialises it. -/
def ofGuest : GuestEvent → WatchEvent
  | .snapshot containers _ =>
      .snapshot (containers.map fun container => ⟨container.name, container.ports⟩)
  | .containerStarted container => .containerStarted ⟨container.name, container.ports⟩
  | .containerExited name _ => .containerExited name
  | .heartbeat _ => .unknown

/-- The container records an event carries. -/
def containers : WatchEvent → List WatchContainer
  | .snapshot containers => containers
  | .containerStarted container => [container]
  | .containerExited _ | .unknown => []

/-- The container whose exit an event reports. -/
def exited? : WatchEvent → Option String
  | .containerExited name => some name
  | .snapshot _ | .containerStarted _ | .unknown => none

end WatchEvent

namespace PortDaemon

/-- Check the published ports one by one, not all port numbers. -/
instance decidableForallPublished (specs : List String) (property : UInt16 → Prop)
    [DecidablePred property] : Decidable (∀ hostPort ∈ publishedPorts specs, property hostPort) :=
  List.decidableBAll property (publishedPorts specs)

/-- An exit takes the ports on record for the name out of the active map. -/
theorem active_containerExited (daemon : PortDaemon) (name : String) (other : UInt16) :
    (daemon.handleWatchEvent (.containerExited name)).ports.active.lookup other =
      if other ∈ publishedPorts ((daemon.containerPorts.lookup name).getD []) then none
      else daemon.ports.active.lookup other := by
  cases recorded : daemon.containerPorts.lookup name with
  | none => simp [handleWatchEvent, recorded, publishedPorts]
  | some specs =>
      simp [handleWatchEvent, recorded, foldl_releasePort, HashMap.lookup_eraseAll]

@[simp]
theorem dropDisplaced_containerPorts (daemon : PortDaemon) (displaced : Option PortProxy) :
    (daemon.dropDisplaced displaced).containerPorts = daemon.containerPorts := by
  cases displaced <;> rfl

@[simp]
theorem addForward_containerPorts (daemon : PortDaemon) (hostPort containerPort : UInt16) :
    (daemon.addForward hostPort containerPort).containerPorts = daemon.containerPorts := by
  simp [addForward, routerAdd, insertProxy, setActive]

theorem preregister_containerPorts (daemon : PortDaemon) (forwards : List PortForward) :
    (daemon.preregister forwards).containerPorts = daemon.containerPorts := by
  induction forwards generalizing daemon with
  | nil => rfl
  | cons forward forwards ih =>
      exact (ih (daemon.addForward forward.hostPort forward.containerPort)).trans
        (addForward_containerPorts daemon forward.hostPort forward.containerPort)

theorem handleDaemonCmd_containerPorts (daemon : PortDaemon) (cmd : DaemonCmd) :
    (daemon.handleDaemonCmd cmd).1.containerPorts = daemon.containerPorts := by
  cases cmd with
  | registerPort hostPort containerPort =>
      cases active : daemon.ports.active.lookup hostPort with
      | none => simp [handleDaemonCmd, active]
      | some existing =>
          by_cases same : existing = containerPort <;> simp [handleDaemonCmd, active, same]
  | unregisterPort hostPort =>
      cases active : daemon.ports.active.lookup hostPort <;>
        simp [handleDaemonCmd, active, removeProxy, clearActive]
  | trackComposeProject project hostPorts => rfl
  | unregisterComposePorts project =>
      cases tracked : daemon.ports.composeProjects.lookup project <;>
        simp [handleDaemonCmd, tracked, foldl_releasePort]

theorem lookup_noteContainer {containerPorts : HashMap String (List String)}
    {container : WatchContainer} {name : String} {specs : List String}
    (recorded : (noteContainer containerPorts container).lookup name = some specs) :
    containerPorts.lookup name = some specs ∨ container.name = name ∧ container.ports = specs := by
  unfold noteContainer at recorded
  split at recorded
  · exact .inl recorded
  · rw [HashMap.lookup_insert_eq] at recorded
    split at recorded
    · rename_i same
      exact .inr ⟨same.symm, Option.some.inj recorded⟩
    · exact .inl recorded

theorem lookup_foldl_noteContainer {containers : List WatchContainer}
    {containerPorts : HashMap String (List String)} {name : String} {specs : List String}
    (recorded : (containers.foldl noteContainer containerPorts).lookup name = some specs) :
    containerPorts.lookup name = some specs ∨
      ∃ container ∈ containers, container.name = name ∧ container.ports = specs := by
  induction containers generalizing containerPorts with
  | nil => exact .inl recorded
  | cons container containers ih =>
      rcases ih recorded with earlier | ⟨later, member, same⟩
      · rcases lookup_noteContainer earlier with older | here
        · exact .inl older
        · exact .inr ⟨container, List.mem_cons_self, here⟩
      · exact .inr ⟨later, List.mem_cons_of_mem container member, same⟩

/-- What the watcher has on record after an event was on record before or came with the event. -/
theorem containerPorts_handleWatchEvent {daemon : PortDaemon} {event : WatchEvent} {name : String}
    {specs : List String}
    (recorded : (daemon.handleWatchEvent event).containerPorts.lookup name = some specs) :
    daemon.containerPorts.lookup name = some specs ∨
      ∃ container ∈ event.containers, container.name = name ∧ container.ports = specs := by
  cases event with
  | snapshot containers =>
      rcases lookup_foldl_noteContainer recorded with earlier | carried
      · simp at earlier
      · exact .inr carried
  | containerStarted container =>
      rcases lookup_noteContainer recorded with earlier | carried
      · exact .inl earlier
      · exact .inr ⟨container, List.mem_singleton_self container, carried⟩
  | containerExited exited =>
      refine .inl ?_
      cases known : daemon.containerPorts.lookup exited with
      | none => simpa [handleWatchEvent, known] using recorded
      | some ports =>
          simp only [handleWatchEvent, known, foldl_releasePort,
            HashMap.lookup_erase_eq] at recorded
          split at recorded
          · cases recorded
          · exact recorded
  | unknown => exact .inl recorded

end PortDaemon

/-- The guest, the daemon, and the forwards whose registration was answered `Ok`. -/
structure WatchWorld where
  guest : GuestState
  daemon : PortDaemon
  granted : List PortForward

/-- A command of a CLI process, a step of the guest, or the watcher handles one event.  An exit
event that the watcher has read stays on its way until the lock of the port tables is taken for it;
nobody else sees the watcher's map in the meantime. -/
inductive WatchAction where
  | command (cmd : DaemonCmd)
  | guest (action : GuestAction)
  | deliver

namespace WatchWorld

/-- The daemon has pre-registered its forwards and the watcher has not connected yet. -/
def init (directory : ContainerDirectory) (guestIp : Ipv4Addr) (forwards : List PortForward) :
    WatchWorld :=
  { guest := .init directory, daemon := (PortDaemon.init guestIp).preregister forwards,
    granted := [] }

/-- The forwards granted after a command with its answer. -/
def grant (granted : List PortForward) : DaemonCmd → DaemonResponse → List PortForward
  | .registerPort hostPort containerPort, .ok => granted ++ [{ hostPort, containerPort }]
  | _, _ => granted

/-- One step; `none` when it is not enabled. -/
def step (world : WatchWorld) : WatchAction → Option WatchWorld
  | .command cmd =>
      let (daemon, response) := world.daemon.handleDaemonCmd cmd
      some { world with daemon, granted := grant world.granted cmd response }
  | .guest action => (world.guest.step action).map fun guest => { world with guest }
  | .deliver =>
      world.guest.receive.map fun (event, guest) =>
        { world with guest, daemon := world.daemon.handleWatchEvent (.ofGuest event) }

/-- A container that runs at this moment publishes the forward, and its registration was answered
`Ok`. -/
def InUse (world : WatchWorld) (forward : PortForward) : Prop :=
  forward ∈ world.granted ∧
    ∃ container ∈ world.guest.directory.entries, container.running = true ∧
      forward ∈ container.ports.filterMap parsePortSpec

/-- If the watcher reads an exit event now, every forward in use stays as it is. -/
def ExitsHarmless (world : WatchWorld) : Prop :=
  ∀ name exitCode guest, world.guest.receive = some (.containerExited name exitCode, guest) →
    ∀ after, world.step .deliver = some after → ∀ forward, world.InUse forward →
      after.daemon.ports.active.lookup forward.hostPort =
        world.daemon.ports.active.lookup forward.hostPort

/-- The events the watcher has still to handle, in this subscription: to read, or to take the lock
for. -/
def inTransit (world : WatchWorld) : List WatchEvent :=
  world.guest.undelivered.map WatchEvent.ofGuest

/-- The watcher has, or is about to have, the port on record for the name. -/
def OnRecord (world : WatchWorld) (name : String) (hostPort : UInt16) : Prop :=
  (∃ specs, world.daemon.containerPorts.lookup name = some specs ∧
      hostPort ∈ PortDaemon.publishedPorts specs) ∨
    ∃ event ∈ world.inTransit, ∃ container ∈ event.containers, container.name = name ∧
      hostPort ∈ PortDaemon.publishedPorts container.ports

/-- No exit of the container's name is on its way, and none of its ports is on record for another
name. -/
structure Clear (world : WatchWorld) (container : ContainerSnapshot) : Prop where
  no_exit : ∀ event ∈ world.inTransit, event.exited? ≠ some container.name
  unshared : ∀ hostPort ∈ PortDaemon.publishedPorts container.ports, ∀ name,
    name ≠ container.name → ¬ world.OnRecord name hostPort

theorem clear_iff {world : WatchWorld} {container : ContainerSnapshot} :
    world.Clear container ↔
      (∀ event ∈ world.inTransit, event.exited? ≠ some container.name) ∧
      ∀ hostPort ∈ PortDaemon.publishedPorts container.ports,
        (∀ name ∈ world.daemon.containerPorts.keys, name ≠ container.name →
          hostPort ∉
            PortDaemon.publishedPorts ((world.daemon.containerPorts.lookup name).getD [])) ∧
        ∀ event ∈ world.inTransit, ∀ listed ∈ event.containers, listed.name ≠ container.name →
          hostPort ∉ PortDaemon.publishedPorts listed.ports := by
  constructor
  · rintro ⟨no_exit, unshared⟩
    refine ⟨no_exit, fun hostPort published => ⟨?_, ?_⟩⟩
    · intro name recorded other port
      obtain ⟨specs, found⟩ := Finmap.mem_iff.mp (Finmap.mem_keys.mp recorded)
      have noted : hostPort ∈ PortDaemon.publishedPorts specs := by simpa [found] using port
      exact unshared hostPort published name other (.inl ⟨specs, found, noted⟩)
    · intro event member listed carried other port
      exact unshared hostPort published listed.name other
        (.inr ⟨event, member, listed, carried, rfl, port⟩)
  · rintro ⟨no_exit, unshared⟩
    refine ⟨no_exit, fun hostPort published name other => ?_⟩
    rintro (⟨specs, found, port⟩ | ⟨event, member, listed, carried, rfl, port⟩)
    · have recorded : name ∈ world.daemon.containerPorts.keys :=
        Finmap.mem_keys.mpr (Finmap.mem_iff.mpr ⟨specs, found⟩)
      exact (unshared hostPort published).1 name recorded other (by simpa [found] using port)
    · exact (unshared hostPort published).2 event member listed carried other port

instance (world : WatchWorld) (container : ContainerSnapshot) : Decidable (world.Clear container) :=
  decidable_of_iff _ clear_iff.symm

/-- The container ran in the directory before, and published the same ports. -/
def RanBefore (directory : ContainerDirectory) (container : ContainerSnapshot) : Prop :=
  ∃ earlier ∈ directory.entries, earlier.name = container.name ∧ earlier.running = true ∧
    PortDaemon.publishedPorts container.ports ⊆ PortDaemon.publishedPorts earlier.ports

instance (directory : ContainerDirectory) (container : ContainerSnapshot) :
    Decidable (RanBefore directory container) :=
  inferInstanceAs (Decidable (∃ earlier ∈ directory.entries, _ ∧ _ ∧
    ∀ hostPort ∈ PortDaemon.publishedPorts container.ports, hostPort ∈ _))

/-- No other running container publishes a port of the record. -/
def PortsExclusive (directory : ContainerDirectory) (name : String) (specs : List String) : Prop :=
  ∀ container ∈ directory.entries, container.running = true → container.name ≠ name →
    ∀ hostPort ∈ PortDaemon.publishedPorts container.ports,
      hostPort ∉ PortDaemon.publishedPorts specs

instance (directory : ContainerDirectory) (name : String) (specs : List String) :
    Decidable (PortsExclusive directory name specs) :=
  inferInstanceAs (Decidable (∀ container ∈ directory.entries, _ → _ → ∀ hostPort ∈ _, _))

/-- A container starts only when it is clear, and the guest announces to the watcher only records
whose ports no other running container publishes. -/
def StartsClear (world : WatchWorld) : WatchAction → Prop
  | .guest (.change directory) =>
      ∀ container ∈ directory.entries, container.running = true →
        ¬ RanBefore world.guest.directory container → world.Clear container
  | .guest action =>
      ∀ event ∈ world.guest.announced action, ∀ listed ∈ (WatchEvent.ofGuest event).containers,
        PortsExclusive world.guest.directory listed.name listed.ports
  | .command _ | .deliver => True

instance (world : WatchWorld) : ∀ action, Decidable (world.StartsClear action)
  | .guest (.change directory) =>
      inferInstanceAs (Decidable (∀ container ∈ directory.entries, _ → _ → _))
  | .guest .poll | .guest .subscribe | .guest .sendSnapshot | .guest .forward
  | .guest (.heartbeat _) | .guest .disconnect =>
      inferInstanceAs (Decidable (∀ event ∈ world.guest.announced _, ∀ listed ∈ _, _))
  | .command _ | .deliver => isTrue trivial

/-- Every running container is clear. -/
def RunningClear (world : WatchWorld) : Prop :=
  ∀ container ∈ world.guest.directory.entries, container.running = true → world.Clear container

/-! ## One step -/

/-- A clear container stays clear when the watcher learns only what was on its way, and what is
announced names neither its exit nor its ports. -/
theorem Clear.step {before after : WatchWorld} {container : ContainerSnapshot}
    (clear : before.Clear container)
    (recorded : ∀ name specs, after.daemon.containerPorts.lookup name = some specs →
      before.daemon.containerPorts.lookup name = some specs ∨
        ∃ event ∈ before.inTransit, ∃ listed ∈ event.containers,
          listed.name = name ∧ listed.ports = specs)
    (announced : ∀ event ∈ after.inTransit, event ∈ before.inTransit ∨
      event.exited? ≠ some container.name ∧
        ∀ listed ∈ event.containers, container.name ≠ listed.name →
          ∀ hostPort ∈ PortDaemon.publishedPorts container.ports,
            hostPort ∉ PortDaemon.publishedPorts listed.ports) :
    after.Clear container where
  no_exit event member :=
    (announced event member).elim (clear.no_exit event) And.left
  unshared hostPort published name other := by
    have unshared := clear.unshared hostPort published
    rintro (⟨specs, found, port⟩ | ⟨event, member, listed, carried, rfl, port⟩)
    · rcases recorded name specs found with earlier | ⟨event, member, listed, carried, rfl, rfl⟩
      · exact unshared name other (.inl ⟨specs, earlier, port⟩)
      · exact unshared listed.name other (.inr ⟨event, member, listed, carried, rfl, port⟩)
    · rcases announced event member with earlier | ⟨-, exclusive⟩
      · exact unshared listed.name other (.inr ⟨event, earlier, listed, carried, rfl, port⟩)
      · exact exclusive listed carried (Ne.symm other) hostPort published port

theorem runningClear_command {world : WatchWorld} (clear : world.RunningClear) (cmd : DaemonCmd)
    (granted : List PortForward) :
    RunningClear { world with daemon := (world.daemon.handleDaemonCmd cmd).1, granted } := by
  intro container listed running
  refine (clear container listed running).step (fun name specs found => .inl ?_)
    (fun event member => .inl member)
  rwa [PortDaemon.handleDaemonCmd_containerPorts] at found

/-- A change of the directory keeps what ran before clear, and what starts is clear by the guard. -/
theorem runningClear_change {world : WatchWorld} (clear : world.RunningClear)
    {directory : ContainerDirectory} (starts : world.StartsClear (.guest (.change directory))) :
    RunningClear { world with guest := { world.guest with directory } } := by
  intro container listed running
  have same_clear : world.Clear container := by
    by_cases ran : RanBefore world.guest.directory container
    · obtain ⟨earlier, present, same, earlier_running, ports⟩ := ran
      have earlier_clear := clear earlier present earlier_running
      exact ⟨same ▸ earlier_clear.no_exit,
        fun hostPort published => same ▸ earlier_clear.unshared hostPort (ports published)⟩
    · exact starts container listed running ran
  exact same_clear.step (fun name specs found => .inl found) (fun event member => .inl member)

/-- What the guest announces reports no exit of a running container. -/
theorem exited?_of_announced {guest : GuestState} {action : GuestAction} {event : GuestEvent}
    (announced : event ∈ guest.announced action) {container : ContainerSnapshot}
    (listed : container ∈ guest.directory.entries) (running : container.running = true) :
    (WatchEvent.ofGuest event).exited? ≠ some container.name := by
  intro exits
  cases event with
  | containerExited name exitCode =>
      obtain rfl : name = container.name := Option.some.inj exits
      cases action with
      | poll =>
          have pending : .containerExited container.name exitCode ∈ guest.pending := by
            simp only [GuestState.announced] at announced
            split at announced
            · exact announced
            · cases announced
          rw [GuestState.not_running_of_pending_exit pending listed rfl] at running
          cases running
      | _ => simp [GuestState.announced] at announced
  | _ => cases exits

theorem runningClear_guest {world : WatchWorld} (clear : world.RunningClear)
    {action : GuestAction} {guest : GuestState} (stepped : world.guest.step action = some guest)
    (starts : world.StartsClear (.guest action)) : RunningClear { world with guest } := by
  by_cases changes : ∃ directory, action = .change directory
  · obtain ⟨directory, rfl⟩ := changes
    obtain rfl := Option.some.inj stepped
    exact runningClear_change clear starts
  · have not_change : ∀ directory, action ≠ .change directory :=
      fun directory same => changes ⟨directory, same⟩
    have exclusive : ∀ event ∈ world.guest.announced action,
        ∀ listed ∈ (WatchEvent.ofGuest event).containers,
          PortsExclusive world.guest.directory listed.name listed.ports := by
      cases action with
      | change directory => exact absurd rfl (not_change directory)
      | _ => exact starts
    intro container listed running
    change container ∈ guest.directory.entries at listed
    rw [GuestState.directory_step stepped not_change] at listed
    refine (clear container listed running).step (fun name specs found => .inl found) ?_
    intro event member
    obtain ⟨event, undelivered, rfl⟩ := List.mem_map.mp member
    rcases GuestState.mem_undelivered_step stepped undelivered with earlier | announced
    · exact .inl (List.mem_map_of_mem earlier)
    · refine .inr ⟨exited?_of_announced announced listed running, fun record carried other => ?_⟩
      exact exclusive event announced record carried container listed running other

theorem runningClear_deliver {world : WatchWorld} (clear : world.RunningClear)
    {event : GuestEvent} {guest : GuestState}
    (received : world.guest.receive = some (event, guest)) :
    RunningClear
      { world with guest, daemon := world.daemon.handleWatchEvent (.ofGuest event) } := by
  obtain ⟨undelivered, directory⟩ := GuestState.undelivered_receive received
  intro container listed running
  change container ∈ guest.directory.entries at listed
  rw [directory] at listed
  refine (clear container listed running).step (fun name specs found => ?_) ?_
  · refine (PortDaemon.containerPorts_handleWatchEvent found).imp_right fun carried => ?_
    refine ⟨.ofGuest event, List.mem_map_of_mem ?_, carried⟩
    rw [undelivered]
    exact List.mem_cons_self
  · intro later member
    obtain ⟨later, still, rfl⟩ := List.mem_map.mp member
    refine .inl (List.mem_map_of_mem ?_)
    rw [undelivered]
    exact List.mem_cons_of_mem event still

/-- A permitted step keeps every running container clear. -/
theorem runningClear_step {before after : WatchWorld} {action : WatchAction}
    (clear : before.RunningClear) (starts : before.StartsClear action)
    (stepped : before.step action = some after) : after.RunningClear := by
  cases action with
  | command cmd =>
      obtain rfl := Option.some.inj stepped
      exact runningClear_command clear cmd _
  | guest action =>
      obtain ⟨guest, guest_stepped, rfl⟩ := Option.map_eq_some_iff.mp stepped
      exact runningClear_guest clear guest_stepped starts
  | deliver =>
      obtain ⟨⟨event, guest⟩, received, rfl⟩ := Option.map_eq_some_iff.mp stepped
      exact runningClear_deliver clear received

/-! ## Whole runs -/

theorem runningClear_init (directory : ContainerDirectory) (guestIp : Ipv4Addr)
    (forwards : List PortForward) : (init directory guestIp forwards).RunningClear := by
  have unrecorded : (init directory guestIp forwards).daemon.containerPorts = ∅ :=
    PortDaemon.preregister_containerPorts _ forwards
  intro container _ _
  refine ⟨by simp [inTransit, GuestState.undelivered, init, GuestState.init], ?_⟩
  rintro hostPort - name - (⟨specs, found, -⟩ | ⟨event, member, -⟩)
  · simp [unrecorded] at found
  · simp [inTransit, GuestState.undelivered, init, GuestState.init] at member

/-- When every running container is clear, an exit event takes no port from any of them. -/
theorem RunningClear.exitsHarmless {world : WatchWorld} (clear : world.RunningClear) :
    world.ExitsHarmless := by
  rintro name exitCode guest received after stepped forward
    ⟨-, container, listed, running, published⟩
  obtain rfl : { world with
      guest, daemon := world.daemon.handleWatchEvent (.containerExited name) } = after := by
    simpa [step, received, WatchEvent.ofGuest] using stepped
  have container_clear := clear container listed running
  have port : forward.hostPort ∈ PortDaemon.publishedPorts container.ports :=
    List.mem_map_of_mem published
  have exit_in_transit : .containerExited name ∈ world.inTransit := by
    refine List.mem_map.mpr ⟨.containerExited name exitCode, ?_, rfl⟩
    rw [(GuestState.undelivered_receive received).1]
    exact List.mem_cons_self
  have other : name ≠ container.name := by
    rintro rfl
    exact container_clear.no_exit _ exit_in_transit rfl
  have kept : forward.hostPort ∉
      PortDaemon.publishedPorts ((world.daemon.containerPorts.lookup name).getD []) := by
    intro recorded
    cases found : world.daemon.containerPorts.lookup name with
    | none => simp [found, PortDaemon.publishedPorts] at recorded
    | some specs =>
        refine container_clear.unshared _ port name other (.inl ⟨specs, found, ?_⟩)
        simpa [found] using recorded
  exact (PortDaemon.active_containerExited _ name _).trans (if_neg kept)

/-- In every run in which containers start only when they are clear, no exit event ever takes a port
from a running container that was granted it. -/
theorem exits_harmless_of_starts_clear (directory : ContainerDirectory) (guestIp : Ipv4Addr)
    (forwards : List PortForward) (actions : List WatchAction)
    (guarded : Guarded step StartsClear actions (init directory guestIp forwards)) :
    Always step ExitsHarmless actions (init directory guestIp forwards) :=
  (always_of_guarded runningClear_step (runningClear_init directory guestIp forwards) guarded).imp
    fun _ => RunningClear.exitsHarmless

/-- A container that publishes port 8080. -/
def webContainer (name status : String) : ContainerSnapshot :=
  { name, status, pid := 7, rootfs := "alpine", startedAt := "", exitCode := none,
    ports := ["8080:80"] }

/-- The directory with the container `web` alone. -/
def webAlone (status : String) : ContainerDirectory where
  entries := [webContainer "web" status]
  distinct := by simp [DistinctNames]

/-- The directory in which `web` has exited and `web2` runs on the same port. -/
def webReplaced : ContainerDirectory where
  entries := [webContainer "web" "exited", webContainer "web2" "running"]
  distinct := by simp [DistinctNames, webContainer]

/-- The directory with the running container `web2` alone. -/
def web2Alone : ContainerDirectory where
  entries := [webContainer "web2" "running"]
  distinct := by simp [DistinctNames]

/-- The empty directory. -/
def noContainers : ContainerDirectory where
  entries := []
  distinct := by simp [DistinctNames]

/-- The watcher subscribes, and `web` starts with its port registered. -/
def webStarts : List WatchAction :=
  [.guest .subscribe, .guest .sendSnapshot, .deliver, .guest (.change (webAlone "running")),
    .command (.registerPort 8080 80), .guest .poll, .guest .forward, .deliver,
    .guest (.change (webAlone "exited"))]

/-- The watcher learns of the exit of `web` before `web2` starts; then `web` is removed. -/
def webReplacedAfterExit : List WatchAction :=
  webStarts ++
    [.guest .poll, .guest .forward, .deliver, .guest (.change webReplaced),
      .command (.registerPort 8080 80), .guest .poll, .guest .forward, .deliver,
      .guest (.change web2Alone), .guest .poll, .guest .forward, .deliver]

theorem port_kept_after_exit :
    ∃ final, run step webReplacedAfterExit (init noContainers ⟨192, 168, 105, 2⟩ []) = some final ∧
      final.daemon.ports.active.lookup 8080 = some 80 ∧
      Always step ExitsHarmless webReplacedAfterExit
        (init noContainers ⟨192, 168, 105, 2⟩ []) :=
  ⟨_, rfl, by decide, exits_harmless_of_starts_clear _ _ _ _ (by decide)⟩

/-- The exit of `web` is polled only after `web2` has started on the same port. -/
def webReplacedBeforeExit : List WatchAction :=
  webStarts ++
    [.command (.registerPort 8080 80), .guest (.change webReplaced), .guest .poll,
      .guest .forward, .guest .forward, .deliver]

theorem port_lost_to_late_exit :
    ∃ world guest after,
      run step webReplacedBeforeExit (init noContainers ⟨192, 168, 105, 2⟩ []) = some world ∧
      world.guest.receive = some (.containerExited "web" none, guest) ∧
      world.step .deliver = some after ∧
      world.InUse ⟨8080, 80⟩ ∧
      world.daemon.ports.active.lookup 8080 = some 80 ∧
      after.daemon.ports.active.lookup 8080 = none ∧
      ¬ world.ExitsHarmless := by
  obtain ⟨world, guest, after, execution, received, stepped, in_use, active, lost⟩ :
      ∃ world guest after,
        run step webReplacedBeforeExit (init noContainers ⟨192, 168, 105, 2⟩ []) = some world ∧
        world.guest.receive = some (.containerExited "web" none, guest) ∧
        world.step .deliver = some after ∧
        world.InUse ⟨8080, 80⟩ ∧
        world.daemon.ports.active.lookup 8080 = some 80 ∧
        after.daemon.ports.active.lookup 8080 = none :=
    ⟨_, _, _, rfl, rfl, rfl,
      ⟨by decide, webContainer "web2" "running", by decide, by decide, by decide⟩,
      by decide, by decide⟩
  refine ⟨world, guest, after, execution, received, stepped, in_use, active, lost, ?_⟩
  intro harmless
  have kept := harmless "web" none guest received after stepped ⟨8080, 80⟩ in_use
  rw [active, lost] at kept
  cases kept

end WatchWorld
end Pelagos.Daemon
