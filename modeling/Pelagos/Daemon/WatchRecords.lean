import Pelagos.Daemon.ExitWatch
import Pelagos.Guest.SubscriberView

/-!
# The watcher's records

The watcher keeps the published ports of containers by name.  A Snapshot replaces the whole map
without a look at what it replaces, so the ports of containers that exited unseen stay active.  Over
one subscription an exit finds the ports of the last announcement that listed any, unless they were
taken by an earlier exit.
-/

namespace Pelagos.Daemon

open Execution Guest

namespace PortDaemon

/-! ## Snapshots after a gap -/

/-- A published port is left over: it is on record for a container that a Snapshot does not list,
and no listed container publishes it. -/
def LeftOver (daemon : PortDaemon) (containers : List WatchContainer) (hostPort : UInt16) : Prop :=
  (∃ name specs, daemon.containerPorts.lookup name = some specs ∧
    (∀ container ∈ containers, container.name ≠ name) ∧ hostPort ∈ publishedPorts specs) ∧
  ∀ container ∈ containers, hostPort ∉ publishedPorts container.ports

/-- An action releases a host port, be it active or not. -/
def Releases (daemon : PortDaemon) (hostPort : UInt16) (action : PortAction) : Prop :=
  hostPort ∈ daemon.releasedPorts action ∨ action = .command (.unregisterPort hostPort)

/-- An action starts a forward of a host port. -/
def Starts (daemon : PortDaemon) (hostPort : UInt16) (action : PortAction) : Prop :=
  ∃ forward ∈ daemon.startedForwards action, forward.hostPort = hostPort

/-- Some action of the run starts a forward of the host port and no later one releases it. -/
def StartedAndKept (hostPort : UInt16) : List PortAction → PortDaemon → Prop
  | [], _ => False
  | action :: actions, daemon =>
      daemon.Starts hostPort action ∧
        Guarded step (fun daemon action => ¬daemon.Releases hostPort action) actions
          (daemon.handle action) ∨
      StartedAndKept hostPort actions (daemon.handle action)

theorem mem_active_preregister (daemon : PortDaemon) (forwards : List PortForward)
    (hostPort : UInt16) :
    hostPort ∈ (daemon.preregister forwards).ports.active ↔
      (∃ forward ∈ forwards, forward.hostPort = hostPort) ∨ hostPort ∈ daemon.ports.active := by
  induction forwards generalizing daemon with
  | nil => simp [preregister]
  | cons forward forwards ih =>
      have later := ih (daemon.addForward forward.hostPort forward.containerPort)
      rw [addForward_active, Finmap.mem_insert] at later
      rw [preregister, List.foldl_cons, ← preregister, later]
      simp only [List.mem_cons, exists_eq_or_imp]
      rw [@eq_comm _ hostPort, or_left_comm, or_assoc]

theorem mem_eraseAll {hostPorts : List UInt16} {active : HashMap UInt16 UInt16}
    {hostPort : UInt16} :
    hostPort ∈ HashMap.eraseAll hostPorts active ↔ hostPort ∈ active ∧ hostPort ∉ hostPorts := by
  rw [HashMap.mem_iff_lookup_ne_none, HashMap.mem_iff_lookup_ne_none, HashMap.lookup_eraseAll]
  split <;> simp_all

/-- A port is active after an action if the action starts a forward of it or leaves it active. -/
theorem mem_active_handle (daemon : PortDaemon) (action : PortAction) (hostPort : UInt16) :
    hostPort ∈ (daemon.handle action).ports.active ↔
      daemon.Starts hostPort action ∨
        hostPort ∈ daemon.ports.active ∧ ¬daemon.Releases hostPort action := by
  cases action with
  | preregister forwards =>
      rw [handle, mem_active_preregister]
      simp [Starts, Releases, startedForwards, releasedPorts]
  | event event =>
      cases event with
      | snapshot containers =>
          simp [handle, handleWatchEvent, Starts, Releases, startedForwards, releasedPorts]
      | containerStarted container =>
          simp [handle, handleWatchEvent, Starts, Releases, startedForwards, releasedPorts]
      | unknown => simp [handle, handleWatchEvent, Starts, Releases, startedForwards, releasedPorts]
      | containerExited name =>
          cases recorded : daemon.containerPorts.lookup name with
          | none =>
              simp [handle, handleWatchEvent, Starts, Releases, startedForwards, releasedPorts,
                recorded, publishedPorts]
          | some specs =>
              simp [handle, handleWatchEvent, Starts, Releases, startedForwards, releasedPorts,
                recorded, foldl_releasePort, mem_eraseAll]
  | command cmd =>
      cases cmd with
      | registerPort requested containerPort =>
          cases active : daemon.ports.active.lookup requested with
          | none =>
              simp [handle, handleDaemonCmd, Starts, Releases, startedForwards, releasedPorts,
                active, Finmap.mem_insert, eq_comm]
          | some existing =>
              by_cases same : existing = containerPort <;>
                simp [handle, handleDaemonCmd, Starts, Releases, startedForwards, releasedPorts,
                  active, same]
      | unregisterPort requested =>
          cases active : daemon.ports.active.lookup requested with
          | none =>
              have inactive : requested ∉ daemon.ports.active := by
                rw [HashMap.mem_iff_lookup_ne_none, active]
                simp
              have kept : hostPort ∈ daemon.ports.active → requested ≠ hostPort := by
                rintro member rfl
                exact inactive member
              simpa [handle, handleDaemonCmd, Starts, Releases, startedForwards, releasedPorts,
                active] using kept
          | some existing =>
              simp [handle, handleDaemonCmd, Starts, Releases, startedForwards, releasedPorts,
                active, removeProxy, clearActive, and_comm, eq_comm]
      | trackComposeProject project hostPorts =>
          simp [handle, handleDaemonCmd, Starts, Releases, startedForwards, releasedPorts]
      | unregisterComposePorts project =>
          cases tracked : daemon.ports.composeProjects.lookup project with
          | none =>
              simp [handle, handleDaemonCmd, Starts, Releases, startedForwards, releasedPorts,
                tracked]
          | some hostPorts =>
              simp [handle, handleDaemonCmd, Starts, Releases, startedForwards, releasedPorts,
                tracked, foldl_releasePort, mem_eraseAll]

/-- The active ports of a run: those kept from its start, and those started and kept since. -/
theorem mem_active_run {actions : List PortAction} {daemon final : PortDaemon} {hostPort : UInt16}
    (execution : run step actions daemon = some final) :
    hostPort ∈ final.ports.active ↔
      hostPort ∈ daemon.ports.active ∧
        Guarded step (fun daemon action => ¬daemon.Releases hostPort action) actions daemon ∨
      StartedAndKept hostPort actions daemon := by
  induction actions generalizing daemon with
  | nil =>
      obtain rfl : daemon = final := Option.some.inj execution
      simp [StartedAndKept]
  | cons action actions ih =>
      have enabled : daemon.step action = some (daemon.handle action) := rfl
      obtain ⟨next, first, later⟩ := run_cons_eq_some.mp execution
      obtain rfl : daemon.handle action = next := Option.some.inj first
      rw [ih later, mem_active_handle, guarded_cons enabled, StartedAndKept]
      tauto

/-- A Snapshot is processed in this state of the run. -/
def SnapshotAt (guestIp : Ipv4Addr) (actions front : List PortAction)
    (containers : List WatchContainer) (before : PortDaemon) : Prop :=
  front ++ [.event (.snapshot containers)] <+: actions ∧ run step front (init guestIp) = some before

/-- Right after every Snapshot no left-over port is active. -/
def SnapshotsPurge (guestIp : Ipv4Addr) (actions : List PortAction) : Prop :=
  ∀ front containers before, SnapshotAt guestIp actions front containers before →
    ∀ hostPort, before.LeftOver containers hostPort →
      hostPort ∉ (before.handleWatchEvent (.snapshot containers)).ports.active

/-- In every run, right after every Snapshot, no port of a vanished container is active, if and only
if all such ports had been released since their forwards were last started. -/
theorem snapshots_purge_iff_released (guestIp : Ipv4Addr) (actions : List PortAction) :
    SnapshotsPurge guestIp actions ↔
      ∀ front containers before, SnapshotAt guestIp actions front containers before →
        ∀ hostPort, before.LeftOver containers hostPort →
          ¬StartedAndKept hostPort front (init guestIp) := by
  refine forall₃_congr fun front containers before => forall_congr' fun reached => ?_
  refine forall₂_congr fun hostPort _ => not_congr ?_
  -- A Snapshot changes the map of the watcher and nothing else.
  change hostPort ∈ before.ports.active ↔ _
  rw [mem_active_run reached.2]
  have nothing_active : hostPort ∉ (init guestIp).ports.active := Finmap.notMem_empty
  simp [nothing_active]

/-- A container starts and registers its port, exits while the watcher is disconnected, and the next
Snapshot is empty: the port stays active. -/
theorem unseen_exit_leaks_port :
    ¬SnapshotsPurge ⟨192, 168, 105, 2⟩
      [.event (.snapshot []), .event (.containerStarted ⟨"web", ["8080:80"]⟩),
        .command (.registerPort 8080 80), .event (.snapshot [])] := by
  intro purge
  have left_over := purge
    [.event (.snapshot []), .event (.containerStarted ⟨"web", ["8080:80"]⟩),
      .command (.registerPort 8080 80)] [] _ ⟨List.prefix_rfl, rfl⟩ 8080
    ⟨⟨"web", ["8080:80"], rfl, by simp, by decide⟩, by simp⟩
  exact left_over (by decide)

/-! ## What an exit finds -/

/-- The watcher processes the events of a subscription. -/
def watch (daemon : PortDaemon) (events : List GuestEvent) : PortDaemon :=
  (events.map WatchEvent.ofGuest).foldl handleWatchEvent daemon

end PortDaemon

/-- The record of a container in a reading. -/
def recordOf (name : String) (reading : List ContainerSnapshot) : Option ContainerSnapshot :=
  reading.find? fun container => container.name = name

/-- An entry of the watcher's map for these ports; there is none for no ports. -/
def entryFor (ports : List String) : Option (List String) := if ports = [] then none else some ports

/-- An exit event within the events of a subscription: `front` are the polls before the one that
reports it, and `before` the events of this poll that precede it. -/
structure ProcessedExit (first : List ContainerSnapshot)
    (polls : List (List ContainerSnapshot)) where
  name : String
  exitCode : Option Int32
  front : List (List ContainerSnapshot)
  current : List ContainerSnapshot
  before : List GuestEvent
  after : List GuestEvent
  polled : front ++ [current] <+: polls
  reported : diffContainerStates (lastReading first front) current =
    before ++ .containerExited name exitCode :: after

namespace ProcessedExit

variable {first : List ContainerSnapshot} {polls : List (List ContainerSnapshot)}

/-- What the watcher finds under the name when it processes the exit. -/
def found (exit : ProcessedExit first polls) (daemon : PortDaemon) : Option (List String) :=
  (daemon.watch (.snapshot first true :: eventsAlong first exit.front ++
    exit.before)).containerPorts.lookup exit.name

/-- The most recent polled record of the name at or before the exit. -/
def recent (exit : ProcessedExit first polls) : Option ContainerSnapshot :=
  (recordOf exit.name exit.current).or (recordOf exit.name (lastReading first exit.front))

end ProcessedExit

/-- The records of a name since the announcement that the watcher's map goes back to, the record of
that announcement first; none once an exit has been processed. -/
def advanceRecords (records : List ContainerSnapshot) :
    Option ContainerSnapshot → Option ContainerSnapshot → List ContainerSnapshot
  | _, none => []
  | none, some container => if container.running then [container] else []
  | some earlier, some container =>
      if !earlier.running && container.running then
        if container.ports = [] then records ++ [container] else [container]
      else if earlier.running && !container.running then []
      else if records = [] then []
      else records ++ [container]

/-- The records since the announcement, after all of these polls. -/
def recordsAfter (name : String) :
    List ContainerSnapshot → List ContainerSnapshot → List (List ContainerSnapshot) →
      List ContainerSnapshot
  | records, _, [] => records
  | records, prev, current :: later =>
      recordsAfter name (advanceRecords records (recordOf name prev) (recordOf name current))
        current later

/-- The records since the announcement up to the most recent one, when the exit is processed. -/
def ProcessedExit.records {first : List ContainerSnapshot} {polls : List (List ContainerSnapshot)}
    (exit : ProcessedExit first polls) : List ContainerSnapshot :=
  let records := recordsAfter exit.name (recordOf exit.name first).toList first exit.front
  match recordOf exit.name (lastReading first exit.front), recordOf exit.name exit.current with
  | _, none => records
  | none, some container => [container]
  | some _, some container => if records = [] then [] else records ++ [container]

/-- The event announces the container of this name or reports its exit. -/
def About (name : String) : GuestEvent → Bool
  | .containerStarted container => container.name = name
  | .containerExited exited _ => exited = name
  | .snapshot _ _ | .heartbeat _ => false

/-- The events about one name that a comparison emits. -/
def eventsAbout : Option ContainerSnapshot → Option ContainerSnapshot → List GuestEvent
  | none, none => []
  | some earlier, none => [.containerExited earlier.name earlier.exitCode]
  | none, some container =>
      .containerStarted container ::
        if container.running then [] else [.containerExited container.name container.exitCode]
  | some earlier, some container =>
      if !earlier.running && container.running then [.containerStarted container]
      else if earlier.running && !container.running then
        [.containerExited container.name container.exitCode]
      else []

theorem recordOf_of_fresh {container : ContainerSnapshot} {reading : List ContainerSnapshot}
    (fresh : container.name ∉ reading.map ContainerSnapshot.name) :
    recordOf container.name reading = none := by
  rw [recordOf, List.find?_eq_none]
  intro other member
  simp only [decide_eq_true_eq]
  intro same
  exact fresh (same ▸ List.mem_map_of_mem member)

theorem recordOf_cons_of_ne {name : String} {container : ContainerSnapshot}
    (reading : List ContainerSnapshot) (other : container.name ≠ name) :
    recordOf name (container :: reading) = recordOf name reading := by
  simp [recordOf, other]

theorem recordOf_cons_self (container : ContainerSnapshot) (reading : List ContainerSnapshot) :
    recordOf container.name (container :: reading) = some container := by
  simp [recordOf]

theorem name_of_recordOf {name : String} {reading : List ContainerSnapshot}
    {container : ContainerSnapshot} (found : recordOf name reading = some container) :
    container.name = name := by
  simpa using List.find?_some found

/-- Of the groups of a list with distinct names only the one of this name contributes. -/
theorem flatMap_recordOf {name : String} {reading : List ContainerSnapshot}
    (distinct : DistinctNames reading) {group : ContainerSnapshot → List GuestEvent}
    (others : ∀ container, container.name ≠ name → group container = []) :
    reading.flatMap group = ((recordOf name reading).map group).getD [] := by
  induction reading with
  | nil => rfl
  | cons container reading ih =>
      obtain ⟨fresh, distinct_tail⟩ := List.nodup_cons.mp distinct
      rw [List.flatMap_cons, ih distinct_tail]
      by_cases same : container.name = name
      · subst same
        simp [recordOf_cons_self, recordOf_of_fresh fresh]
      · rw [others container same, recordOf_cons_of_ne reading same, List.nil_append]

theorem filter_appearanceEvents {name : String} {prev : List ContainerSnapshot}
    {container : ContainerSnapshot} :
    (appearanceEvents prev container).filter (About name) =
      if container.name = name then appearanceEvents prev container else [] := by
  rw [appearanceEvents]
  split <;> split <;> split <;> simp_all [About]

theorem filter_departureEvents {name : String} {current : List ContainerSnapshot}
    {earlier : ContainerSnapshot} :
    (departureEvents current earlier).filter (About name) =
      if earlier.name = name then departureEvents current earlier else [] := by
  rw [departureEvents]
  split
  · split <;> simp_all [About]
  · rename_i container found
    have same : container.name = earlier.name := by simpa using List.find?_some found
    split <;> split <;> simp_all [About]

/-- What a comparison emits about a name depends on the two records of the name alone. -/
theorem filter_diffContainerStates {prev current : List ContainerSnapshot}
    (distinct_prev : DistinctNames prev) (distinct_current : DistinctNames current)
    (name : String) :
    (diffContainerStates prev current).filter (About name) =
      eventsAbout (recordOf name prev) (recordOf name current) := by
  rw [diffContainerStates, List.filter_append, List.filter_flatMap, List.filter_flatMap,
    flatMap_recordOf distinct_current fun container other => by
      rw [filter_appearanceEvents, if_neg other],
    flatMap_recordOf distinct_prev fun earlier other => by
      rw [filter_departureEvents, if_neg other]]
  cases departed : recordOf name prev with
  | none =>
      cases appeared : recordOf name current with
      | none => rfl
      | some container =>
          obtain rfl := name_of_recordOf appeared
          rw [recordOf] at departed
          simp [appearanceEvents, departed, eventsAbout, About]
  | some earlier =>
      obtain rfl := name_of_recordOf departed
      cases appeared : recordOf earlier.name current with
      | none =>
          rw [recordOf] at appeared
          simp [departureEvents, appeared, eventsAbout, About]
      | some container =>
          have same := name_of_recordOf appeared
          rw [recordOf] at appeared departed
          cases before : earlier.running <;> cases now : container.running <;>
            simp [appearanceEvents, departureEvents, appeared, departed, eventsAbout, About, same,
              before, now]

/-- The watcher's entry for a name after an event about a container. -/
def noted (name : String) (entry : Option (List String)) : GuestEvent → Option (List String)
  | .containerStarted container =>
      if container.name = name ∧ container.ports ≠ [] then some container.ports else entry
  | .containerExited exited _ => if exited = name then none else entry
  | .snapshot _ _ | .heartbeat _ => entry

namespace PortDaemon

theorem lookup_noteContainer_eq (containerPorts : HashMap String (List String))
    (container : WatchContainer) (name : String) :
    (noteContainer containerPorts container).lookup name =
      if container.name = name ∧ container.ports ≠ [] then some container.ports
      else containerPorts.lookup name := by
  rw [noteContainer]
  by_cases unpublished : container.ports = []
  · simp [unpublished]
  · by_cases same : container.name = name
    · simp [unpublished, same]
    · simp [unpublished, same, Ne.symm same]

theorem lookup_handle_noted {daemon : PortDaemon} {event : GuestEvent} {name : String}
    (later : ∀ containers vmRunning, event ≠ .snapshot containers vmRunning) :
    (daemon.handleWatchEvent (.ofGuest event)).containerPorts.lookup name =
      noted name (daemon.containerPorts.lookup name) event := by
  cases event with
  | snapshot containers vmRunning => exact absurd rfl (later containers vmRunning)
  | containerStarted container => exact lookup_noteContainer_eq _ _ _
  | heartbeat ts => rfl
  | containerExited exited exitCode =>
      cases recorded : daemon.containerPorts.lookup exited with
      | none =>
          by_cases same : exited = name
          · subst same
            simp [WatchEvent.ofGuest, handleWatchEvent, noted, recorded]
          · simp [WatchEvent.ofGuest, handleWatchEvent, noted, recorded, same]
      | some specs =>
          simp [WatchEvent.ofGuest, handleWatchEvent, noted, recorded, foldl_releasePort,
            HashMap.lookup_erase_eq, eq_comm]

theorem watch_append (daemon : PortDaemon) (earlier later : List GuestEvent) :
    daemon.watch (earlier ++ later) = (daemon.watch earlier).watch later := by
  rw [watch, List.map_append, List.foldl_append]
  rfl

/-- After the Snapshot the entry for a name depends on the events about it. -/
theorem lookup_watch {events : List GuestEvent}
    (later : ∀ containers vmRunning, .snapshot containers vmRunning ∉ events) (daemon : PortDaemon)
    (name : String) :
    (daemon.watch events).containerPorts.lookup name =
      (events.filter (About name)).foldl (noted name) (daemon.containerPorts.lookup name) := by
  induction events generalizing daemon with
  | nil => rfl
  | cons event events ih =>
      have rest := ih (fun containers vmRunning member =>
        later containers vmRunning (List.mem_cons_of_mem event member))
        (daemon.handleWatchEvent (.ofGuest event))
      have here : (daemon.handleWatchEvent (.ofGuest event)).containerPorts.lookup name =
          noted name (daemon.containerPorts.lookup name) event :=
        lookup_handle_noted fun containers vmRunning same =>
          later containers vmRunning (same ▸ List.mem_cons_self)
      rw [here] at rest
      refine rest.trans ?_
      cases about : About name event with
      | true => rw [List.filter_cons_of_pos about, List.foldl_cons]
      | false =>
          have unchanged : noted name (daemon.containerPorts.lookup name) event =
              daemon.containerPorts.lookup name := by
            cases event <;> simp_all [About, noted]
          rw [unchanged, List.filter_cons_of_neg (by simp [about])]

/-- The Snapshot replaces the map by the ports of its records. -/
theorem lookup_watch_snapshot {first : List ContainerSnapshot} (distinct : DistinctNames first)
    (daemon : PortDaemon) (name : String) :
    (daemon.watch [.snapshot first true]).containerPorts.lookup name =
      (recordOf name first).bind fun container => entryFor container.ports := by
  have entries (containerPorts : HashMap String (List String)) :
      ((first.map fun container => (⟨container.name, container.ports⟩ : WatchContainer)).foldl
          noteContainer containerPorts).lookup name =
        ((recordOf name first).bind fun container => entryFor container.ports).or
          (containerPorts.lookup name) := by
    induction first generalizing containerPorts with
    | nil => simp [recordOf]
    | cons container first ih =>
        obtain ⟨fresh, distinct_tail⟩ := List.nodup_cons.mp distinct
        rw [List.map_cons, List.foldl_cons, ih distinct_tail, lookup_noteContainer_eq]
        by_cases same : container.name = name
        · subst same
          rw [recordOf_cons_self, recordOf_of_fresh fresh]
          by_cases unpublished : container.ports = [] <;> simp [unpublished, entryFor]
        · simp [recordOf_cons_of_ne first same, same]
  have replaced := entries ∅
  rw [Finmap.lookup_empty, Option.or_none] at replaced
  exact replaced

end PortDaemon

/-- The entry for a name goes back to the first of its records; a running container has one. -/
structure Tracks (entry : Option (List String)) (records : List ContainerSnapshot)
    (listed : Option ContainerSnapshot) : Prop where
  entry_eq : entry = records.head?.bind fun container => entryFor container.ports
  unlisted : listed = none → records = []
  running : ∀ container ∈ listed, container.running = true → records ≠ []

theorem tracks_snapshot (listed : Option ContainerSnapshot) :
    Tracks (listed.bind fun container => entryFor container.ports) listed.toList listed where
  entry_eq := by cases listed <;> rfl
  unlisted := by
    rintro rfl
    rfl
  running := by
    rintro container rfl _
    simp

/-- Announcing a container puts its ports on record, if it has any. -/
theorem noted_started {container : ContainerSnapshot} (entry : Option (List String)) :
    noted container.name entry (.containerStarted container) =
      (entryFor container.ports).or entry := by
  by_cases unpublished : container.ports = [] <;> simp [noted, entryFor, unpublished]

theorem noted_exited {name : String} (entry : Option (List String)) (exitCode : Option Int32) :
    noted name entry (.containerExited name exitCode) = none := by
  simp [noted]

theorem tracks_exited (listed : Option ContainerSnapshot)
    (stopped : ∀ container ∈ listed, container.running = false) : Tracks none [] listed where
  entry_eq := rfl
  unlisted := fun _ => rfl
  running := by
    intro container is_listed running
    rw [stopped container is_listed] at running
    cases running

/-- A container that is announced again without ports leaves an old entry in place. -/
theorem Tracks.restarted {entry : Option (List String)} {records : List ContainerSnapshot}
    {earlier : Option ContainerSnapshot} (tracks : Tracks entry records earlier)
    (container : ContainerSnapshot) :
    Tracks ((entryFor container.ports).or entry)
      (if container.ports = [] then records ++ [container] else [container]) (some container) where
  entry_eq := by
    by_cases unpublished : container.ports = []
    · rw [if_pos unpublished, tracks.entry_eq]
      cases records with
      | nil => simp [entryFor, unpublished]
      | cons first records => simp [entryFor, unpublished]
    · simp [entryFor, unpublished]
  unlisted := by simp
  running := by
    intro other _ _
    split <;> simp

/-- A comparison that is silent about a container adds its record to the others. -/
theorem Tracks.silent {entry : Option (List String)} {records : List ContainerSnapshot}
    {earlier : Option ContainerSnapshot} (tracks : Tracks entry records earlier)
    {container : ContainerSnapshot} (still : container.running = true → records ≠ []) :
    Tracks entry (if records = [] then [] else records ++ [container]) (some container) where
  entry_eq := by
    rw [tracks.entry_eq]
    cases records <;> rfl
  unlisted := by simp
  running := by
    intro other is_listed running
    obtain rfl : container = other := Option.some.inj is_listed
    rw [if_neg (still running)]
    simp

/-- One comparison keeps the entry in step with the records. -/
theorem Tracks.advance {name : String} {entry : Option (List String)}
    {records : List ContainerSnapshot} {earlier listed : Option ContainerSnapshot}
    (tracks : Tracks entry records earlier)
    (earlier_name : ∀ container ∈ earlier, container.name = name)
    (listed_name : ∀ container ∈ listed, container.name = name) :
    Tracks ((eventsAbout earlier listed).foldl (noted name) entry)
      (advanceRecords records earlier listed) listed := by
  have unlisted_entry : earlier = none → entry = none := by
    intro absent
    rw [tracks.entry_eq, tracks.unlisted absent]
    rfl
  cases listed with
  | none =>
      cases earlier with
      | none =>
          rw [unlisted_entry rfl]
          exact tracks_exited none (by simp)
      | some earlier =>
          obtain rfl := earlier_name earlier rfl
          simp only [eventsAbout, List.foldl_cons, List.foldl_nil, noted_exited]
          exact tracks_exited none (by simp)
  | some container =>
      obtain rfl := listed_name container rfl
      cases earlier with
      | none =>
          rw [unlisted_entry rfl]
          cases running : container.running with
          | true =>
              simp only [eventsAbout, running, if_true, List.foldl_cons, List.foldl_nil,
                noted_started, advanceRecords, Option.or_none]
              exact tracks_snapshot (some container)
          | false =>
              simp only [eventsAbout, running, Bool.false_eq_true, if_false, List.foldl_cons,
                List.foldl_nil, noted_exited, advanceRecords]
              exact tracks_exited _ (by simpa using running)
      | some earlier =>
          have still := tracks.running earlier rfl
          cases before : earlier.running <;> cases now : container.running <;>
            simp only [eventsAbout, advanceRecords, before, now, Bool.not_false, Bool.not_true,
              Bool.and_true, Bool.and_false, Bool.and_self, if_true, if_false, List.foldl_cons,
              List.foldl_nil, noted_started, noted_exited, Bool.false_eq_true]
          · exact tracks.silent (by simp [now])
          · exact tracks.restarted container
          · exact tracks_exited _ (by simpa using now)
          · exact tracks.silent fun _ => still before

theorem names_recordOf (name : String) (reading : List ContainerSnapshot) :
    ∀ container ∈ recordOf name reading, container.name = name :=
  fun _ found => name_of_recordOf found

/-- Over the whole subscription the entry for a name is in step with its records. -/
theorem tracks_watch {first : List ContainerSnapshot} {front : List (List ContainerSnapshot)}
    (distinct : ∀ reading ∈ first :: front, DistinctNames reading) (daemon : PortDaemon)
    (name : String) :
    Tracks
      ((daemon.watch (.snapshot first true :: eventsAlong first front)).containerPorts.lookup name)
      (recordsAfter name (recordOf name first).toList first front)
      (recordOf name (lastReading first front)) := by
  have onward : ∀ (polls : List (List ContainerSnapshot)) (prev : List ContainerSnapshot)
      (records : List ContainerSnapshot) (daemon : PortDaemon),
      (∀ reading ∈ prev :: polls, DistinctNames reading) →
      Tracks (daemon.containerPorts.lookup name) records (recordOf name prev) →
      Tracks ((daemon.watch (eventsAlong prev polls)).containerPorts.lookup name)
        (recordsAfter name records prev polls) (recordOf name (lastReading prev polls)) := by
    intro polls
    induction polls with
    | nil => exact fun prev records daemon _ tracks => tracks
    | cons current polls ih =>
        intro prev records daemon distinct tracks
        have distinct_later : ∀ reading ∈ current :: polls, DistinctNames reading :=
          fun reading member => distinct reading (List.mem_cons_of_mem prev member)
        rw [eventsAlong, PortDaemon.watch_append]
        refine ih current _ _ distinct_later ?_
        rw [PortDaemon.lookup_watch (snapshot_not_mem_diff prev current),
          filter_diffContainerStates (distinct prev List.mem_cons_self)
            (distinct_later current List.mem_cons_self)]
        exact tracks.advance (names_recordOf name prev) (names_recordOf name current)
  have announced := tracks_snapshot (recordOf name first)
  rw [← PortDaemon.lookup_watch_snapshot (distinct first List.mem_cons_self) daemon] at announced
  exact onward front first _ _ distinct announced

/-- Of the events about a name the exit is the last one, and only a start can precede it. -/
theorem eventsAbout_split {earlier listed : Option ContainerSnapshot} {name : String}
    {exitCode : Option Int32} {front back : List GuestEvent}
    (split : eventsAbout earlier listed = front ++ .containerExited name exitCode :: back) :
    (∃ container, earlier = none ∧ listed = some container ∧
      front = [.containerStarted container]) ∨
    (∃ container, earlier = some container) ∧ front = [] := by
  cases earlier with
  | none =>
      cases listed with
      | none => simp [eventsAbout] at split
      | some container =>
          refine Or.inl ⟨container, rfl, rfl, ?_⟩
          cases front with
          | nil => simp [eventsAbout] at split
          | cons event front =>
              rw [eventsAbout, List.cons_append] at split
              obtain ⟨rfl, rest⟩ := List.cons.inj split
              cases front with
              | nil => rfl
              | cons next front => split at rest <;> simp at rest
  | some earlier =>
      refine Or.inr ⟨⟨earlier, rfl⟩, ?_⟩
      cases front with
      | nil => rfl
      | cons event front =>
          exfalso
          cases listed with
          | none => simp [eventsAbout] at split
          | some container =>
              rw [eventsAbout] at split
              split at split
              · simp at split
              · split at split <;> simp at split

namespace ProcessedExit

variable {first : List ContainerSnapshot} {polls : List (List ContainerSnapshot)}

/-- The entry that an exit finds goes back to the first record since the announcement. -/
theorem found_eq (exit : ProcessedExit first polls)
    (distinct : ∀ reading ∈ first :: polls, DistinctNames reading) (daemon : PortDaemon) :
    (∃ container, exit.recent = some container) ∧
      exit.found daemon = exit.records.head?.bind fun container => entryFor container.ports := by
  have distinct_front : ∀ reading ∈ first :: exit.front, DistinctNames reading := by
    intro reading member
    rcases List.mem_cons.mp member with rfl | member
    · exact distinct reading List.mem_cons_self
    · exact distinct reading (List.mem_cons_of_mem first
        (exit.polled.subset (List.mem_append_left _ member)))
  have distinct_current : DistinctNames exit.current :=
    distinct _ (List.mem_cons_of_mem first (exit.polled.subset (by simp)))
  have distinct_prev : DistinctNames (lastReading first exit.front) :=
    distinct_front _ (lastReading_mem first exit.front)
  have tracks := tracks_watch distinct_front daemon exit.name
  have split := filter_diffContainerStates distinct_prev distinct_current exit.name
  rw [exit.reported, List.filter_append, List.filter_cons_of_pos (by simp [About])] at split
  have no_snapshot : ∀ containers vmRunning, .snapshot containers vmRunning ∉ exit.before :=
    fun containers vmRunning member =>
      snapshot_not_mem_diff (lastReading first exit.front) exit.current containers vmRunning
        (exit.reported ▸ List.mem_append_left _ member)
  rw [found, PortDaemon.watch_append, PortDaemon.lookup_watch no_snapshot, recent, records]
  rcases eventsAbout_split split.symm with
    ⟨container, unlisted, listed, front_eq⟩ | ⟨⟨earlier, listed_before⟩, front_eq⟩
  · have same := names_recordOf exit.name exit.current container listed
    rw [unlisted] at tracks
    rw [front_eq, unlisted, listed, tracks.entry_eq, tracks.unlisted rfl]
    refine ⟨⟨container, rfl⟩, ?_⟩
    simp only [List.foldl_cons, List.foldl_nil, ← same, noted_started]
    simp
  · rw [front_eq, listed_before, List.foldl_nil, tracks.entry_eq]
    cases listed : recordOf exit.name exit.current with
    | none => exact ⟨⟨earlier, rfl⟩, rfl⟩
    | some container =>
        refine ⟨⟨container, rfl⟩, ?_⟩
        cases recordsAfter exit.name (recordOf exit.name first).toList first exit.front <;> rfl

end ProcessedExit

/-- Whenever the watcher processes an exit there is a most recent record of the name.  It finds
nothing if an exit of the name was processed since its last announcement; otherwise it finds the
ports of the most recent record, if the record that announced it lists the same. -/
theorem exit_finds_recent_ports {first : List ContainerSnapshot}
    {polls : List (List ContainerSnapshot)}
    (distinct : ∀ reading ∈ first :: polls, DistinctNames reading)
    (exit : ProcessedExit first polls) (daemon : PortDaemon) :
    ∃ container, exit.recent = some container ∧
      (exit.records = [] → exit.found daemon = none) ∧
      (∀ announced ∈ exit.records.head?, announced.ports = container.ports →
        exit.found daemon = entryFor container.ports) := by
  obtain ⟨⟨container, recent_eq⟩, found_eq⟩ := exit.found_eq distinct daemon
  refine ⟨container, recent_eq, fun taken => ?_, fun announced is_first same => ?_⟩
  · rw [found_eq, taken]
    rfl
  · rw [found_eq, is_first, Option.bind_some, same]

/-- A container that publishes port 8080 while it runs. -/
def published (status : String) : ContainerSnapshot :=
  ⟨"web", status, 7, "/web", "t0", none, ["8080:80"]⟩

theorem stopped_container_found :
    ∃ exit : ProcessedExit [published "running"] [[published "running"], [published "exited"]],
      exit.found (.init ⟨192, 168, 105, 2⟩) = some ["8080:80"] := by
  let exit : ProcessedExit [published "running"] [[published "running"], [published "exited"]] :=
    { name := "web", exitCode := none, front := [[published "running"]]
      current := [published "exited"], before := [], after := []
      polled := List.prefix_rfl, reported := by decide }
  have distinct : ∀ reading ∈ [[published "running"], [published "running"], [published "exited"]],
      DistinctNames reading := by
    decide
  obtain ⟨container, recent_eq, -, finds⟩ :=
    exit_finds_recent_ports distinct exit (.init ⟨192, 168, 105, 2⟩)
  obtain rfl : published "exited" = container := Option.some.inj recent_eq
  exact ⟨exit, finds (published "running") rfl rfl⟩

/-- A stopped container is removed: its second exit finds nothing, although its last record lists a
port. -/
theorem removed_container_finds_nothing :
    (∀ reading ∈ [[published "running"], [published "exited"], []], DistinctNames reading) ∧
    ∃ exit : ProcessedExit [published "running"] [[published "exited"], []],
      exit.recent = some (published "exited") ∧
      exit.found (.init ⟨192, 168, 105, 2⟩) ≠ entryFor (published "exited").ports := by
  refine ⟨by decide,
    { name := "web", exitCode := none, front := [[published "exited"]], current := []
      before := [], after := [], polled := List.prefix_rfl, reported := by decide }, rfl, ?_⟩
  decide

end Pelagos.Daemon
