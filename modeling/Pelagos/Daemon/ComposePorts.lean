import Pelagos.Daemon.PortClients

/-!
# Ports of concurrent compose invocations

Invocations of `pelagos compose` for one project share one list of ports in the daemon: each
replaces the list with its own, and each releases whatever the list holds when it ends.
-/

namespace Pelagos.Daemon

open Execution

/-- The client has registrations that it has not sent as its project's list yet. -/
def Client.toTrack (client : Client) : Bool :=
  match client.phase with
  | .registering _ | .tracking => true
  | .rollingBack _ | .working | .releasing _ | .releasingProject | .aborted | .exited => false

/-- The client asked for the host port and was told `Ok`. -/
def Client.HasRegistered (client : Client) (hostPort : UInt16) : Prop :=
  ∃ forward ∈ client.registered, forward.hostPort = hostPort

/-- A compose client of the project to which no registration was refused. -/
def Client.OnCourse (project : String) (client : Client) : Prop :=
  client.kind = .compose project ∧
    match client.phase with
    | .registering _ | .tracking | .working | .releasingProject | .exited => True
    | .rollingBack _ | .releasing _ | .aborted => False

namespace PortWorld

/-- Invocations begin only for the project. -/
def InvokesOnly (project : String) : ClientAction → Prop
  | .arrive kind _ _ => kind = .compose project
  | .advance _ => True

def isRegistration : DaemonCmd → Bool
  | .registerPort _ _ => true
  | .unregisterPort _ | .trackComposeProject _ _ | .unregisterComposePorts _ => false

/-- A registration that the step sends is answered `Ok`. -/
def RegistersOk (world : PortWorld) : ClientAction → Prop
  | .arrive _ _ _ => True
  | .advance index =>
      ∀ cmd ∈ world.clients[index]?.bind Client.command?, isRegistration cmd = true →
        (world.daemon.handleDaemonCmd cmd).2 = .ok

/-- The ports tracked for a project. -/
def tracked (world : PortWorld) (project : String) : List UInt16 :=
  (world.daemon.ports.composeProjects.lookup project).getD []

/-- The port is active and was not at first. -/
def Added (before : PortDaemon) (world : PortWorld) (hostPort : UInt16) : Prop :=
  before.ports.active.lookup hostPort = none ∧
    world.daemon.ports.active.lookup hostPort ≠ none

/-- Some client other than the one at the index has still to send a list with the port. -/
def WaitedByOther (world : PortWorld) (index : Nat) (hostPort : UInt16) : Prop :=
  ∃ other waiting, other ≠ index ∧ world.clients[other]? = some waiting ∧
    waiting.toTrack = true ∧ waiting.HasRegistered hostPort

/-- A list that replaces the tracked one leaves out no port that was added, unless another
invocation has still to send a list with it. -/
def KeepsTracked (before : PortDaemon) (project : String) (world : PortWorld) :
    ClientAction → Prop
  | .arrive _ _ _ => True
  | .advance index =>
      ∀ client ∈ world.clients[index]?, client.phase = .tracking →
        ∀ hostPort ∈ world.tracked project, Added before world hostPort →
          client.HasRegistered hostPort ∨ world.WaitedByOther index hostPort

instance (client : Client) (hostPort : UInt16) : Decidable (client.HasRegistered hostPort) :=
  inferInstanceAs (Decidable (∃ forward ∈ client.registered, _))

instance (world : PortWorld) (index : Nat) (hostPort : UInt16) :
    Decidable (world.WaitedByOther index hostPort) :=
  decidable_of_iff
    (∃ other ∈ List.range world.clients.length, other ≠ index ∧
      ∃ waiting ∈ world.clients[other]?,
        waiting.toTrack = true ∧ waiting.HasRegistered hostPort) <| by
    constructor
    · rintro ⟨other, -, distinct, waiting, found, waits⟩
      exact ⟨other, waiting, distinct, found, waits⟩
    · rintro ⟨other, waiting, distinct, found, waits⟩
      have inside := (List.getElem?_eq_some_iff.mp found).1
      exact ⟨other, List.mem_range.mpr inside, distinct, waiting, found, waits⟩

instance (before : PortDaemon) (world : PortWorld) (hostPort : UInt16) :
    Decidable (Added before world hostPort) := instDecidableAnd

instance (project : String) : ∀ action : ClientAction, Decidable (InvokesOnly project action)
  | .arrive kind _ _ => inferInstanceAs (Decidable (kind = .compose project))
  | .advance _ => isTrue trivial

instance (world : PortWorld) : ∀ action : ClientAction, Decidable (world.RegistersOk action)
  | .arrive _ _ _ => isTrue trivial
  | .advance index =>
      inferInstanceAs (Decidable (∀ cmd ∈ world.clients[index]?.bind Client.command?,
        isRegistration cmd = true → (world.daemon.handleDaemonCmd cmd).2 = .ok))

instance (before : PortDaemon) (project : String) (world : PortWorld) :
    ∀ action : ClientAction, Decidable (world.KeepsTracked before project action)
  | .arrive _ _ _ => isTrue trivial
  | .advance index =>
      -- Only the listed ports are tried, not all of them.
      have (client : Client) : Decidable (∀ hostPort ∈ world.tracked project,
          Added before world hostPort →
            client.HasRegistered hostPort ∨ world.WaitedByOther index hostPort) :=
        List.decidableBAll _ _
      inferInstanceAs (Decidable (∀ client ∈ world.clients[index]?, client.phase = .tracking →
        ∀ hostPort ∈ world.tracked project, Added before world hostPort →
          client.HasRegistered hostPort ∨ world.WaitedByOther index hostPort))

/-- What holds between the commands of the invocations. -/
structure Accounted (before : PortDaemon) (project : String) (world : PortWorld) : Prop where
  onCourse : ∀ client ∈ world.clients, client.OnCourse project
  /-- A list is tracked only while an invocation is left that will release it. -/
  pending : world.daemon.ports.composeProjects.lookup project = none ∨ world.clients = [] ∨
    ∃ client ∈ world.clients, client.phase ≠ .exited
  /-- Every port that was added is tracked or will be. -/
  covered : ∀ client ∈ world.clients, ∀ hostPort, client.HasRegistered hostPort →
    Added before world hostPort → hostPort ∈ world.tracked project ∨
      ∃ waiting ∈ world.clients, waiting.toTrack = true ∧ waiting.HasRegistered hostPort

/-! ## One element of a list replaced -/

theorem exists_mem_set_iff {α : Type*} {items : List α} {index : Nat} {item next : α}
    (present : items[index]? = some item) (property : α → Prop) :
    (∃ other ∈ items.set index next, property other) ↔
      property next ∨ ∃ position other, position ≠ index ∧ items[position]? = some other ∧
        property other := by
  have inside : index < items.length := (List.getElem?_eq_some_iff.mp present).1
  constructor
  · rintro ⟨other, member, holds⟩
    obtain ⟨position, found⟩ := List.mem_iff_getElem?.mp member
    by_cases same : position = index
    · rw [same, List.getElem?_set_self inside] at found
      exact .inl (Option.some.inj found ▸ holds)
    · rw [List.getElem?_set_ne (Ne.symm same)] at found
      exact .inr ⟨position, other, same, found, holds⟩
  · rintro (holds | ⟨position, other, distinct, found, holds⟩)
    · exact ⟨next, List.mem_iff_getElem?.mpr ⟨index, List.getElem?_set_self inside⟩, holds⟩
    · refine ⟨other, List.mem_iff_getElem?.mpr ⟨position, ?_⟩, holds⟩
      rw [List.getElem?_set_ne (Ne.symm distinct), found]

/-! ## One step -/

variable {before : PortDaemon} {project : String} {world after : PortWorld} {index : Nat}
  {client next : Client}

/-- What a step of one client has to establish. -/
theorem Accounted.advance (accounted : Accounted before project world)
    (present : world.clients[index]? = some client)
    (clients_eq : after.clients = world.clients.set index next)
    (next_onCourse : next.OnCourse project)
    (pending : after.daemon.ports.composeProjects.lookup project = none ∨ next.phase ≠ .exited)
    (covered : ∀ hostPort, Added before after hostPort →
      (next.HasRegistered hostPort ∨ ∃ other ∈ world.clients, other.HasRegistered hostPort) →
      hostPort ∈ after.tracked project ∨
        (next.toTrack = true ∧ next.HasRegistered hostPort) ∨
        world.WaitedByOther index hostPort) : Accounted before project after where
  onCourse other member := by
    rw [clients_eq] at member
    rcases List.mem_or_eq_of_mem_set member with old | rfl
    · exact accounted.onCourse other old
    · exact next_onCourse
  pending := by
    refine pending.imp_right fun left => .inr ?_
    rw [clients_eq]
    exact (exists_mem_set_iff present _).mpr (.inl left)
  covered other member hostPort registered added := by
    rw [clients_eq] at member
    have someone : next.HasRegistered hostPort ∨
        ∃ other ∈ world.clients, other.HasRegistered hostPort := by
      rcases List.mem_or_eq_of_mem_set member with old | rfl
      · exact .inr ⟨other, old, registered⟩
      · exact .inl registered
    refine (covered hostPort added someone).imp_right fun waiting => ?_
    rw [clients_eq]
    exact (exists_mem_set_iff present _).mpr waiting

/-- Who covers a port before the step. -/
theorem Accounted.covered_by (accounted : Accounted before project world)
    (present : world.clients[index]? = some client) {hostPort : UInt16}
    (registered : ∃ other ∈ world.clients, other.HasRegistered hostPort)
    (added : Added before world hostPort) :
    hostPort ∈ world.tracked project ∨ (client.toTrack = true ∧ client.HasRegistered hostPort) ∨
      world.WaitedByOther index hostPort := by
  obtain ⟨other, member, asked⟩ := registered
  refine (accounted.covered other member hostPort asked added).imp_right ?_
  rintro ⟨waiting, waits, holds⟩
  obtain ⟨position, found⟩ := List.mem_iff_getElem?.mp waits
  by_cases same : position = index
  · subst same
    obtain rfl := Option.some.inj (present.symm.trans found)
    exact .inl holds
  · exact .inr ⟨position, waiting, same, found, holds⟩

/-- An invocation that arrives changes nothing for the others. -/
theorem Accounted.arrive (accounted : Accounted before project world) (startedDaemon : Bool)
    (specs : List String) :
    Accounted before project
      { world with
        clients := world.clients ++ [.start (.compose project) startedDaemon specs] } where
  onCourse other member := by
    rcases List.mem_append.mp member with old | new
    · exact accounted.onCourse other old
    · obtain rfl := List.mem_singleton.mp new
      exact ⟨rfl, trivial⟩
  pending := .inr (.inr ⟨_, List.mem_append_right _ List.mem_cons_self, by simp [Client.start]⟩)
  covered other member hostPort registered added := by
    rcases List.mem_append.mp member with old | new
    · refine (accounted.covered other old hostPort registered added).imp_right ?_
      rintro ⟨waiting, waits, holds⟩
      exact ⟨waiting, List.mem_append_left _ waits, holds⟩
    · obtain rfl := List.mem_singleton.mp new
      obtain ⟨forward, none_yet, -⟩ := registered
      cases none_yet

/-- A step that sends nothing. -/
theorem Accounted.silent (accounted : Accounted before project world)
    (present : world.clients[index]? = some client) (left : client.phase ≠ .exited)
    (silent : client.command? = none) :
    Accounted before project
      { world with clients := world.clients.set index (client.advance .ok) } := by
  have onCourse := accounted.onCourse client (List.mem_of_getElem? present)
  have same : (client.advance .ok).registered = client.registered :=
    Client.advance_registered_of_no_registration (by simp [silent])
  have stays : (client.advance .ok).OnCourse project ∧ (client.advance .ok).phase ≠ .exited ∧
      (client.toTrack = true → client.registered ≠ [] → (client.advance .ok).toTrack = true) := by
    obtain ⟨kind, startedDaemon, forwards, registered, phase⟩ := client
    obtain ⟨rfl, phase_ok⟩ := onCourse
    cases phase with
    | registering pending =>
        cases pending with
        | cons forward pending => simp [Client.command?] at silent
        | nil => cases registered <;> simp [Client.advance, Client.OnCourse, Client.toTrack]
    | working => simp [Client.advance, Client.OnCourse, Client.toTrack]
    | tracking | releasingProject => simp [Client.command?] at silent
    | exited => exact absurd rfl left
    | rollingBack pending | releasing pending | aborted => exact phase_ok.elim
  refine accounted.advance present rfl stays.1 (.inr stays.2.1) fun hostPort added asked => ?_
  have asked_before : ∃ other ∈ world.clients, other.HasRegistered hostPort := by
    rcases asked with own | others
    · exact ⟨client, List.mem_of_getElem? present, by rwa [Client.HasRegistered, ← same]⟩
    · exact others
  refine (accounted.covered_by present asked_before added).imp_right (Or.imp_left ?_)
  rintro ⟨tracks, forward, member, port_eq⟩
  exact ⟨stays.2.2 tracks (List.ne_nil_of_mem member), forward, same ▸ member, port_eq⟩

theorem composeProjects_registerPort (daemon : PortDaemon) (hostPort containerPort : UInt16) :
    (daemon.handleDaemonCmd (.registerPort hostPort containerPort)).1.ports.composeProjects =
      daemon.ports.composeProjects := by
  rw [PortDaemon.handleDaemonCmd]
  split
  · simp [PortDaemon.addForward, PortDaemon.routerAdd, PortDaemon.insertProxy, PortDaemon.setActive]
  · split <;> rfl

/-- A registration that is answered `Ok`: its sender will track the port. -/
theorem Accounted.registered (accounted : Accounted before project world)
    (present : world.clients[index]? = some client) {hostPort containerPort : UInt16}
    (sends : client.command? = some (.registerPort hostPort containerPort))
    (answered : (world.daemon.handleDaemonCmd (.registerPort hostPort containerPort)).2 = .ok)
    (daemon_eq : after.daemon =
      (world.daemon.handleDaemonCmd (.registerPort hostPort containerPort)).1)
    (clients_eq : after.clients = world.clients.set index (client.advance .ok)) :
    Accounted before project after := by
  have onCourse := accounted.onCourse client (List.mem_of_getElem? present)
  obtain ⟨pending, phase⟩ := Client.registering_of_command sends
  have advanced : client.advance .ok =
      { client with
        registered := client.registered ++ [{ hostPort, containerPort }]
        phase := .registering pending } := by
    simp [Client.advance, phase]
  rw [advanced] at clients_eq
  refine accounted.advance present clients_eq ⟨onCourse.1, trivial⟩ (.inr (by simp)) ?_
  intro other added asked
  by_cases here : other = hostPort
  · subst here
    exact .inr (.inl ⟨rfl, ⟨other, containerPort⟩, by simp, rfl⟩)
  · have active_same : after.daemon.ports.active.lookup other =
        world.daemon.ports.active.lookup other := by
      rw [daemon_eq, PortDaemon.active_registerPort_ok answered, if_neg here]
    have tracked_same : after.tracked project = world.tracked project := by
      rw [tracked, daemon_eq, composeProjects_registerPort, tracked]
    rw [Added, active_same] at added
    have asked_before : ∃ someone ∈ world.clients, someone.HasRegistered other := by
      rcases asked with ⟨forward, member, port_eq⟩ | others
      · refine ⟨client, List.mem_of_getElem? present, forward, ?_, port_eq⟩
        rcases List.mem_append.mp member with old | new
        · exact old
        · rw [List.mem_singleton.mp new] at port_eq
          exact absurd port_eq.symm here
      · exact others
    rw [tracked_same]
    refine (accounted.covered_by present asked_before added).imp_right (Or.imp_left ?_)
    rintro ⟨-, forward, member, port_eq⟩
    exact ⟨rfl, forward, List.mem_append_left _ member, port_eq⟩

/-- A list is tracked in place of the one before it. -/
theorem Accounted.tracked (accounted : Accounted before project world)
    (present : world.clients[index]? = some client) (tracking : client.phase = .tracking)
    (keeps : world.KeepsTracked before project (.advance index))
    (daemon_eq : after.daemon = (world.daemon.handleDaemonCmd
      (.trackComposeProject project (client.registered.map PortForward.hostPort))).1)
    (clients_eq : after.clients = world.clients.set index (client.advance .ok)) :
    Accounted before project after := by
  have onCourse := accounted.onCourse client (List.mem_of_getElem? present)
  have advanced : client.advance .ok = { client with phase := .working } := by
    simp [Client.advance, tracking]
  rw [advanced] at clients_eq
  refine accounted.advance present clients_eq ⟨onCourse.1, trivial⟩ (.inr (by simp)) ?_
  intro hostPort added asked
  have tracked_eq : after.tracked project = client.registered.map PortForward.hostPort := by
    rw [PortWorld.tracked, daemon_eq]
    simp [PortDaemon.handleDaemonCmd]
  have added_before : Added before world hostPort := by
    rw [Added, daemon_eq] at added
    exact added
  have asked_before : ∃ other ∈ world.clients, other.HasRegistered hostPort := by
    rcases asked with own | others
    · exact ⟨client, List.mem_of_getElem? present, own⟩
    · exact others
  have on_list (registered : client.HasRegistered hostPort) :
      hostPort ∈ after.tracked project := by
    obtain ⟨forward, member, port_eq⟩ := registered
    exact tracked_eq ▸ List.mem_map.mpr ⟨forward, member, port_eq⟩
  rcases accounted.covered_by present asked_before added_before with listed | ⟨-, own⟩ | others
  · rcases keeps client present tracking hostPort listed added_before with own | others
    · exact .inl (on_list own)
    · exact .inr (.inr others)
  · exact .inl (on_list own)
  · exact .inr (.inr others)

/-- The tracked ports are released. -/
theorem Accounted.released (accounted : Accounted before project world)
    (present : world.clients[index]? = some client) (releasing : client.phase = .releasingProject)
    (daemon_eq : after.daemon =
      (world.daemon.handleDaemonCmd (.unregisterComposePorts project)).1)
    (clients_eq : after.clients = world.clients.set index (client.advance .ok)) :
    Accounted before project after := by
  have onCourse := accounted.onCourse client (List.mem_of_getElem? present)
  have advanced : client.advance .ok = { client with phase := .exited } := by
    simp [Client.advance, releasing]
  rw [advanced] at clients_eq
  have untracked : after.daemon.ports.composeProjects.lookup project = none := by
    rw [daemon_eq, PortDaemon.handleDaemonCmd]
    split
    · assumption
    · simp [PortDaemon.foldl_releasePort]
  have active_eq (hostPort : UInt16) : after.daemon.ports.active.lookup hostPort =
      if hostPort ∈ world.tracked project then none
      else world.daemon.ports.active.lookup hostPort := by
    rw [daemon_eq, world.daemon.active_of_release (by simp)]
    rfl
  refine accounted.advance present clients_eq ⟨onCourse.1, trivial⟩ (.inl untracked) ?_
  intro hostPort added asked
  rw [Added, active_eq] at added
  have kept : hostPort ∉ world.tracked project := fun listed => added.2 (if_pos listed)
  rw [if_neg kept] at added
  have asked_before : ∃ other ∈ world.clients, other.HasRegistered hostPort := by
    rcases asked with own | others
    · exact ⟨client, List.mem_of_getElem? present, own⟩
    · exact others
  rcases accounted.covered_by present asked_before added with listed | ⟨tracks, -⟩ | others
  · exact absurd listed kept
  · rw [Client.toTrack, releasing] at tracks
    cases tracks
  · exact .inr (.inr others)

/-- What the steps of a run may do. -/
def InvocationStep (before : PortDaemon) (project : String) (world : PortWorld)
    (action : ClientAction) : Prop :=
  (InvokesOnly project action ∧ world.RegistersOk action) ∧
    world.KeepsTracked before project action

theorem Accounted.step {action : ClientAction} (accounted : Accounted before project world)
    (permitted : InvocationStep before project world action)
    (stepped : world.step action = some after) : Accounted before project after := by
  obtain ⟨⟨invoked, answered⟩, keeps⟩ := permitted
  rcases step_cases stepped with ⟨kind, startedDaemon, specs, rfl, rfl⟩ |
    ⟨index, client, rfl, present, outcome⟩
  · obtain rfl : kind = .compose project := invoked
    exact accounted.arrive startedDaemon specs
  · have left : client.phase ≠ .exited := by
      intro exited
      simp [PortWorld.step, present, exited] at stepped
    obtain ⟨kind_eq, phase_ok⟩ := accounted.onCourse client (List.mem_of_getElem? present)
    rcases outcome with ⟨silent, rfl⟩ | ⟨cmd, sends, rfl⟩
    · exact accounted.silent present left silent
    · cases phase : client.phase with
      | registering pending =>
          cases pending with
          | nil => simp [Client.command?, phase] at sends
          | cons forward pending =>
              obtain rfl : .registerPort forward.hostPort forward.containerPort = cmd := by
                simpa [Client.command?, phase] using sends
              have ok : (world.daemon.handleDaemonCmd
                  (.registerPort forward.hostPort forward.containerPort)).2 = .ok :=
                answered _ (by simp [present, sends]) rfl
              exact accounted.registered present sends ok rfl (by rw [ok])
      | tracking =>
          obtain rfl : .trackComposeProject project
              (client.registered.map PortForward.hostPort) = cmd := by
            simpa [Client.command?, phase, kind_eq] using sends
          exact accounted.tracked present phase keeps rfl rfl
      | releasingProject =>
          obtain rfl : .unregisterComposePorts project = cmd := by
            simpa [Client.command?, phase, kind_eq] using sends
          refine accounted.released present phase rfl ?_
          simp [Client.advance, phase]
      | working | exited => simp [Client.command?, phase] at sends
      | rollingBack pending | releasing pending | aborted =>
          rw [phase] at phase_ok
          exact phase_ok.elim

/-! ## Whole runs -/

theorem accounted_init (before : PortDaemon) (project : String) :
    Accounted before project { daemon := before, clients := [], preregistered := [] } where
  onCourse _ member := absurd member List.not_mem_nil
  pending := .inr (.inl rfl)
  covered _ member := absurd member List.not_mem_nil

/-- When all invocations have exited, no port that one of them registered is active, unless it was
before, provided that no list replaces one with a port that nobody else will track. -/
theorem compose_ports_released (before : PortDaemon) (project : String)
    {actions : List ClientAction} {final : PortWorld}
    (execution : run step actions { daemon := before, clients := [], preregistered := [] } =
      some final)
    (invoked : Guarded step (fun _ => InvokesOnly project) actions
      { daemon := before, clients := [], preregistered := [] })
    (answered : Guarded step RegistersOk actions
      { daemon := before, clients := [], preregistered := [] })
    (keeps : Guarded step (KeepsTracked before project) actions
      { daemon := before, clients := [], preregistered := [] })
    (completed : ∀ client ∈ final.clients, client.phase = .exited) :
    ∀ client ∈ final.clients, ∀ forward ∈ client.registered,
      before.ports.active.lookup forward.hostPort = none →
        final.daemon.ports.active.lookup forward.hostPort = none := by
  have permitted : Guarded step (InvocationStep before project) actions
      { daemon := before, clients := [], preregistered := [] } := (invoked.and answered).and keeps
  have accounted : Accounted before project final :=
    invariant_of_guarded (fun holds allowed stepped => holds.step allowed stepped)
      (accounted_init before project) permitted execution
  intro client member forward registered inactive
  by_contra active
  have untracked : final.tracked project = [] := by
    rcases accounted.pending with none_left | no_clients | ⟨other, other_member, left⟩
    · simp [PortWorld.tracked, none_left]
    · rw [no_clients] at member
      cases member
    · exact absurd (completed other other_member) left
  rcases accounted.covered client member forward.hostPort ⟨forward, registered, rfl⟩
    ⟨inactive, active⟩ with listed | ⟨waiting, waits, tracks, -⟩
  · rw [untracked] at listed
    cases listed
  · rw [Client.toTrack, completed waiting waits] at tracks
    cases tracks

/-- `compose up` with a port, and a `compose down` that ends before it. -/
def upAndDown : List ClientAction :=
  [.arrive (.compose "shop") false ["8080:80"], .advance 0, .advance 0, .advance 0,
    .arrive (.compose "shop") false [], .advance 1, .advance 1, .advance 1, .advance 0, .advance 0]

theorem port_released_by_down :
    ∃ final, run step upAndDown
        { daemon := .init ⟨192, 168, 105, 2⟩, clients := [], preregistered := [] } = some final ∧
      ∀ client ∈ final.clients, ∀ forward ∈ client.registered,
        (PortDaemon.init ⟨192, 168, 105, 2⟩).ports.active.lookup forward.hostPort = none →
          final.daemon.ports.active.lookup forward.hostPort = none := by
  obtain ⟨final, execution, completed⟩ : ∃ final, run step upAndDown
        { daemon := .init ⟨192, 168, 105, 2⟩, clients := [], preregistered := [] } = some final ∧
      ∀ client ∈ final.clients, client.phase = .exited := ⟨_, rfl, by decide⟩
  exact ⟨final, execution, compose_ports_released (.init ⟨192, 168, 105, 2⟩) "shop" execution
    (by decide) (by decide) (by decide) completed⟩

/-- Two invocations of one project, each with a port of its own. -/
def twoLists : List ClientAction :=
  [.arrive (.compose "shop") false ["8080:80"], .arrive (.compose "shop") false ["9090:90"],
    .advance 0, .advance 0, .advance 0, .advance 1, .advance 1, .advance 1,
    .advance 0, .advance 0, .advance 1, .advance 1]

theorem replaced_list_leaks :
    ¬ ∀ (before : PortDaemon) (project : String) (actions : List ClientAction) (final : PortWorld),
      run step actions { daemon := before, clients := [], preregistered := [] } = some final →
      Guarded step (fun _ => InvokesOnly project) actions
        { daemon := before, clients := [], preregistered := [] } →
      Guarded step RegistersOk actions
        { daemon := before, clients := [], preregistered := [] } →
      (∀ client ∈ final.clients, client.phase = .exited) →
      ∀ client ∈ final.clients, ∀ forward ∈ client.registered,
        before.ports.active.lookup forward.hostPort = none →
          final.daemon.ports.active.lookup forward.hostPort = none := by
  intro released
  obtain ⟨final, execution, completed, leaked⟩ : ∃ final, run step twoLists
        { daemon := .init ⟨192, 168, 105, 2⟩, clients := [], preregistered := [] } = some final ∧
      (∀ client ∈ final.clients, client.phase = .exited) ∧
      ∃ client ∈ final.clients, ∃ forward ∈ client.registered,
        final.daemon.ports.active.lookup forward.hostPort ≠ none := ⟨_, rfl, by decide, by decide⟩
  obtain ⟨client, member, forward, registered, active⟩ := leaked
  exact active (released (.init ⟨192, 168, 105, 2⟩) "shop" twoLists final execution (by decide)
    (by decide) completed client member forward registered rfl)

end PortWorld
end Pelagos.Daemon
