import Pelagos.Daemon.Ports
import Pelagos.Library.Execution

/-!
# CLI clients that share port forwards

Foreground `pelagos run` and `pelagos compose` processes register their ports with the daemon, work,
and release the ports again.  The daemon answers `Ok` to every client that asks for a mapping which
is already active, and keeps no count: one client's release takes the mapping from all of them.
-/

namespace Pelagos.Daemon

open Execution

/-- The two kinds of clients. -/
inductive ClientKind where
  | run
  | compose (project : String)
  deriving DecidableEq

/-- Where a client is in its sequence of commands. -/
inductive ClientPhase where
  /-- Registrations still to be sent. -/
  | registering (pending : List PortForward)
  /-- A compose client undoes its registrations after a refusal. -/
  | rollingBack (pending : List UInt16)
  /-- A compose client is about to send `TrackComposeProject`. -/
  | tracking
  /-- The container or the compose command runs. -/
  | working
  /-- A run client sends `UnregisterPort` for its ports. -/
  | releasing (pending : List UInt16)
  /-- A compose client is about to send `UnregisterComposePorts`. -/
  | releasingProject
  /-- A run client has exited after a refusal and has released nothing. -/
  | aborted
  | exited
  deriving DecidableEq

/-- One client process. -/
structure Client where
  kind : ClientKind
  /-- The process also started the daemon, which pre-registered the forwards of the same flags. -/
  startedDaemon : Bool
  /-- The forwards its `-p` flags ask for. -/
  forwards : List PortForward
  /-- The forwards for which it has received `Ok`. -/
  registered : List PortForward
  phase : ClientPhase
  deriving DecidableEq

namespace Client

/-- A client that has sent nothing yet. -/
def start (kind : ClientKind) (startedDaemon : Bool) (specs : List String) : Client :=
  let forwards := specs.filterMap parsePortSpec
  { kind, startedDaemon, forwards, registered := [], phase := .registering forwards }

/-- The command the client sends next, if its next step sends one. -/
def command? (client : Client) : Option DaemonCmd :=
  match client.phase with
  | .registering (forward :: _) => some (.registerPort forward.hostPort forward.containerPort)
  | .rollingBack (hostPort :: _) | .releasing (hostPort :: _) => some (.unregisterPort hostPort)
  | .tracking | .releasingProject =>
      match client.kind with
      | .run => none
      | .compose project =>
          if client.phase = .tracking then
            some (.trackComposeProject project (client.registered.map PortForward.hostPort))
          else some (.unregisterComposePorts project)
  | .registering [] | .rollingBack [] | .releasing [] | .working | .aborted | .exited => none

/-- The client after its next step, given the daemon's answer to its command. -/
def advance (client : Client) (response : DaemonResponse) : Client :=
  match client.phase with
  | .registering (forward :: pending) =>
      match response with
      | .ok =>
          { client with
            registered := client.registered ++ [forward], phase := .registering pending }
      | .err _ =>
          match client.kind with
          | .run => { client with phase := .aborted }
          | .compose _ =>
              { client with
                phase := .rollingBack (client.registered.map PortForward.hostPort) }
  | .registering [] =>
      match client.kind with
      | .run => { client with phase := .working }
      | .compose _ =>
          { client with phase := if client.registered.isEmpty then .working else .tracking }
  | .rollingBack (_ :: pending) => { client with phase := .rollingBack pending }
  | .tracking => { client with phase := .working }
  | .working =>
      match client.kind with
      | .run => { client with phase := .releasing (client.forwards.map PortForward.hostPort) }
      | .compose _ => { client with phase := .releasingProject }
  | .releasing (_ :: pending) => { client with phase := .releasing pending }
  | .rollingBack [] | .releasing [] | .releasingProject | .aborted | .exited =>
      { client with phase := .exited }

/-- The client has not begun to release what it registered. -/
def keeps (client : Client) : Bool :=
  match client.phase with
  | .registering _ | .tracking | .working | .aborted => true
  | .rollingBack _ | .releasing _ | .releasingProject | .exited => false

/-- The client relies on the forward: it was told `Ok` and has not begun to release its ports. -/
def Holds (client : Client) (forward : PortForward) : Prop :=
  client.keeps = true ∧ forward ∈ client.registered

theorem keeps_of_advance {client : Client} {response : DaemonResponse}
    (keeps : (client.advance response).keeps = true) : client.keeps = true := by
  obtain ⟨kind, startedDaemon, forwards, registered, phase⟩ := client
  cases phase with
  | rollingBack pending => cases pending <;> simp [advance, Client.keeps] at keeps
  | releasing pending => cases pending <;> simp [advance, Client.keeps] at keeps
  | releasingProject | exited => simp [advance, Client.keeps] at keeps
  | _ => rfl

/-- Only an answered registration adds to what a client has registered. -/
theorem advance_registered_of_no_registration {client : Client} {response : DaemonResponse}
    (no_registration : ∀ hostPort containerPort,
      client.command? ≠ some (.registerPort hostPort containerPort)) :
    (client.advance response).registered = client.registered := by
  obtain ⟨kind, startedDaemon, forwards, registered, phase⟩ := client
  cases phase with
  | registering pending =>
      cases pending with
      | nil => cases kind <;> rfl
      | cons forward pending => exact absurd rfl (no_registration _ _)
  | rollingBack pending => cases pending <;> rfl
  | releasing pending => cases pending <;> rfl
  | working => cases kind <;> rfl
  | _ => rfl

/-- A client that sends a registration is still registering, so it keeps what it has. -/
theorem registering_of_command {client : Client} {hostPort containerPort : UInt16}
    (sends : client.command? = some (.registerPort hostPort containerPort)) :
    ∃ pending, client.phase = .registering ({ hostPort, containerPort } :: pending) := by
  obtain ⟨kind, startedDaemon, forwards, registered, phase⟩ := client
  cases phase with
  | registering pending =>
      cases pending with
      | nil => simp [command?] at sends
      | cons forward pending =>
          obtain ⟨rfl, rfl⟩ : forward.hostPort = hostPort ∧ forward.containerPort = containerPort :=
            by simpa [command?] using sends
          exact ⟨pending, rfl⟩
  | rollingBack pending => cases pending <;> simp [command?] at sends
  | releasing pending => cases pending <;> simp [command?] at sends
  | tracking => cases kind <;> simp [command?] at sends
  | releasingProject => cases kind <;> simp [command?] at sends
  | _ => simp [command?] at sends

/-- A client that sends a release command has begun to release its ports. -/
theorem not_keeps_of_release {client : Client} {cmd : DaemonCmd} {daemon : PortDaemon}
    {hostPort : UInt16} (sends : client.command? = some cmd)
    (released : hostPort ∈ daemon.commandReleases cmd) : client.keeps = false := by
  obtain ⟨kind, startedDaemon, forwards, registered, phase⟩ := client
  cases phase with
  | registering pending =>
      cases pending with
      | nil => simp [command?] at sends
      | cons forward pending =>
          obtain rfl := Option.some.inj sends
          simp [PortDaemon.commandReleases] at released
  | tracking =>
      cases kind with
      | run => simp [command?] at sends
      | compose project =>
          obtain rfl := Option.some.inj sends
          simp [PortDaemon.commandReleases] at released
  | working | aborted => simp [command?] at sends
  | _ => rfl

/-- A refused or ordinary step gives a client nothing new to rely on. -/
theorem holds_of_advance {client : Client} {response : DaemonResponse} {forward : PortForward}
    (same : (client.advance response).registered = client.registered)
    (holds : (client.advance response).Holds forward) : client.Holds forward :=
  ⟨keeps_of_advance holds.1, same ▸ holds.2⟩

/-- After a registration the client relies on the answered forward and on what it had before. -/
theorem holds_advance_ok {client : Client} {hostPort containerPort : UInt16}
    (sends : client.command? = some (.registerPort hostPort containerPort))
    (forward : PortForward) :
    (client.advance .ok).Holds forward ↔
      client.Holds forward ∨ forward = { hostPort, containerPort } := by
  obtain ⟨pending, phase⟩ := registering_of_command sends
  simp [Holds, advance, keeps, phase]

theorem advance_registered_of_refusal {client : Client} {hostPort containerPort : UInt16}
    {message : String}
    (sends : client.command? = some (.registerPort hostPort containerPort)) :
    (client.advance (.err message)).registered = client.registered := by
  obtain ⟨pending, phase⟩ := registering_of_command sends
  cases kind : client.kind <;> simp [advance, phase, kind]

end Client

/-- The daemon, its clients, and the forwards it pre-registered that nobody has asked to release on
the daemon's behalf. -/
structure PortWorld where
  daemon : PortDaemon
  clients : List Client
  preregistered : List PortForward
  deriving DecidableEq

/-- A client arrives, or takes its next step. -/
inductive ClientAction where
  | arrive (kind : ClientKind) (startedDaemon : Bool) (specs : List String)
  | advance (index : Nat)
  deriving DecidableEq

namespace PortWorld

/-- The daemon has just registered the forwards of its own command line. -/
def init (guestIp : Ipv4Addr) (forwards : List PortForward) : PortWorld :=
  { daemon := (PortDaemon.init guestIp).preregister forwards, clients := [],
    preregistered := forwards }

/-- One step of a client, which waits for the answer to its command.  A release sent by the process
that started the daemon is a release on behalf of the pre-registered forwards, too. -/
def step (world : PortWorld) : ClientAction → Option PortWorld
  | .arrive kind startedDaemon specs =>
      some { world with clients := world.clients ++ [.start kind startedDaemon specs] }
  | .advance index =>
      match world.clients[index]? with
      | none => none
      | some client =>
          if client.phase = .aborted ∨ client.phase = .exited then none
          else
            match client.command? with
            | none => some { world with clients := world.clients.set index (client.advance .ok) }
            | some cmd =>
                let (daemon, response) := world.daemon.handleDaemonCmd cmd
                some
                  { daemon
                    clients := world.clients.set index (client.advance response)
                    preregistered :=
                      if client.startedDaemon then
                        world.preregistered.filter fun forward =>
                          forward.hostPort ∉ world.daemon.commandReleases cmd
                      else world.preregistered }

/-- Some client relies on the forward. -/
def Held (world : PortWorld) (forward : PortForward) : Prop :=
  ∃ (index : Nat) (client : Client), world.clients[index]? = some client ∧ client.Holds forward

/-- Every forward that a client relies on, and every pre-registered one whose release was not asked
for, is active. -/
def ClaimsActive (world : PortWorld) : Prop :=
  ∀ forward, world.Held forward ∨ forward ∈ world.preregistered →
    world.daemon.ports.active.lookup forward.hostPort = some forward.containerPort

/-- The host ports the command of an action takes out of the active map. -/
def releases (world : PortWorld) : ClientAction → List UInt16
  | .arrive _ _ _ => []
  | .advance index =>
      match world.clients[index]?.bind Client.command? with
      | none => []
      | some cmd => world.daemon.commandReleases cmd

/-- The action is a step of a process that started the daemon. -/
def onDaemonsBehalf (world : PortWorld) : ClientAction → Bool
  | .arrive _ _ _ => false
  | .advance index => (world.clients[index]?.map Client.startedDaemon).getD false

/-- No client relies on a port the action releases, and a pre-registered port is released on the
daemon's behalf only. -/
def ReleasesUnclaimed (world : PortWorld) (action : ClientAction) : Prop :=
  ∀ forward : PortForward, forward.hostPort ∈ world.releases action →
    ¬ world.Held forward ∧
      (forward ∈ world.preregistered → world.onDaemonsBehalf action = true)

theorem releasesUnclaimed_iff {world : PortWorld} {action : ClientAction} :
    world.ReleasesUnclaimed action ↔
      (∀ client ∈ world.clients, client.keeps = true → ∀ forward ∈ client.registered,
        forward.hostPort ∉ world.releases action) ∧
      ∀ forward ∈ world.preregistered, forward.hostPort ∈ world.releases action →
        world.onDaemonsBehalf action = true := by
  constructor
  · intro unclaimed
    refine ⟨fun client member keeps forward registered released => ?_, ?_⟩
    · obtain ⟨index, found⟩ := List.mem_iff_getElem?.mp member
      exact (unclaimed forward released).1 ⟨index, client, found, keeps, registered⟩
    · exact fun forward preregistered released => (unclaimed forward released).2 preregistered
  · rintro ⟨unheld, on_behalf⟩ forward released
    refine ⟨?_, fun preregistered => on_behalf forward preregistered released⟩
    rintro ⟨index, client, found, keeps, registered⟩
    exact unheld client (List.mem_of_getElem? found) keeps forward registered released

instance (world : PortWorld) (action : ClientAction) : Decidable (world.ReleasesUnclaimed action) :=
  decidable_of_iff _ releasesUnclaimed_iff.symm

/-- The daemon's command line asks for one container port for each host port. -/
def Consistent (forwards : List PortForward) : Prop :=
  ∀ first ∈ forwards, ∀ second ∈ forwards, first.hostPort = second.hostPort → first = second

instance (forwards : List PortForward) : Decidable (Consistent forwards) :=
  inferInstanceAs (Decidable (∀ first ∈ forwards, ∀ second ∈ forwards, _ → _))

/-! ## One step -/

/-- What one step can do. -/
theorem step_cases {before after : PortWorld} {action : ClientAction}
    (stepped : before.step action = some after) :
    (∃ kind startedDaemon specs, action = .arrive kind startedDaemon specs ∧
      after = { before with clients := before.clients ++ [.start kind startedDaemon specs] }) ∨
    ∃ index client, action = .advance index ∧ before.clients[index]? = some client ∧
      ((client.command? = none ∧
          after = { before with clients := before.clients.set index (client.advance .ok) }) ∨
        ∃ cmd, client.command? = some cmd ∧
          after =
            { daemon := (before.daemon.handleDaemonCmd cmd).1
              clients :=
                before.clients.set index (client.advance (before.daemon.handleDaemonCmd cmd).2)
              preregistered :=
                if client.startedDaemon then
                  before.preregistered.filter fun forward =>
                    forward.hostPort ∉ before.daemon.commandReleases cmd
                else before.preregistered }) := by
  cases action with
  | arrive kind startedDaemon specs =>
      exact .inl ⟨kind, startedDaemon, specs, rfl, (Option.some.inj stepped).symm⟩
  | advance index =>
      cases present : before.clients[index]? with
      | none => simp [step, present] at stepped
      | some client =>
          simp only [step, present] at stepped
          split at stepped
          · cases stepped
          · refine .inr ⟨index, client, rfl, present, ?_⟩
            cases sends : client.command? with
            | none => exact .inl ⟨rfl, by simpa [sends] using stepped.symm⟩
            | some cmd => exact .inr ⟨cmd, rfl, by simpa [sends] using stepped.symm⟩

/-- Some client other than the one at the index relies on the forward. -/
def HeldByOther (world : PortWorld) (index : Nat) (forward : PortForward) : Prop :=
  ∃ other client, other ≠ index ∧ world.clients[other]? = some client ∧ client.Holds forward

theorem held_iff {world : PortWorld} {index : Nat} {client : Client}
    (present : world.clients[index]? = some client) (forward : PortForward) :
    world.Held forward ↔ client.Holds forward ∨ world.HeldByOther index forward := by
  constructor
  · rintro ⟨other, holder, found, holds⟩
    by_cases same : other = index
    · subst same
      obtain rfl := Option.some.inj (present.symm.trans found)
      exact .inl holds
    · exact .inr ⟨other, holder, same, found, holds⟩
  · rintro (holds | ⟨other, holder, -, found, holds⟩)
    · exact ⟨index, client, present, holds⟩
    · exact ⟨other, holder, found, holds⟩

theorem held_set_iff {before after : PortWorld} {index : Nat} {client next : Client}
    (present : before.clients[index]? = some client)
    (replaced : after.clients = before.clients.set index next) (forward : PortForward) :
    after.Held forward ↔ next.Holds forward ∨ before.HeldByOther index forward := by
  have inside : index < before.clients.length := (List.getElem?_eq_some_iff.mp present).1
  have stored : after.clients[index]? = some next := by
    rw [replaced, List.getElem?_set_self inside]
  rw [held_iff stored]
  refine or_congr_right ⟨?_, ?_⟩
  · rintro ⟨other, holder, distinct, found, holds⟩
    rw [replaced, List.getElem?_set_ne (Ne.symm distinct)] at found
    exact ⟨other, holder, distinct, found, holds⟩
  · rintro ⟨other, holder, distinct, found, holds⟩
    refine ⟨other, holder, distinct, ?_, holds⟩
    rw [replaced, List.getElem?_set_ne (Ne.symm distinct), found]

theorem releases_advance {world : PortWorld} {index : Nat} {client : Client}
    (present : world.clients[index]? = some client) {cmd : DaemonCmd}
    (sends : client.command? = some cmd) :
    world.releases (.advance index) = world.daemon.commandReleases cmd := by
  simp [releases, present, sends]

/-- A step that sends no command only lets go of forwards. -/
theorem ClaimsActive.silent {before after : PortWorld} (claims : before.ClaimsActive)
    {index : Nat} {client : Client} (present : before.clients[index]? = some client)
    (silent : client.command? = none)
    (next : after = { before with clients := before.clients.set index (client.advance .ok) }) :
    after.ClaimsActive := by
  subst next
  rintro forward (held | preregistered)
  · refine claims forward (.inl ((held_iff present forward).mpr ?_))
    refine ((held_set_iff present rfl forward).mp held).imp_left ?_
    exact Client.holds_of_advance (Client.advance_registered_of_no_registration (by simp [silent]))
  · exact claims forward (.inr preregistered)

/-- A registration, answered or refused, endangers nobody: the daemon changes a mapping only where
there was none. -/
theorem ClaimsActive.registration {before after : PortWorld} (claims : before.ClaimsActive)
    {index : Nat} {client : Client} (present : before.clients[index]? = some client)
    {hostPort containerPort : UInt16}
    (sends : client.command? = some (.registerPort hostPort containerPort))
    (daemon_eq : after.daemon =
      (before.daemon.handleDaemonCmd (.registerPort hostPort containerPort)).1)
    (clients_eq : after.clients = before.clients.set index
      (client.advance (before.daemon.handleDaemonCmd (.registerPort hostPort containerPort)).2))
    (preregistered_subset : after.preregistered ⊆ before.preregistered) : after.ClaimsActive := by
  intro forward claimed
  rw [daemon_eq]
  rw [held_set_iff present clients_eq] at claimed
  cases response : (before.daemon.handleDaemonCmd (.registerPort hostPort containerPort)).2 with
  | ok =>
      rw [response, Client.holds_advance_ok sends] at claimed
      rw [PortDaemon.active_registerPort_ok response]
      have old (claimed : before.Held forward ∨ forward ∈ before.preregistered) :
          (if forward.hostPort = hostPort then some containerPort
            else before.daemon.ports.active.lookup forward.hostPort) =
            some forward.containerPort := by
        have active := claims forward claimed
        split
        · rename_i here
          rw [here] at active
          rcases PortDaemon.inactive_or_same_of_ok response with free | same
          · rw [free] at active
            cases active
          · exact same.symm.trans active
        · exact active
      rcases claimed with ((holds | rfl) | others) | preregistered
      · exact old (.inl ((held_iff present forward).mpr (.inl holds)))
      · simp
      · exact old (.inl ((held_iff present forward).mpr (.inr others)))
      · exact old (.inr (preregistered_subset preregistered))
  | err message =>
      rw [response] at claimed
      rw [PortDaemon.registerPort_refused (by simp [response])]
      rcases claimed with (holds | others) | preregistered
      · have held := Client.holds_of_advance (Client.advance_registered_of_refusal sends) holds
        exact claims forward (.inl ((held_iff present forward).mpr (.inl held)))
      · exact claims forward (.inl ((held_iff present forward).mpr (.inr others)))
      · exact claims forward (.inr (preregistered_subset preregistered))

/-- Any other command keeps the claims active exactly when it releases nothing that is claimed. -/
theorem ClaimsActive.release_iff {before after : PortWorld} (claims : before.ClaimsActive)
    {index : Nat} {client : Client} (present : before.clients[index]? = some client)
    {cmd : DaemonCmd} (sends : client.command? = some cmd)
    (no_registration : ∀ hostPort containerPort, cmd ≠ .registerPort hostPort containerPort)
    (next : after =
      { daemon := (before.daemon.handleDaemonCmd cmd).1
        clients := before.clients.set index (client.advance (before.daemon.handleDaemonCmd cmd).2)
        preregistered :=
          if client.startedDaemon then
            before.preregistered.filter fun forward =>
              forward.hostPort ∉ before.daemon.commandReleases cmd
          else before.preregistered }) :
    before.ReleasesUnclaimed (.advance index) ↔ after.ClaimsActive := by
  have same_registered : (client.advance (before.daemon.handleDaemonCmd cmd).2).registered =
      client.registered :=
    Client.advance_registered_of_no_registration (by simpa [sends] using no_registration)
  have held_after := held_set_iff present (congrArg PortWorld.clients next)
  have active_after := before.daemon.active_of_release no_registration
  have behalf : before.onDaemonsBehalf (.advance index) = client.startedDaemon := by
    simp [onDaemonsBehalf, present]
  unfold ReleasesUnclaimed
  rw [releases_advance present sends, behalf]
  constructor
  · intro unclaimed forward claimed
    have held_before (held : after.Held forward) : before.Held forward :=
      (held_iff present forward).mpr
        (((held_after forward).mp held).imp_left (Client.holds_of_advance same_registered))
    have preregistered_before (preregistered : forward ∈ after.preregistered) :
        forward ∈ before.preregistered := by
      subst next
      by_cases started : client.startedDaemon = true
      · simp only [started, if_true] at preregistered
        exact (List.mem_filter.mp preregistered).1
      · simpa [started] using preregistered
    have kept : forward.hostPort ∉ before.daemon.commandReleases cmd := by
      intro released
      obtain ⟨not_held, on_behalf⟩ := unclaimed forward released
      rcases claimed with held | preregistered
      · exact not_held (held_before held)
      · have started := on_behalf (preregistered_before preregistered)
        subst next
        simp [started, released] at preregistered
    have active := claims forward (claimed.imp held_before preregistered_before)
    subst next
    rw [active_after, if_neg kept]
    exact active
  · intro claims_after forward released
    have gone : after.daemon.ports.active.lookup forward.hostPort = none := by
      subst next
      rw [active_after, if_pos released]
    have unclaimed : ¬ (after.Held forward ∨ forward ∈ after.preregistered) := by
      intro claimed
      rw [claims_after forward claimed] at gone
      cases gone
    refine ⟨fun held => ?_, fun preregistered => ?_⟩
    · rcases (held_iff present forward).mp held with holds | others
      · have letting_go := Client.not_keeps_of_release sends released
        rw [holds.1] at letting_go
        cases letting_go
      · exact unclaimed (.inl ((held_after forward).mpr (.inr others)))
    · by_contra not_behalf
      refine unclaimed (.inr ?_)
      subst next
      simpa [not_behalf] using preregistered

/-- The guard is exactly what a step needs. -/
theorem step_claimsActive_iff {before after : PortWorld} {action : ClientAction}
    (claims : before.ClaimsActive) (stepped : before.step action = some after) :
    before.ReleasesUnclaimed action ↔ after.ClaimsActive := by
  rcases step_cases stepped with ⟨kind, startedDaemon, specs, rfl, rfl⟩ |
    ⟨index, client, rfl, present, ⟨silent, next⟩ | ⟨cmd, sends, next⟩⟩
  · refine iff_of_true (by simp [ReleasesUnclaimed, releases]) ?_
    rintro forward (⟨index, client, found, holds⟩ | preregistered)
    · have arrived := List.mem_of_getElem? found
      rcases List.mem_append.mp arrived with old | new
      · obtain ⟨position, found⟩ := List.mem_iff_getElem?.mp old
        exact claims forward (.inl ⟨position, client, found, holds⟩)
      · obtain rfl := List.mem_singleton.mp new
        simp [Client.Holds, Client.start] at holds
    · exact claims forward (.inr preregistered)
  · refine iff_of_true ?_ (claims.silent present silent next)
    simp [ReleasesUnclaimed, releases, present, silent]
  · cases cmd with
    | registerPort hostPort containerPort =>
        refine iff_of_true ?_ ?_
        · simp [ReleasesUnclaimed, releases, present, sends, PortDaemon.commandReleases]
        · subst next
          refine claims.registration present sends rfl rfl ?_
          simp [PortDaemon.commandReleases]
    | _ => exact claims.release_iff present sends (by simp) next

/-! ## Whole runs -/

/-- The last of the forwards for a host port wins. -/
theorem exists_winner {forwards : List PortForward} {forward : PortForward}
    (member : forward ∈ forwards) (daemon : PortDaemon) :
    ∃ winner ∈ forwards, winner.hostPort = forward.hostPort ∧
      (daemon.preregister forwards).ports.active.lookup forward.hostPort =
        some winner.containerPort := by
  induction forwards using List.reverseRecOn with
  | nil => cases member
  | append_singleton forwards last ih =>
      have active : (daemon.preregister (forwards ++ [last])).ports.active =
          (daemon.preregister forwards).ports.active.insert last.hostPort last.containerPort := by
        simp [PortDaemon.preregister]
      rw [active, HashMap.lookup_insert_eq]
      by_cases here : forward.hostPort = last.hostPort
      · exact ⟨last, by simp, here.symm, if_pos here⟩
      · have earlier : forward ∈ forwards := by
          rcases List.mem_append.mp member with earlier | final
          · exact earlier
          · exact absurd (congrArg PortForward.hostPort (List.mem_singleton.mp final)) here
        obtain ⟨winner, inside, same, found⟩ := ih earlier
        exact ⟨winner, List.mem_append_left _ inside, same, by rw [if_neg here, found]⟩

/-- At the start the claims are the pre-registered forwards, and they are active when no two of them
contradict each other. -/
theorem claimsActive_init_iff (guestIp : Ipv4Addr) (forwards : List PortForward) :
    (init guestIp forwards).ClaimsActive ↔ Consistent forwards := by
  constructor
  · intro claims first first_member second second_member same
    have first_active := claims first (.inr first_member)
    rw [same, claims second (.inr second_member)] at first_active
    obtain ⟨hostPort, containerPort⟩ := first
    obtain rfl : hostPort = second.hostPort := same
    obtain rfl : second.containerPort = containerPort := Option.some.inj first_active
    rfl
  · rintro consistent forward (⟨index, client, found, -⟩ | member)
    · simp [init] at found
    · obtain ⟨winner, inside, same, found⟩ := exists_winner member (.init guestIp)
      rw [consistent winner inside forward member same] at found
      exact found

/-- Along a run every relied-on forward stays active if and only if the daemon's own forwards are
consistent and no client ever releases a port that somebody else relies on. -/
theorem claims_active_throughout_iff (guestIp : Ipv4Addr) (forwards : List PortForward)
    {actions : List ClientAction} {final : PortWorld}
    (execution : run step actions (init guestIp forwards) = some final) :
    Always step ClaimsActive actions (init guestIp forwards) ↔
      Consistent forwards ∧ Guarded step ReleasesUnclaimed actions (init guestIp forwards) := by
  rw [← claimsActive_init_iff guestIp forwards]
  constructor
  · intro always
    have initially : (init guestIp forwards).ClaimsActive := always [] List.nil_prefix _ rfl
    exact ⟨initially, (always_iff_guarded step_claimsActive_iff initially execution).mp always⟩
  · rintro ⟨initially, guarded⟩
    exact (always_iff_guarded step_claimsActive_iff initially execution).mpr guarded

/-- A run that starts the daemon with port 8080, and a compose project with port 9090 beside it. -/
def separatePorts : List ClientAction :=
  [.arrive .run true ["8080:80"], .arrive (.compose "shop") false ["9090:90"],
    .advance 0, .advance 1, .advance 0, .advance 1, .advance 1, .advance 1, .advance 1,
    .advance 0, .advance 0]

theorem separate_ports_stay_active :
    ∃ final, run step separatePorts (init ⟨192, 168, 105, 2⟩ [⟨8080, 80⟩]) = some final ∧
      final.daemon.ports.active = ∅ ∧
      Always step ClaimsActive separatePorts (init ⟨192, 168, 105, 2⟩ [⟨8080, 80⟩]) := by
  obtain ⟨final, execution, emptied⟩ :
      ∃ final, run step separatePorts (init ⟨192, 168, 105, 2⟩ [⟨8080, 80⟩]) = some final ∧
        final.daemon.ports.active = ∅ := ⟨_, rfl, by decide⟩
  exact ⟨final, execution, emptied,
    (claims_active_throughout_iff _ _ execution).mpr ⟨by decide, by decide⟩⟩

/-- Two runs of the same mapping: the first one finishes while the container of the second runs. -/
def sharedPort : List ClientAction :=
  [.arrive .run false ["8080:80"], .arrive .run false ["8080:80"],
    .advance 0, .advance 1, .advance 0, .advance 1, .advance 0, .advance 0]

theorem shared_port_lost :
    ∃ final client, run step sharedPort (init ⟨192, 168, 105, 2⟩ []) = some final ∧
      final.clients[1]? = some client ∧ client.phase = .working ∧
      client.registered = [⟨8080, 80⟩] ∧
      final.daemon.ports.active.lookup 8080 = none ∧
      ¬ Always step ClaimsActive sharedPort (init ⟨192, 168, 105, 2⟩ []) := by
  obtain ⟨final, client, execution, present, working, registered, inactive⟩ :
      ∃ final client, run step sharedPort (init ⟨192, 168, 105, 2⟩ []) = some final ∧
        final.clients[1]? = some client ∧ client.phase = .working ∧
        client.registered = [⟨8080, 80⟩] ∧
        final.daemon.ports.active.lookup 8080 = none :=
    ⟨_, _, rfl, rfl, rfl, rfl, by decide⟩
  refine ⟨final, client, execution, present, working, registered, inactive, fun always => ?_⟩
  have holds : client.Holds ⟨8080, 80⟩ := by
    simp [Client.Holds, Client.keeps, working, registered]
  have active := always sharedPort List.prefix_rfl final execution ⟨8080, 80⟩
    (.inl ⟨1, client, present, holds⟩)
  rw [inactive] at active
  cases active

end PortWorld
end Pelagos.Daemon
