import Pelagos.Daemon.Ports
import Pelagos.Library.Execution

/-!
# Agreement of the active map and the proxy map

The active map and the proxy map should list the same host ports, each proxy relaying to the
recorded container port.  Registration and `UnregisterPort` keep the two together.  The release of a
compose project and the watcher's reaction to an exit take an entry out of the active map alone, and
they are the only steps that break the agreement.
-/

namespace Pelagos.Daemon
namespace PortDaemon

open Execution

/-- The container port a proxy was started with. -/
def startedWith (daemon : PortDaemon) (proxy : PortProxy) : Option UInt16 :=
  daemon.threads[proxy.thread]?.map ProxyThread.containerPort

/-- Both maps list the same host ports, and each proxy relays to the recorded container port. -/
structure TablesAgree (daemon : PortDaemon) : Prop where
  keys_eq : daemon.ports.active.keys = daemon.ports.proxies.keys
  started : ∀ hostPort containerPort proxy,
    daemon.ports.active.lookup hostPort = some containerPort →
    daemon.ports.proxies.lookup hostPort = some proxy →
    daemon.startedWith proxy = some containerPort

/-- No active port is released without its proxy. -/
def ReleasesNoActive (daemon : PortDaemon) (action : PortAction) : Prop :=
  ∀ hostPort ∈ daemon.releasedPorts action, daemon.ports.active.lookup hostPort = none

@[simp]
theorem startedWith_dropDisplaced (daemon : PortDaemon) (displaced : Option PortProxy)
    (proxy : PortProxy) :
    (daemon.dropDisplaced displaced).startedWith proxy = daemon.startedWith proxy := by
  cases displaced with
  | none => rfl
  | some dropped =>
      simp only [startedWith, dropDisplaced, dropProxy, List.getElem?_modify]
      split
      · simp [Option.map_map, Function.comp_def]
      · simp

theorem startedWith_addForward_old {daemon : PortDaemon} {proxy : PortProxy}
    {recorded : UInt16} (started : daemon.startedWith proxy = some recorded)
    (hostPort containerPort : UInt16) :
    (daemon.addForward hostPort containerPort).startedWith proxy = some recorded := by
  have bound : proxy.thread < daemon.threads.length := by
    obtain ⟨thread, found, -⟩ := Option.map_eq_some_iff.mp started
    exact (List.getElem?_eq_some_iff.mp found).1
  rw [startedWith, addForward_threads, ← startedWith, startedWith_dropDisplaced, ← started]
  simp [startedWith, routerAdd, List.getElem?_append_left bound]

theorem startedWith_addForward_new (daemon : PortDaemon) (hostPort containerPort : UInt16) :
    (daemon.addForward hostPort containerPort).startedWith
      { thread := daemon.threads.length, hostPort } = some containerPort := by
  rw [startedWith, addForward_threads, ← startedWith, startedWith_dropDisplaced]
  simp [startedWith, routerAdd]

theorem tablesAgree_init (guestIp : Ipv4Addr) : (init guestIp).TablesAgree where
  keys_eq := rfl
  started := by
    intro hostPort containerPort proxy active
    simp [init, PortState.new] at active

theorem tablesAgree_addForward {daemon : PortDaemon} (agree : daemon.TablesAgree)
    (hostPort containerPort : UInt16) :
    (daemon.addForward hostPort containerPort).TablesAgree where
  keys_eq := by
    have keys_eq := HashMap.keys_eq_iff.mp agree.keys_eq
    rw [HashMap.keys_eq_iff]
    intro other
    by_cases same : other = hostPort <;>
      simp [HashMap.lookup_insert_eq, same, keys_eq other]
  started := by
    intro other recorded proxy active stored
    rw [addForward_active, HashMap.lookup_insert_eq] at active
    rw [addForward_proxies, HashMap.lookup_insert_eq] at stored
    by_cases same : other = hostPort
    · rw [if_pos same] at active stored
      obtain rfl := Option.some.inj active
      obtain rfl := Option.some.inj stored
      exact startedWith_addForward_new daemon hostPort containerPort
    · rw [if_neg same] at active stored
      exact startedWith_addForward_old (agree.started other recorded proxy active stored) _ _

theorem tablesAgree_preregister {daemon : PortDaemon} (agree : daemon.TablesAgree)
    (forwards : List PortForward) : (daemon.preregister forwards).TablesAgree := by
  induction forwards generalizing daemon with
  | nil => exact agree
  | cons forward forwards ih =>
      exact ih (tablesAgree_addForward agree forward.hostPort forward.containerPort)

theorem tablesAgree_dropped {daemon : PortDaemon} (agree : daemon.TablesAgree)
    (hostPort : UInt16) : ((daemon.clearActive hostPort).removeProxy hostPort).TablesAgree where
  keys_eq := by
    have keys_eq := HashMap.keys_eq_iff.mp agree.keys_eq
    rw [HashMap.keys_eq_iff]
    intro other
    simp only [removeProxy, clearActive, dropDisplaced_ports, HashMap.lookup_erase_eq]
    split
    · simp
    · exact keys_eq other
  started := by
    intro other recorded proxy active stored
    simp only [removeProxy, clearActive, dropDisplaced_ports, HashMap.lookup_erase_eq]
      at active stored
    split at active
    · simp at active
    · rename_i different
      rw [if_neg different] at stored
      rw [removeProxy, startedWith_dropDisplaced]
      exact agree.started other recorded proxy active stored

/-- From an agreeing state an action leads to an agreeing state exactly when it releases no active
port without its proxy. -/
theorem releasesNoActive_iff {daemon after : PortDaemon} {action : PortAction}
    (agree : daemon.TablesAgree) (stepped : daemon.step action = some after) :
    daemon.ReleasesNoActive action ↔ after.TablesAgree := by
  obtain rfl := Option.some.inj stepped
  have keys_eq := HashMap.keys_eq_iff.mp agree.keys_eq
  generalize handled : daemon.handle action = after
  have effect : Effect daemon action after := handled ▸ handle_effect daemon action
  cases effect with
  | added nothing_released =>
      simp [ReleasesNoActive, nothing_released, tablesAgree_preregister agree]
  | dropped hostPort cause =>
      subst cause
      simp [ReleasesNoActive, releasedPorts, tablesAgree_dropped agree hostPort]
  | released composeProjects containerPorts =>
      constructor
      · intro quiet
        have active_eq : ∀ other,
            (HashMap.eraseAll (daemon.releasedPorts action) daemon.ports.active).lookup other =
              daemon.ports.active.lookup other := by
          intro other
          rw [HashMap.lookup_eraseAll]
          split
          · rename_i released
            exact (quiet other released).symm
          · rfl
        refine ⟨HashMap.keys_eq_iff.mpr fun other => ?_, ?_⟩
        · rw [active_eq]
          exact keys_eq other
        · intro other recorded proxy active stored
          rw [active_eq] at active
          exact agree.started other recorded proxy active stored
      · intro agree_after hostPort released
        have gone := (HashMap.keys_eq_iff.mp agree_after.keys_eq hostPort).mp (by
          simp [HashMap.lookup_eraseAll, released])
        exact (keys_eq hostPort).mpr gone

/-- Along any run from start-up the two maps agree in every state visited if and only if no step
releases an active port through a compose project or an exit event. -/
theorem tables_agree_iff_releases_no_active (guestIp : Ipv4Addr) (actions : List PortAction) :
    Always step TablesAgree actions (init guestIp) ↔
      Guarded step ReleasesNoActive actions (init guestIp) :=
  always_iff_guarded releasesNoActive_iff (tablesAgree_init guestIp)
    (run_total handle actions (init guestIp))

/-- Stopping a compose project leaves the proxy of its port behind. -/
theorem compose_release_leaves_proxy :
    ¬ Always step TablesAgree
      [.command (.registerPort 8080 80), .command (.trackComposeProject "app" [8080]),
        .command (.unregisterComposePorts "app")] (init ⟨192, 168, 105, 2⟩) := by
  intro always
  have agree := always _ (List.prefix_refl _) _ rfl
  exact absurd agree.keys_eq (by decide)

end PortDaemon
end Pelagos.Daemon
