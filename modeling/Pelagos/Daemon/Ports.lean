import Pelagos.Library.HashMap
import Pelagos.Library.Text

/-!
# Port forwards of the VM daemon

The CLI hands its configuration to the daemon subprocess; paths are kept as the strings that the
program builds.

The daemon keeps three maps under one lock: the active forwards, the ports tracked for each compose
project, and the handles of the userspace proxies.  A proxy is a listener thread; its handle shares
the thread's shutdown flag, and dropping the handle sets the flag and then connects once to the
host port so that the thread's `accept` returns.  Commands arrive from CLI processes and lifecycle
events from the subscription watcher, which remembers the published ports of each container.
-/

namespace Pelagos.Daemon

/-- A host to container port forward. -/
structure PortForward where
  hostPort : UInt16
  containerPort : UInt16
  deriving DecidableEq

/-- Read a port number. -/
def parsePort (text : String) : Option UInt16 :=
  (Text.parseUnsigned UInt16.size text).map UInt16.ofNat

/-- Parse a `"host_port:container_port"` or bare `"port"` specification. -/
def parsePortSpec (spec : String) : Option PortForward :=
  match Text.splitn 2 ':' spec with
  | [host, container] => do
      let hostPort ← parsePort host
      let containerPort ← parsePort container
      some { hostPort, containerPort }
  | _ => (parsePort spec).map fun port => { hostPort := port, containerPort := port }

/-- A single virtiofs mount from the host to the guest. -/
structure VirtiofsShare where
  /-- Host directory to expose. -/
  hostPath : String
  /-- Mount tag, `share0`, `share1`, … -/
  tag : String
  readOnly : Bool
  /-- Absolute path inside the container where the share is mounted. -/
  containerPath : String
  deriving DecidableEq

/-- Configuration forwarded from the CLI to the daemon subprocess. -/
structure DaemonArgs where
  kernel : String
  initrd : Option String
  disk : String
  cmdline : String
  memoryMib : UInt64
  cpus : UInt64
  virtiofsShares : List VirtiofsShare
  portForwards : List PortForward
  profile : String
  /-- Secondary disk images, the first one `/dev/vdb`. -/
  extraDisks : List String
  deriving DecidableEq

/-- An IPv4 address by its octets. -/
structure Ipv4Addr where
  octet₀ : UInt8
  octet₁ : UInt8
  octet₂ : UInt8
  octet₃ : UInt8
  deriving DecidableEq

/-- Where a listener thread is in `port_proxy_loop`. -/
inductive ProxyPhase where
  | starting
  | listening
  | stopped
  deriving DecidableEq

/-- One listener thread, from its spawn on. -/
structure ProxyThread where
  hostPort : UInt16
  guestIp : Ipv4Addr
  containerPort : UInt16
  /-- The shutdown flag shared with the handle. -/
  shutdown : Bool
  phase : ProxyPhase
  /-- Connections the kernel has completed and the thread has not accepted yet. -/
  backlog : Nat
  deriving DecidableEq

/-- The handle of a proxy: the thread whose flag it shares, and the port it wakes. -/
structure PortProxy where
  thread : Nat
  hostPort : UInt16
  deriving DecidableEq

/-- Live port-forward state shared between connection handlers. -/
structure PortState where
  /-- Container port of every active forward, by host port. -/
  active : HashMap UInt16 UInt16
  /-- Host ports registered by each compose project. -/
  composeProjects : HashMap String (List UInt16)
  /-- Proxy handles by host port. -/
  proxies : HashMap UInt16 PortProxy
  deriving DecidableEq

/-- The port-forwarding part of the daemon process. -/
structure PortDaemon where
  /-- Address of the guest, fixed when the VM starts. -/
  guestIp : Ipv4Addr
  ports : PortState
  /-- Every listener thread spawned so far. -/
  threads : List ProxyThread
  /-- Host ports to which a dropped handle has still to connect. -/
  wakes : List UInt16
  /-- The watcher's map from container names to published port specifications. -/
  containerPorts : HashMap String (List String)
  deriving DecidableEq

/-- Commands handled by the daemon itself. -/
inductive DaemonCmd where
  | registerPort (hostPort containerPort : UInt16)
  | unregisterPort (hostPort : UInt16)
  | trackComposeProject (project : String) (hostPorts : List UInt16)
  | unregisterComposePorts (project : String)
  deriving DecidableEq

/-- Answer to a `DaemonCmd`. -/
inductive DaemonResponse where
  | ok
  | err (message : String)
  deriving DecidableEq

/-- The part of a container record the watcher reads. -/
structure WatchContainer where
  name : String
  ports : List String
  deriving DecidableEq

/-- Lifecycle events as the watcher deserialises them. -/
inductive WatchEvent where
  | snapshot (containers : List WatchContainer)
  | containerStarted (container : WatchContainer)
  | containerExited (name : String)
  | unknown
  deriving DecidableEq

/-- Everything that changes the port-forward state. -/
inductive PortAction where
  | preregister (forwards : List PortForward)
  | command (cmd : DaemonCmd)
  | event (event : WatchEvent)
  deriving DecidableEq

namespace PortState

/-- `PortState::new`. -/
def new : PortState := { active := ∅, composeProjects := ∅, proxies := ∅ }

end PortState

namespace PortDaemon

/-- The daemon before any port is registered. -/
def init (guestIp : Ipv4Addr) : PortDaemon :=
  { guestIp, ports := .new, threads := [], wakes := [], containerPorts := ∅ }

/-- `PortRouter::add`: start a listener thread and return its handle. -/
def routerAdd (daemon : PortDaemon) (hostPort containerPort : UInt16) : PortDaemon × PortProxy :=
  ({ daemon with
      threads := daemon.threads ++
        [{ hostPort, guestIp := daemon.guestIp, containerPort, shutdown := false,
           phase := .starting, backlog := 0 }] },
    { thread := daemon.threads.length, hostPort })

/-- `PortRouter::remove`: the handle is supposed to be dropped from the port state instead. -/
def routerRemove (daemon : PortDaemon) (_hostPort : UInt16) : PortDaemon := daemon

/-- `Drop for PortProxy`: set the flag, then connect once to the host port. -/
def dropProxy (daemon : PortDaemon) (proxy : PortProxy) : PortDaemon :=
  { daemon with
    threads := daemon.threads.modify proxy.thread fun thread => { thread with shutdown := true }
    wakes := daemon.wakes ++ [proxy.hostPort] }

/-- Drop the handle a map operation displaced, if there was one. -/
def dropDisplaced (daemon : PortDaemon) : Option PortProxy → PortDaemon
  | none => daemon
  | some proxy => daemon.dropProxy proxy

/-- `proxies.insert`, which drops the handle stored before. -/
def insertProxy (daemon : PortDaemon) (hostPort : UInt16) (proxy : PortProxy) : PortDaemon :=
  dropDisplaced
    { daemon with
      ports := { daemon.ports with proxies := daemon.ports.proxies.insert hostPort proxy } }
    (daemon.ports.proxies.lookup hostPort)

/-- `proxies.remove`, which drops the handle. -/
def removeProxy (daemon : PortDaemon) (hostPort : UInt16) : PortDaemon :=
  dropDisplaced
    { daemon with ports := { daemon.ports with proxies := daemon.ports.proxies.erase hostPort } }
    (daemon.ports.proxies.lookup hostPort)

/-- `active.insert`. -/
def setActive (daemon : PortDaemon) (hostPort containerPort : UInt16) : PortDaemon :=
  { daemon with
    ports := { daemon.ports with active := daemon.ports.active.insert hostPort containerPort } }

/-- `active.remove`. -/
def clearActive (daemon : PortDaemon) (hostPort : UInt16) : PortDaemon :=
  { daemon with ports := { daemon.ports with active := daemon.ports.active.erase hostPort } }

/-- Start a proxy and record the forward in both maps. -/
def addForward (daemon : PortDaemon) (hostPort containerPort : UInt16) : PortDaemon :=
  let (started, proxy) := daemon.routerAdd hostPort containerPort
  (started.insertProxy hostPort proxy).setActive hostPort containerPort

/-- Release a port the way compose and the watcher do: from `active`, and through the router. -/
def releasePort (daemon : PortDaemon) (hostPort : UInt16) : PortDaemon :=
  match daemon.ports.active.lookup hostPort with
  | none => daemon
  | some _ => (daemon.clearActive hostPort).routerRemove hostPort

/-- Execute a command under the lock and compute its answer. -/
def handleDaemonCmd (daemon : PortDaemon) : DaemonCmd → PortDaemon × DaemonResponse
  | .registerPort hostPort containerPort =>
      match daemon.ports.active.lookup hostPort with
      | none => (daemon.addForward hostPort containerPort, .ok)
      | some existing =>
          if existing = containerPort then (daemon, .ok)
          else
            (daemon,
              .err s!"port {hostPort} is already registered to container port {existing}")
  | .unregisterPort hostPort =>
      match daemon.ports.active.lookup hostPort with
      | none => (daemon, .ok)
      | some _ => ((daemon.clearActive hostPort).removeProxy hostPort, .ok)
  | .trackComposeProject project hostPorts =>
      ({ daemon with
          ports :=
            { daemon.ports with
              composeProjects := daemon.ports.composeProjects.insert project hostPorts } }, .ok)
  | .unregisterComposePorts project =>
      match daemon.ports.composeProjects.lookup project with
      | none => (daemon, .ok)
      | some hostPorts =>
          (hostPorts.foldl releasePort
            { daemon with
              ports :=
                { daemon.ports with
                  composeProjects := daemon.ports.composeProjects.erase project } }, .ok)

/-- The host ports a list of specifications publishes; unreadable ones are skipped. -/
def publishedPorts (specs : List String) : List UInt16 :=
  (specs.filterMap parsePortSpec).map PortForward.hostPort

/-- Record a container in the watcher's map unless it publishes nothing. -/
def noteContainer (containerPorts : HashMap String (List String)) (container : WatchContainer) :
    HashMap String (List String) :=
  if container.ports.isEmpty then containerPorts
  else containerPorts.insert container.name container.ports

/-- The watcher's handling of one event. -/
def handleWatchEvent (daemon : PortDaemon) : WatchEvent → PortDaemon
  | .snapshot containers =>
      { daemon with containerPorts := containers.foldl noteContainer ∅ }
  | .containerStarted container =>
      { daemon with containerPorts := noteContainer daemon.containerPorts container }
  | .containerExited name =>
      match daemon.containerPorts.lookup name with
      | none => daemon
      | some specs =>
          (publishedPorts specs).foldl releasePort
            { daemon with containerPorts := daemon.containerPorts.erase name }
  | .unknown => daemon

/-- The start-up loop over the forwards requested on the command line. -/
def preregister (daemon : PortDaemon) (forwards : List PortForward) : PortDaemon :=
  forwards.foldl (fun daemon forward => daemon.addForward forward.hostPort forward.containerPort)
    daemon

/-- One change of the port-forward state. -/
def handle (daemon : PortDaemon) : PortAction → PortDaemon
  | .preregister forwards => daemon.preregister forwards
  | .command cmd => (daemon.handleDaemonCmd cmd).1
  | .event event => daemon.handleWatchEvent event

/-- `handle` as a step that is always enabled. -/
def step (daemon : PortDaemon) (action : PortAction) : Option PortDaemon :=
  some (daemon.handle action)

/-! ## Effects of the operations -/

section Effects

variable (daemon : PortDaemon) (hostPort containerPort : UInt16)

@[simp]
theorem dropDisplaced_ports (displaced : Option PortProxy) :
    (daemon.dropDisplaced displaced).ports = daemon.ports := by
  cases displaced <;> rfl

@[simp]
theorem dropDisplaced_guestIp (displaced : Option PortProxy) :
    (daemon.dropDisplaced displaced).guestIp = daemon.guestIp := by
  cases displaced <;> rfl

@[simp]
theorem addForward_guestIp :
    (daemon.addForward hostPort containerPort).guestIp = daemon.guestIp := by
  simp [addForward, routerAdd, insertProxy, setActive]

@[simp]
theorem addForward_active :
    (daemon.addForward hostPort containerPort).ports.active =
      daemon.ports.active.insert hostPort containerPort := by
  simp [addForward, routerAdd, insertProxy, setActive]

@[simp]
theorem addForward_proxies :
    (daemon.addForward hostPort containerPort).ports.proxies =
      daemon.ports.proxies.insert hostPort { thread := daemon.threads.length, hostPort } := by
  simp [addForward, routerAdd, insertProxy, setActive]

/-- The threads after a registration: one more, and the displaced handle's thread is stopped. -/
theorem addForward_threads :
    (daemon.addForward hostPort containerPort).threads =
      (dropDisplaced (daemon.routerAdd hostPort containerPort).1
        (daemon.ports.proxies.lookup hostPort)).threads := by
  cases displaced : daemon.ports.proxies.lookup hostPort <;>
    simp [addForward, insertProxy, setActive, routerAdd, displaced, dropDisplaced, dropProxy]

/-- Releasing ports through compose or the watcher changes the active map and nothing else. -/
theorem foldl_releasePort (hostPorts : List UInt16) :
    hostPorts.foldl releasePort daemon =
      { daemon with
        ports := { daemon.ports with
          active := HashMap.eraseAll hostPorts daemon.ports.active } } := by
  induction hostPorts generalizing daemon with
  | nil => rfl
  | cons hostPort hostPorts ih =>
      have released : daemon.releasePort hostPort = daemon.clearActive hostPort := by
        unfold releasePort
        split
        · rename_i absent
          simp [clearActive, HashMap.erase_of_lookup_eq_none absent]
        · rfl
      rw [List.foldl_cons, ih, released]
      rfl

/-- The ports an action takes out of the active map without dropping their proxies. -/
def releasedPorts : PortAction → List UInt16
  | .command (.unregisterComposePorts project) =>
      (daemon.ports.composeProjects.lookup project).getD []
  | .event (.containerExited name) =>
      publishedPorts ((daemon.containerPorts.lookup name).getD [])
  | .preregister _ | .command _ | .event _ => []

/-- The forwards for which an action starts a proxy. -/
def startedForwards : PortAction → List PortForward
  | .preregister forwards => forwards
  | .command (.registerPort hostPort containerPort) =>
      match daemon.ports.active.lookup hostPort with
      | none => [{ hostPort, containerPort }]
      | some _ => []
  | .command _ | .event _ => []

end Effects

/-- What one action does to the active map and to the proxies. -/
inductive Effect (daemon : PortDaemon) (action : PortAction) : PortDaemon → Prop
  /-- Forwards are added one after the other, each with a new thread. -/
  | added (nothing_released : daemon.releasedPorts action = []) :
      Effect daemon action (daemon.preregister (daemon.startedForwards action))
  /-- A forward is removed together with its proxy. -/
  | dropped (hostPort : UInt16) (cause : action = .command (.unregisterPort hostPort)) :
      Effect daemon action ((daemon.clearActive hostPort).removeProxy hostPort)
  /-- Forwards are removed and their proxies stay; the bookkeeping maps may change as well. -/
  | released (composeProjects : HashMap String (List UInt16))
      (containerPorts : HashMap String (List String)) :
      Effect daemon action
        { daemon with
          ports :=
            { daemon.ports with
              active := HashMap.eraseAll (daemon.releasedPorts action) daemon.ports.active
              composeProjects }
          containerPorts }

/-- Every action has one of three effects. -/
theorem handle_effect (daemon : PortDaemon) (action : PortAction) :
    Effect daemon action (daemon.handle action) := by
  have unchanged : ∀ quiet, daemon.releasedPorts quiet = [] → Effect daemon quiet daemon := by
    intro quiet nothing_released
    have effect : Effect daemon quiet _ :=
      .released daemon.ports.composeProjects daemon.containerPorts
    simpa [nothing_released, HashMap.eraseAll] using effect
  cases action with
  | preregister forwards => exact .added rfl
  | event event =>
      cases event with
      | snapshot containers => exact .released daemon.ports.composeProjects _
      | containerStarted container => exact .released daemon.ports.composeProjects _
      | unknown => exact unchanged _ rfl
      | containerExited name =>
          cases tracked : daemon.containerPorts.lookup name with
          | none =>
              have effect := unchanged (.event (.containerExited name))
                (by simp [releasedPorts, publishedPorts, tracked])
              simpa [handle, handleWatchEvent, tracked] using effect
          | some specs =>
              have effect : Effect daemon (.event (.containerExited name)) _ :=
                .released daemon.ports.composeProjects (daemon.containerPorts.erase name)
              simpa [handle, handleWatchEvent, foldl_releasePort, releasedPorts, tracked]
                using effect
  | command cmd =>
      cases cmd with
      | registerPort hostPort containerPort =>
          cases active : daemon.ports.active.lookup hostPort with
          | none =>
              have effect : Effect daemon (.command (.registerPort hostPort containerPort)) _ :=
                .added rfl
              simpa [handle, handleDaemonCmd, preregister, startedForwards, active] using effect
          | some existing =>
              have effect := unchanged (.command (.registerPort hostPort containerPort)) rfl
              by_cases same : existing = containerPort <;>
                simpa [handle, handleDaemonCmd, active, same] using effect
      | unregisterPort hostPort =>
          cases active : daemon.ports.active.lookup hostPort with
          | none =>
              have effect := unchanged (.command (.unregisterPort hostPort)) rfl
              simpa [handle, handleDaemonCmd, active] using effect
          | some existing =>
              have effect : Effect daemon (.command (.unregisterPort hostPort)) _ :=
                .dropped hostPort rfl
              simpa [handle, handleDaemonCmd, active] using effect
      | trackComposeProject project hostPorts => exact .released _ daemon.containerPorts
      | unregisterComposePorts project =>
          cases tracked : daemon.ports.composeProjects.lookup project with
          | none =>
              have effect := unchanged (.command (.unregisterComposePorts project))
                (by simp [releasedPorts, tracked])
              simpa [handle, handleDaemonCmd, tracked] using effect
          | some hostPorts =>
              have effect : Effect daemon (.command (.unregisterComposePorts project)) _ :=
                .released (daemon.ports.composeProjects.erase project) daemon.containerPorts
              simpa [handle, handleDaemonCmd, foldl_releasePort, releasedPorts, tracked]
                using effect

/-! ## Commands and the active map -/

/-- A registration answered `Ok` makes the forward active and touches no other port. -/
theorem active_registerPort_ok {daemon : PortDaemon} {hostPort containerPort : UInt16}
    (answered : (daemon.handleDaemonCmd (.registerPort hostPort containerPort)).2 = .ok)
    (other : UInt16) :
    (daemon.handleDaemonCmd (.registerPort hostPort containerPort)).1.ports.active.lookup other =
      if other = hostPort then some containerPort else daemon.ports.active.lookup other := by
  cases active : daemon.ports.active.lookup hostPort with
  | none => simp [handleDaemonCmd, active, HashMap.lookup_insert_eq]
  | some existing =>
      by_cases same : existing = containerPort
      · by_cases here : other = hostPort
        · subst here
          simp [handleDaemonCmd, active, same]
        · simp [handleDaemonCmd, active, same, here]
      · simp [handleDaemonCmd, active, same] at answered

/-- A registration answered `Ok` found the port free or with the same container port. -/
theorem inactive_or_same_of_ok {daemon : PortDaemon} {hostPort containerPort : UInt16}
    (answered : (daemon.handleDaemonCmd (.registerPort hostPort containerPort)).2 = .ok) :
    daemon.ports.active.lookup hostPort = none ∨
      daemon.ports.active.lookup hostPort = some containerPort := by
  cases active : daemon.ports.active.lookup hostPort with
  | none => exact .inl rfl
  | some existing =>
      by_cases same : existing = containerPort
      · exact .inr (by rw [same])
      · simp [handleDaemonCmd, active, same] at answered

/-- A refused registration changes nothing. -/
theorem registerPort_refused {daemon : PortDaemon} {hostPort containerPort : UInt16}
    (refused : (daemon.handleDaemonCmd (.registerPort hostPort containerPort)).2 ≠ .ok) :
    (daemon.handleDaemonCmd (.registerPort hostPort containerPort)).1 = daemon := by
  cases active : daemon.ports.active.lookup hostPort with
  | none => simp [handleDaemonCmd, active] at refused
  | some existing =>
      by_cases same : existing = containerPort <;> simp [handleDaemonCmd, active, same]

/-- The host ports a command takes out of the active map. -/
def commandReleases (daemon : PortDaemon) : DaemonCmd → List UInt16
  | .unregisterPort hostPort => [hostPort]
  | .unregisterComposePorts project => (daemon.ports.composeProjects.lookup project).getD []
  | .registerPort _ _ | .trackComposeProject _ _ => []

/-- Every other command only removes what it releases. -/
theorem active_of_release (daemon : PortDaemon) {cmd : DaemonCmd}
    (no_registration : ∀ hostPort containerPort, cmd ≠ .registerPort hostPort containerPort)
    (other : UInt16) :
    (daemon.handleDaemonCmd cmd).1.ports.active.lookup other =
      if other ∈ daemon.commandReleases cmd then none else daemon.ports.active.lookup other := by
  cases cmd with
  | registerPort hostPort containerPort => exact absurd rfl (no_registration _ _)
  | trackComposeProject project hostPorts => simp [handleDaemonCmd, commandReleases]
  | unregisterPort hostPort =>
      cases active : daemon.ports.active.lookup hostPort with
      | none =>
          by_cases here : other = hostPort
          · subst here
            simp [handleDaemonCmd, commandReleases, active]
          · simp [handleDaemonCmd, commandReleases, active, here]
      | some existing =>
          simp [handleDaemonCmd, commandReleases, active, removeProxy, clearActive,
            HashMap.lookup_erase_eq]
  | unregisterComposePorts project =>
      cases tracked : daemon.ports.composeProjects.lookup project with
      | none => simp [handleDaemonCmd, commandReleases, tracked]
      | some hostPorts =>
          simp [handleDaemonCmd, commandReleases, tracked, foldl_releasePort,
            HashMap.lookup_eraseAll]

end PortDaemon
end Pelagos.Daemon
