import Pelagos.Daemon.Ports
import Pelagos.Library.Execution

/-!
# Listener threads behind the port forwards

A registration is answered as soon as the listener thread is spawned; the thread binds its port
later, and gives up when another thread of the daemon still holds it.  A thread told to stop holds
the port until it next accepts a connection.  The invariant of all runs says which handles, flags
and forwards belong to which threads.
-/

namespace Pelagos.Daemon

open Execution

/-- Steps of the daemon and of its listener threads. -/
inductive ListenerAction where
  /-- A command, an event or the start-up loop, under the lock. -/
  | port (action : PortAction)
  /-- A thread tries to bind its host port. -/
  | bind (thread : Nat)
  /-- A dropped handle makes its connection. -/
  | wake
  /-- Some client connects to a host port. -/
  | connect (hostPort : UInt16)
  /-- A listening thread accepts a connection. -/
  | accept (thread : Nat)
  deriving DecidableEq

/-- The action is a step of a thread, or of a client connecting to one. -/
def ListenerAction.isThread : ListenerAction → Bool
  | .port _ => false
  | .bind _ | .wake | .connect _ | .accept _ => true

namespace ProxyThread

/-- The thread owns the listening socket of its host port. -/
def holds (thread : ProxyThread) (hostPort : UInt16) : Bool :=
  thread.phase = .listening && thread.hostPort = hostPort

/-- The outcome of the one `bind`, given whether the port is free. -/
def bound (free : Bool) (thread : ProxyThread) : ProxyThread :=
  { thread with phase := if free then .listening else .stopped }

/-- One round of the accept loop: stop when the flag is set, relay otherwise. -/
def accepted (thread : ProxyThread) : ProxyThread :=
  if thread.shutdown then { thread with phase := .stopped, backlog := 0 }
  else { thread with backlog := thread.backlog - 1 }

/-- A connection to `hostPort` reaches the thread that holds it. -/
def reached (hostPort : UInt16) (thread : ProxyThread) : ProxyThread :=
  if thread.holds hostPort then { thread with backlog := thread.backlog + 1 } else thread

end ProxyThread

namespace PortDaemon

/-- Some thread holds the port. -/
def held (daemon : PortDaemon) (hostPort : UInt16) : Bool :=
  daemon.threads.any (·.holds hostPort)

/-- One connection to a host port, refused when nobody listens. -/
def connect (daemon : PortDaemon) (hostPort : UInt16) : PortDaemon :=
  { daemon with threads := daemon.threads.map (ProxyThread.reached hostPort) }

/-- One step of the daemon or of a listener thread. -/
def listenerStep (daemon : PortDaemon) : ListenerAction → Option PortDaemon
  | .port action => some (daemon.handle action)
  | .bind index =>
      match daemon.threads[index]? with
      | none => none
      | some thread =>
          if thread.phase = .starting then
            some
              { daemon with
                threads := daemon.threads.modify index (.bound (!daemon.held thread.hostPort)) }
          else none
  | .wake =>
      match daemon.wakes with
      | [] => none
      | hostPort :: wakes => some ({ daemon with wakes }.connect hostPort)
  | .connect hostPort => some (daemon.connect hostPort)
  | .accept index =>
      match daemon.threads[index]? with
      | none => none
      | some thread =>
          if thread.phase = .listening ∧ 0 < thread.backlog then
            some { daemon with threads := daemon.threads.modify index .accepted }
          else none

/-! ## How threads and handles belong together -/

/-- The invariant of all runs: handles and unflagged threads correspond, active forwards have a
handle whose thread relays to the recorded port, and no two threads hold one port. -/
structure Wired (daemon : PortDaemon) : Prop where
  guestIp_eq : ∀ thread ∈ daemon.threads, thread.guestIp = daemon.guestIp
  stored : ∀ hostPort proxy, daemon.ports.proxies.lookup hostPort = some proxy →
    ∃ thread, daemon.threads[proxy.thread]? = some thread ∧ thread.hostPort = hostPort
  unflagged_iff : ∀ (index : Nat) (thread : ProxyThread), daemon.threads[index]? = some thread →
    (thread.shutdown = false ↔
      (daemon.ports.proxies.lookup thread.hostPort).map PortProxy.thread = some index)
  active_started : ∀ hostPort containerPort,
    daemon.ports.active.lookup hostPort = some containerPort →
    ∃ proxy thread, daemon.ports.proxies.lookup hostPort = some proxy ∧
      daemon.threads[proxy.thread]? = some thread ∧ thread.containerPort = containerPort
  exclusive : ∀ (hostPort : UInt16) (index other : Nat) (thread rival : ProxyThread),
    daemon.threads[index]? = some thread → daemon.threads[other]? = some rival →
    thread.holds hostPort = true → rival.holds hostPort = true → other = index

/-- The thread loses its handle. -/
def flaggedBy (displaced : Option PortProxy) (index : Nat) (thread : ProxyThread) : ProxyThread :=
  if displaced.map PortProxy.thread = some index then { thread with shutdown := true } else thread

@[simp]
theorem flaggedBy_hostPort (displaced : Option PortProxy) (index : Nat) (thread : ProxyThread) :
    (flaggedBy displaced index thread).hostPort = thread.hostPort := by
  unfold flaggedBy
  split <;> rfl

@[simp]
theorem flaggedBy_containerPort (displaced : Option PortProxy) (index : Nat)
    (thread : ProxyThread) :
    (flaggedBy displaced index thread).containerPort = thread.containerPort := by
  unfold flaggedBy
  split <;> rfl

@[simp]
theorem flaggedBy_guestIp (displaced : Option PortProxy) (index : Nat) (thread : ProxyThread) :
    (flaggedBy displaced index thread).guestIp = thread.guestIp := by
  unfold flaggedBy
  split <;> rfl

@[simp]
theorem flaggedBy_phase (displaced : Option PortProxy) (index : Nat) (thread : ProxyThread) :
    (flaggedBy displaced index thread).phase = thread.phase := by
  unfold flaggedBy
  split <;> rfl

@[simp]
theorem flaggedBy_shutdown_eq_false (displaced : Option PortProxy) (index : Nat)
    (thread : ProxyThread) :
    (flaggedBy displaced index thread).shutdown = false ↔
      thread.shutdown = false ∧ displaced.map PortProxy.thread ≠ some index := by
  unfold flaggedBy
  split <;> rename_i displaced_here <;> simp [displaced_here]

theorem dropDisplaced_getElem? (daemon : PortDaemon) (displaced : Option PortProxy) (index : Nat) :
    (daemon.dropDisplaced displaced).threads[index]? =
      daemon.threads[index]?.map (flaggedBy displaced index) := by
  cases displaced with
  | none =>
      have unflagged : flaggedBy none index = id := by
        funext thread
        simp [flaggedBy]
      rw [unflagged, Option.map_id]
      rfl
  | some proxy =>
      have flagged : flaggedBy (some proxy) index = fun thread =>
          if proxy.thread = index then { thread with shutdown := true } else thread := by
        funext thread
        simp [flaggedBy]
      rw [flagged, dropDisplaced, dropProxy, List.getElem?_modify]
      by_cases same : proxy.thread = index <;> simp [same]

theorem Wired.hostPort_of_stored {daemon : PortDaemon} (wired : daemon.Wired)
    {hostPort : UInt16} {index : Nat} {thread : ProxyThread}
    (stored : (daemon.ports.proxies.lookup hostPort).map PortProxy.thread = some index)
    (found : daemon.threads[index]? = some thread) : thread.hostPort = hostPort := by
  obtain ⟨proxy, at_port, rfl⟩ := Option.map_eq_some_iff.mp stored
  obtain ⟨stored_thread, at_index, host_eq⟩ := wired.stored hostPort proxy at_port
  obtain rfl := Option.some.inj (found.symm.trans at_index)
  exact host_eq

/-- The threads after a registration: the old ones, the displaced handle's flagged, and a new
one. -/
theorem addForward_getElem?_eq_some {daemon : PortDaemon} (wired : daemon.Wired)
    {hostPort containerPort : UInt16} {index : Nat} {thread : ProxyThread} :
    (daemon.addForward hostPort containerPort).threads[index]? = some thread ↔
      (∃ old, daemon.threads[index]? = some old ∧
        flaggedBy (daemon.ports.proxies.lookup hostPort) index old = thread) ∨
      index = daemon.threads.length ∧
        thread = { hostPort, guestIp := daemon.guestIp, containerPort, shutdown := false,
                   phase := .starting, backlog := 0 } := by
  rw [addForward_threads, dropDisplaced_getElem?]
  by_cases old : index < daemon.threads.length
  · simp [routerAdd, List.getElem?_append_left old, old.ne]
  · have kept : (daemon.ports.proxies.lookup hostPort).map PortProxy.thread ≠ some index := by
      intro displaced
      obtain ⟨proxy, found, same⟩ := Option.map_eq_some_iff.mp displaced
      obtain ⟨thread, at_index, -⟩ := wired.stored hostPort proxy found
      exact old (same ▸ (List.getElem?_eq_some_iff.mp at_index).1)
    have absent : daemon.threads[index]? = none := List.getElem?_eq_none (Nat.le_of_not_lt old)
    rw [routerAdd, List.getElem?_append_right (Nat.le_of_not_lt old), absent]
    rcases Nat.eq_or_lt_of_le (Nat.le_of_not_lt old) with same | beyond
    · subst same
      simp [flaggedBy, kept, eq_comm]
    · have later : 1 ≤ index - daemon.threads.length := by omega
      simp [List.getElem?_eq_none, later, beyond.ne']

theorem addForward_getElem?_length {daemon : PortDaemon} (wired : daemon.Wired)
    (hostPort containerPort : UInt16) :
    (daemon.addForward hostPort containerPort).threads[daemon.threads.length]? =
      some { hostPort, guestIp := daemon.guestIp, containerPort, shutdown := false,
             phase := .starting, backlog := 0 } :=
  (addForward_getElem?_eq_some wired).mpr (.inr ⟨rfl, rfl⟩)

theorem Wired.addForward {daemon : PortDaemon} (wired : daemon.Wired)
    (hostPort containerPort : UInt16) : (daemon.addForward hostPort containerPort).Wired where
  guestIp_eq := by
    intro thread member
    obtain ⟨index, found⟩ := List.mem_iff_getElem?.mp member
    rcases (addForward_getElem?_eq_some wired).mp found with ⟨old, old_found, rfl⟩ | ⟨-, rfl⟩
    · simpa using wired.guestIp_eq old (List.mem_of_getElem? old_found)
    · simp
  stored := by
    intro other proxy found
    rw [addForward_proxies, HashMap.lookup_insert_eq] at found
    split at found
    · rename_i same
      obtain rfl := Option.some.inj found
      exact ⟨_, addForward_getElem?_length wired hostPort containerPort, same.symm⟩
    · obtain ⟨thread, at_index, host_eq⟩ := wired.stored other proxy found
      exact ⟨_, (addForward_getElem?_eq_some wired).mpr (.inl ⟨thread, at_index, rfl⟩),
        by simpa using host_eq⟩
  unflagged_iff := by
    intro index thread found
    rw [addForward_proxies, HashMap.lookup_insert_eq]
    rcases (addForward_getElem?_eq_some wired).mp found with ⟨old, old_found, rfl⟩ | ⟨rfl, rfl⟩
    · have bound := (List.getElem?_eq_some_iff.mp old_found).1
      have unflagged_iff := wired.unflagged_iff index old old_found
      rw [flaggedBy_shutdown_eq_false, flaggedBy_hostPort]
      by_cases same : old.hostPort = hostPort
      · subst same
        simp [unflagged_iff, bound.ne']
      · rw [if_neg same, unflagged_iff]
        exact and_iff_left fun displaced => same (wired.hostPort_of_stored displaced old_found)
    · simp
  active_started := by
    intro other recorded active
    rw [addForward_active, HashMap.lookup_insert_eq] at active
    rw [addForward_proxies, HashMap.lookup_insert_eq]
    by_cases same : other = hostPort
    · rw [if_pos same] at active ⊢
      obtain rfl := Option.some.inj active
      exact ⟨_, _, rfl, addForward_getElem?_length wired hostPort containerPort, rfl⟩
    · rw [if_neg same] at active ⊢
      obtain ⟨proxy, thread, stored, at_index, container_eq⟩ :=
        wired.active_started other recorded active
      exact ⟨proxy, _, stored, (addForward_getElem?_eq_some wired).mpr
        (.inl ⟨thread, at_index, rfl⟩), by simpa using container_eq⟩
  exclusive := by
    intro port index other thread rival found rival_found holds rival_holds
    simp only [ProxyThread.holds, Bool.and_eq_true, decide_eq_true_eq] at holds rival_holds
    rcases (addForward_getElem?_eq_some wired).mp found with ⟨old, old_found, rfl⟩ | ⟨-, rfl⟩
    · rcases (addForward_getElem?_eq_some wired).mp rival_found with
        ⟨old_rival, old_rival_found, rfl⟩ | ⟨-, rfl⟩
      · refine wired.exclusive port index other old old_rival old_found old_rival_found ?_ ?_
        · simpa [ProxyThread.holds] using holds
        · simpa [ProxyThread.holds] using rival_holds
      · simp at rival_holds
    · simp at holds

theorem Wired.preregister {daemon : PortDaemon} (wired : daemon.Wired)
    (forwards : List PortForward) : (daemon.preregister forwards).Wired := by
  induction forwards generalizing daemon with
  | nil => exact wired
  | cons forward forwards ih => exact ih (wired.addForward forward.hostPort forward.containerPort)

theorem Wired.dropped {daemon : PortDaemon} (wired : daemon.Wired) (hostPort : UInt16) :
    ((daemon.clearActive hostPort).removeProxy hostPort).Wired where
  guestIp_eq := by
    intro thread member
    obtain ⟨index, found⟩ := List.mem_iff_getElem?.mp member
    rw [removeProxy, dropDisplaced_getElem?] at found
    obtain ⟨old, old_found, rfl⟩ := Option.map_eq_some_iff.mp found
    simpa [removeProxy, clearActive] using wired.guestIp_eq old (List.mem_of_getElem? old_found)
  stored := by
    intro other proxy found
    simp only [removeProxy, clearActive, dropDisplaced_ports, HashMap.lookup_erase_eq] at found
    split at found
    · simp at found
    · obtain ⟨thread, at_index, host_eq⟩ := wired.stored other proxy found
      refine ⟨flaggedBy (daemon.ports.proxies.lookup hostPort) proxy.thread thread, ?_, ?_⟩
      · rw [removeProxy, dropDisplaced_getElem?]
        simp [clearActive, at_index]
      · rw [flaggedBy_hostPort, host_eq]
  unflagged_iff := by
    intro index thread found
    rw [removeProxy, dropDisplaced_getElem?] at found
    obtain ⟨old, old_found, rfl⟩ := Option.map_eq_some_iff.mp found
    have unflagged_iff := wired.unflagged_iff index old old_found
    simp only [removeProxy, clearActive, dropDisplaced_ports, HashMap.lookup_erase_eq]
    rw [flaggedBy_shutdown_eq_false, flaggedBy_hostPort]
    by_cases same : old.hostPort = hostPort
    · subst same
      simp [unflagged_iff]
    · rw [if_neg same, unflagged_iff]
      exact and_iff_left fun displaced => same (wired.hostPort_of_stored displaced old_found)
  active_started := by
    intro other recorded active
    simp only [removeProxy, clearActive, dropDisplaced_ports, HashMap.lookup_erase_eq] at active ⊢
    split at active
    · simp at active
    · rename_i different
      obtain ⟨proxy, thread, stored, at_index, container_eq⟩ :=
        wired.active_started other recorded active
      refine ⟨proxy, flaggedBy (daemon.ports.proxies.lookup hostPort) proxy.thread thread, ?_, ?_,
        by simpa using container_eq⟩
      · rw [if_neg different, stored]
      · rw [dropDisplaced_getElem?]
        simp [at_index]
  exclusive := by
    intro port index other thread rival found rival_found holds rival_holds
    rw [removeProxy, dropDisplaced_getElem?] at found rival_found
    obtain ⟨old, old_found, rfl⟩ := Option.map_eq_some_iff.mp found
    obtain ⟨old_rival, old_rival_found, rfl⟩ := Option.map_eq_some_iff.mp rival_found
    refine wired.exclusive port index other old old_rival old_found old_rival_found ?_ ?_
    · simpa [ProxyThread.holds] using holds
    · simpa [ProxyThread.holds] using rival_holds

theorem wired_init (guestIp : Ipv4Addr) : (init guestIp).Wired := by
  constructor <;> simp [init, PortState.new]

theorem Wired.handle {daemon : PortDaemon} (wired : daemon.Wired) (action : PortAction) :
    (daemon.handle action).Wired := by
  generalize handled : daemon.handle action = after
  have effect : Effect daemon action after := handled ▸ handle_effect daemon action
  cases effect with
  | added => exact wired.preregister _
  | dropped hostPort => exact wired.dropped hostPort
  | released =>
      refine ⟨wired.guestIp_eq, wired.stored, wired.unflagged_iff, ?_, wired.exclusive⟩
      intro hostPort containerPort active
      refine wired.active_started hostPort containerPort ?_
      rw [HashMap.lookup_eraseAll] at active
      split at active
      · simp at active
      · exact active

/-! ## Steps of the threads -/

/-- What a step of the threads can do to the phase of one of them. -/
inductive Turn (daemon : PortDaemon) (thread next : ProxyThread) : Prop
  | quiet (same : next.phase = thread.phase)
  | bound (starting : thread.phase = .starting) (free : daemon.held thread.hostPort = false)
      (listening : next.phase = .listening)
  | refused (starting : thread.phase = .starting) (taken : daemon.held thread.hostPort = true)
      (stopped : next.phase = .stopped)
  | ended (listening : thread.phase = .listening) (flagged : thread.shutdown = true)
      (stopped : next.phase = .stopped)

/-- A step of the threads changes phases and backlogs, and at most one thread binds. -/
structure Evolves (daemon after : PortDaemon) (change : Nat → ProxyThread → ProxyThread) :
    Prop where
  guestIp_eq : after.guestIp = daemon.guestIp
  ports_eq : after.ports = daemon.ports
  threads_eq : ∀ index, after.threads[index]? = daemon.threads[index]?.map (change index)
  job_eq : ∀ index thread, (change index thread).hostPort = thread.hostPort ∧
    (change index thread).containerPort = thread.containerPort ∧
    (change index thread).guestIp = thread.guestIp ∧
    (change index thread).shutdown = thread.shutdown
  turn : ∀ (index : Nat) (thread : ProxyThread), daemon.threads[index]? = some thread →
    Turn daemon thread (change index thread)
  one_binds : ∀ (index other : Nat) (thread rival : ProxyThread),
    (change index thread).phase ≠ thread.phase → (change other rival).phase ≠ rival.phase →
    other = index

theorem evolves_connect (daemon : PortDaemon) (hostPort : UInt16) :
    daemon.Evolves (daemon.connect hostPort) fun _ => ProxyThread.reached hostPort where
  guestIp_eq := rfl
  ports_eq := rfl
  threads_eq := by simp [connect]
  job_eq := by
    intro index thread
    unfold ProxyThread.reached
    split <;> simp
  turn := by
    intro index thread _
    refine .quiet ?_
    unfold ProxyThread.reached
    split <;> rfl
  one_binds := by
    intro index other thread rival changed
    refine absurd ?_ changed
    unfold ProxyThread.reached
    split <;> rfl

theorem evolves_modify {daemon : PortDaemon} {index : Nat} {thread : ProxyThread}
    {change : ProxyThread → ProxyThread} (found : daemon.threads[index]? = some thread)
    (job_eq : ∀ thread, (change thread).hostPort = thread.hostPort ∧
      (change thread).containerPort = thread.containerPort ∧
      (change thread).guestIp = thread.guestIp ∧ (change thread).shutdown = thread.shutdown)
    (turn : Turn daemon thread (change thread)) :
    daemon.Evolves { daemon with threads := daemon.threads.modify index change }
      fun other rival => if index = other then change rival else rival where
  guestIp_eq := rfl
  ports_eq := rfl
  threads_eq := by
    intro other
    rw [List.getElem?_modify]
    rfl
  job_eq := by
    intro other rival
    split
    · exact job_eq rival
    · exact ⟨rfl, rfl, rfl, rfl⟩
  turn := by
    intro other rival rival_found
    split
    · rename_i same
      subst same
      obtain rfl := Option.some.inj (found.symm.trans rival_found)
      exact turn
    · exact .quiet rfl
  one_binds := by
    intro first second thread rival first_changed second_changed
    have first_eq : index = first := by
      by_contra different
      simp [different] at first_changed
    have second_eq : index = second := by
      by_contra different
      simp [different] at second_changed
    exact second_eq.symm.trans first_eq

/-- Every step that is not the daemon's own evolves the threads. -/
theorem listenerStep_evolves {daemon after : PortDaemon} {action : ListenerAction}
    (isThread : action.isThread = true) (stepped : daemon.listenerStep action = some after) :
    ∃ change, daemon.Evolves after change := by
  cases action with
  | port action => simp [ListenerAction.isThread] at isThread
  | connect hostPort =>
      obtain rfl := Option.some.inj stepped
      exact ⟨_, evolves_connect daemon hostPort⟩
  | wake =>
      simp only [listenerStep] at stepped
      split at stepped
      · simp at stepped
      · rename_i hostPort wakes _
        obtain rfl := Option.some.inj stepped
        have evolves := evolves_connect daemon hostPort
        exact ⟨_, evolves.guestIp_eq, evolves.ports_eq, evolves.threads_eq, evolves.job_eq,
          evolves.turn, evolves.one_binds⟩
  | bind index =>
      simp only [listenerStep] at stepped
      split at stepped
      · simp at stepped
      · rename_i thread found
        split at stepped
        · rename_i starting
          obtain rfl := Option.some.inj stepped
          refine ⟨_, evolves_modify found (fun _ => ⟨rfl, rfl, rfl, rfl⟩) ?_⟩
          cases taken : daemon.held thread.hostPort with
          | false => exact .bound starting taken rfl
          | true => exact .refused starting taken rfl
        · simp at stepped
  | accept index =>
      simp only [listenerStep] at stepped
      split at stepped
      · simp at stepped
      · rename_i thread found
        split at stepped
        · rename_i enabled
          obtain rfl := Option.some.inj stepped
          refine ⟨_, evolves_modify found ?_ ?_⟩
          · intro other
            unfold ProxyThread.accepted
            split <;> simp
          · unfold ProxyThread.accepted
            split
            · rename_i flagged
              exact .ended enabled.1 flagged rfl
            · exact .quiet rfl
        · simp at stepped

theorem held_iff {daemon : PortDaemon} {hostPort : UInt16} :
    daemon.held hostPort = true ↔
      ∃ (index : Nat) (thread : ProxyThread), daemon.threads[index]? = some thread ∧
        thread.holds hostPort = true := by
  simp only [held, List.any_eq_true, List.mem_iff_getElem?]
  constructor
  · rintro ⟨thread, ⟨index, found⟩, holds⟩
    exact ⟨index, thread, found, holds⟩
  · rintro ⟨index, thread, found, holds⟩
    exact ⟨thread, ⟨index, found⟩, holds⟩

theorem holds_iff {thread : ProxyThread} {hostPort : UInt16} :
    thread.holds hostPort = true ↔ thread.phase = .listening ∧ thread.hostPort = hostPort := by
  simp [ProxyThread.holds]

namespace Evolves

variable {daemon after : PortDaemon} {change : Nat → ProxyThread → ProxyThread}

theorem found_before (evolves : daemon.Evolves after change) {index : Nat} {next : ProxyThread}
    (found : after.threads[index]? = some next) :
    ∃ thread, daemon.threads[index]? = some thread ∧ next = change index thread ∧
      Turn daemon thread next := by
  rw [evolves.threads_eq] at found
  obtain ⟨thread, thread_found, rfl⟩ := Option.map_eq_some_iff.mp found
  exact ⟨thread, thread_found, rfl, evolves.turn index thread thread_found⟩

theorem found_after (evolves : daemon.Evolves after change) {index : Nat} {thread : ProxyThread}
    (found : daemon.threads[index]? = some thread) :
    after.threads[index]? = some (change index thread) := by
  rw [evolves.threads_eq, found]
  rfl

/-- A thread that holds a port after the step held it before, or the port was free and only this
thread changed. -/
theorem holds_before (evolves : daemon.Evolves after change) {index : Nat} {thread : ProxyThread}
    {hostPort : UInt16} (found : daemon.threads[index]? = some thread)
    (holds : (change index thread).holds hostPort = true) :
    thread.holds hostPort = true ∨
      daemon.held hostPort = false ∧ (change index thread).phase ≠ thread.phase := by
  rw [holds_iff, (evolves.job_eq index thread).1] at holds
  rw [holds_iff]
  cases evolves.turn index thread found with
  | quiet same => exact .inl ⟨same ▸ holds.1, holds.2⟩
  | bound starting free listening => exact .inr ⟨holds.2 ▸ free, by simp [starting, listening]⟩
  | refused starting taken stopped => simp [stopped] at holds
  | ended listening flagged stopped => simp [stopped] at holds

theorem wired (evolves : daemon.Evolves after change) (wired : daemon.Wired) : after.Wired where
  guestIp_eq := by
    intro next member
    obtain ⟨index, found⟩ := List.mem_iff_getElem?.mp member
    obtain ⟨thread, thread_found, rfl, -⟩ := evolves.found_before found
    rw [(evolves.job_eq index thread).2.2.1, evolves.guestIp_eq]
    exact wired.guestIp_eq thread (List.mem_of_getElem? thread_found)
  stored := by
    intro hostPort proxy stored
    rw [evolves.ports_eq] at stored
    obtain ⟨thread, found, host_eq⟩ := wired.stored hostPort proxy stored
    exact ⟨_, evolves.found_after found, (evolves.job_eq _ thread).1.trans host_eq⟩
  unflagged_iff := by
    intro index next found
    obtain ⟨thread, thread_found, rfl, -⟩ := evolves.found_before found
    rw [(evolves.job_eq index thread).2.2.2, (evolves.job_eq index thread).1, evolves.ports_eq]
    exact wired.unflagged_iff index thread thread_found
  active_started := by
    intro hostPort containerPort active
    rw [evolves.ports_eq] at active ⊢
    obtain ⟨proxy, thread, stored, found, container_eq⟩ :=
      wired.active_started hostPort containerPort active
    exact ⟨proxy, _, stored, evolves.found_after found,
      (evolves.job_eq _ thread).2.1.trans container_eq⟩
  exclusive := by
    intro hostPort index other next rival_next found rival_found holds rival_holds
    obtain ⟨thread, thread_found, rfl, -⟩ := evolves.found_before found
    obtain ⟨rival, old_rival_found, rfl, -⟩ := evolves.found_before rival_found
    rcases evolves.holds_before thread_found holds with held | ⟨free, changed⟩
    · rcases evolves.holds_before old_rival_found rival_holds with rival_held | ⟨free, -⟩
      · exact wired.exclusive hostPort index other thread rival thread_found old_rival_found held
          rival_held
      · simp [held_iff.mpr ⟨index, thread, thread_found, held⟩] at free
    · rcases evolves.holds_before old_rival_found rival_holds with rival_held | ⟨-, rival_changed⟩
      · simp [held_iff.mpr ⟨other, rival, old_rival_found, rival_held⟩] at free
      · exact evolves.one_binds index other thread rival changed rival_changed

end Evolves

/-! ## Whole runs -/

theorem Wired.listenerStep {daemon after : PortDaemon} (wired : daemon.Wired)
    {action : ListenerAction} (stepped : daemon.listenerStep action = some after) :
    after.Wired := by
  by_cases isThread : action.isThread = true
  · obtain ⟨change, evolves⟩ := listenerStep_evolves isThread stepped
    exact evolves.wired wired
  · cases action with
    | port action =>
        obtain rfl := Option.some.inj stepped
        exact wired.handle action
    | _ => simp [ListenerAction.isThread] at isThread

/-- Handles and threads belong together in every reachable state. -/
theorem wired_of_run {guestIp : Ipv4Addr} {actions : List ListenerAction} {daemon : PortDaemon}
    (reached : run listenerStep actions (init guestIp) = some daemon) : daemon.Wired :=
  invariant_of_run (fun wired stepped => wired.listenerStep stepped) (wired_init guestIp) reached

end PortDaemon
end Pelagos.Daemon
