import Mathlib.Algebra.GroupWithZero.Nat
import Pelagos.Daemon.ProxyThreads

/-!
# Registered ports end up served

A registered port ends up served, however the threads are scheduled, exactly when no earlier thread
of the port is still alive at the registration, or when the forward is already active and its own
thread can no longer lose the port.
-/

namespace Pelagos.Daemon

open Execution

namespace PortDaemon

/-- No thread has anything left to do. -/
def Idle (daemon : PortDaemon) : Prop :=
  daemon.wakes = [] ∧
    ∀ thread ∈ daemon.threads,
      thread.phase ≠ .starting ∧ (thread.phase = .listening → thread.backlog = 0)

/-- Exactly one thread holds the port; it is not told to stop and relays to `containerPort`. -/
def Serves (daemon : PortDaemon) (hostPort containerPort : UInt16) : Prop :=
  ∃ (index : Nat) (thread : ProxyThread),
    daemon.threads[index]? = some thread ∧ thread.holds hostPort = true ∧
    thread.shutdown = false ∧ thread.guestIp = daemon.guestIp ∧
    thread.containerPort = containerPort ∧
    ∀ (other : Nat) (rival : ProxyThread), daemon.threads[other]? = some rival →
      rival.holds hostPort = true → other = index

/-- The command, event or start-up loop starts or releases the port. -/
def Concerns (daemon : PortDaemon) (hostPort : UInt16) : ListenerAction → Prop
  | .port (.preregister forwards) => ∃ forward ∈ forwards, forward.hostPort = hostPort
  | .port (.command (.registerPort other _)) => other = hostPort
  | .port (.command (.unregisterPort other)) => other = hostPort
  | .port action => hostPort ∈ daemon.releasedPorts action
  | .bind _ | .wake | .connect _ | .accept _ => False

/-- However the run goes on, as long as nothing concerns the port: once the threads are idle, the
port is served. -/
def ServedWhenIdle (daemon : PortDaemon) (hostPort containerPort : UInt16) : Prop :=
  ∀ later final, Guarded listenerStep (fun daemon action => ¬ daemon.Concerns hostPort action)
      later daemon →
    run listenerStep later daemon = some final → final.Idle → final.Serves hostPort containerPort

/-- Every thread ever started for the port, except possibly the one at `index`, has ended. -/
def OthersStopped (daemon : PortDaemon) (hostPort : UInt16) (index : Nat) : Prop :=
  ∀ (other : Nat) (rival : ProxyThread), daemon.threads[other]? = some rival →
    rival.hostPort = hostPort → rival.phase ≠ .stopped → other = index

/-- The forward's own thread holds the port, or nobody can take the port from it any more. -/
def Secure (daemon : PortDaemon) (hostPort containerPort : UInt16) : Prop :=
  ∃ (index : Nat) (thread : ProxyThread),
    daemon.threads[index]? = some thread ∧ thread.hostPort = hostPort ∧
    thread.containerPort = containerPort ∧ thread.shutdown = false ∧
    (thread.phase = .listening ∨
      thread.phase = .starting ∧ daemon.OthersStopped hostPort index)

/-- A registration of the port cannot be lost: a new port has no thread left that is alive, the
thread of an active one is secure. -/
def Ready (daemon : PortDaemon) (hostPort : UInt16) : Prop :=
  match daemon.ports.active.lookup hostPort with
  | none => ∀ thread ∈ daemon.threads, thread.hostPort = hostPort → thread.phase = .stopped
  | some containerPort => daemon.Secure hostPort containerPort

/-! ## Steps of the threads -/

namespace Evolves

variable {daemon after : PortDaemon} {change : Nat → ProxyThread → ProxyThread}

theorem othersStopped (evolves : daemon.Evolves after change) {hostPort : UInt16} {index : Nat}
    (others : daemon.OthersStopped hostPort index) : after.OthersStopped hostPort index := by
  intro other next found host_eq alive
  obtain ⟨rival, rival_found, rfl, turn⟩ := evolves.found_before found
  rw [(evolves.job_eq other rival).1] at host_eq
  refine others other rival rival_found host_eq fun stopped => alive ?_
  cases turn with
  | quiet same => exact same.trans stopped
  | bound starting => simp [starting] at stopped
  | refused _ _ stopped => exact stopped
  | ended _ _ stopped => exact stopped

/-- A thread that nobody can race keeps its port or gets it. -/
theorem secure (evolves : daemon.Evolves after change) {hostPort containerPort : UInt16}
    (secure : daemon.Secure hostPort containerPort) : after.Secure hostPort containerPort := by
  obtain ⟨index, thread, found, host_eq, container_eq, unflagged, position⟩ := secure
  obtain ⟨kept_host, kept_container, -, kept_flag⟩ := evolves.job_eq index thread
  refine ⟨index, change index thread, evolves.found_after found, kept_host.trans host_eq,
    kept_container.trans container_eq, kept_flag.trans unflagged, ?_⟩
  rcases position with listening | ⟨starting, others⟩
  · cases evolves.turn index thread found with
    | quiet same => exact .inl (same.trans listening)
    | bound starting => simp [listening] at starting
    | refused starting => simp [listening] at starting
    | ended _ flagged => simp [unflagged] at flagged
  · cases evolves.turn index thread found with
    | quiet same => exact .inr ⟨same.trans starting, evolves.othersStopped others⟩
    | bound _ _ listening => exact .inl listening
    | refused _ taken =>
        obtain ⟨other, rival, rival_found, holds⟩ := held_iff.mp taken
        rw [holds_iff] at holds
        obtain rfl := others other rival rival_found (holds.2.trans host_eq) (by simp [holds.1])
        obtain rfl := Option.some.inj (found.symm.trans rival_found)
        simp [starting] at holds
    | ended listening => simp [starting] at listening

end Evolves

/-! ## Steps of the daemon that do not concern a port -/

/-- The two states have the same threads for the port. -/
def SameThreads (daemon after : PortDaemon) (hostPort : UInt16) : Prop :=
  ∀ (index : Nat) (thread : ProxyThread), thread.hostPort = hostPort →
    (after.threads[index]? = some thread ↔ daemon.threads[index]? = some thread)

theorem Wired.flaggedBy_other {daemon : PortDaemon} (wired : daemon.Wired)
    {hostPort : UInt16} {index : Nat} {thread : ProxyThread}
    (found : daemon.threads[index]? = some thread) (different : thread.hostPort ≠ hostPort) :
    flaggedBy (daemon.ports.proxies.lookup hostPort) index thread = thread := by
  refine if_neg fun stored => different ?_
  exact wired.hostPort_of_stored stored found

theorem Wired.sameThreads_addForward {daemon : PortDaemon} (wired : daemon.Wired)
    {hostPort other : UInt16} (different : other ≠ hostPort) (containerPort : UInt16) :
    daemon.SameThreads (daemon.addForward other containerPort) hostPort := by
  intro index thread host_eq
  rw [addForward_getElem?_eq_some wired]
  constructor
  · rintro (⟨old, found, rfl⟩ | ⟨-, rfl⟩)
    · rw [flaggedBy_hostPort] at host_eq
      rwa [wired.flaggedBy_other found (host_eq.trans_ne different.symm)]
    · exact absurd host_eq different
  · intro found
    exact .inl ⟨thread, found, wired.flaggedBy_other found (host_eq.trans_ne different.symm)⟩

theorem Wired.sameThreads_preregister {daemon : PortDaemon} (wired : daemon.Wired)
    {hostPort : UInt16} {forwards : List PortForward}
    (different : ∀ forward ∈ forwards, forward.hostPort ≠ hostPort) :
    daemon.SameThreads (daemon.preregister forwards) hostPort := by
  induction forwards generalizing daemon with
  | nil => exact fun _ _ _ => Iff.rfl
  | cons forward forwards ih =>
      intro index thread host_eq
      have later := ih (wired.addForward forward.hostPort forward.containerPort)
        fun other member => different other (List.mem_cons_of_mem forward member)
      have first := wired.sameThreads_addForward (different forward List.mem_cons_self)
        forward.containerPort
      exact (later index thread host_eq).trans (first index thread host_eq)

theorem Wired.sameThreads_dropped {daemon : PortDaemon} (wired : daemon.Wired)
    {hostPort other : UInt16} (different : other ≠ hostPort) :
    daemon.SameThreads ((daemon.clearActive other).removeProxy other) hostPort := by
  intro index thread host_eq
  rw [removeProxy, dropDisplaced_getElem?, Option.map_eq_some_iff]
  constructor
  · rintro ⟨old, found, rfl⟩
    rw [flaggedBy_hostPort] at host_eq
    exact (wired.flaggedBy_other found (host_eq.trans_ne different.symm)).symm ▸ found
  · intro found
    exact ⟨thread, found, wired.flaggedBy_other found (host_eq.trans_ne different.symm)⟩

theorem Wired.sameThreads_handle {daemon : PortDaemon} (wired : daemon.Wired)
    {hostPort : UInt16} {action : PortAction}
    (unconcerned : ¬ daemon.Concerns hostPort (.port action)) :
    daemon.SameThreads (daemon.handle action) hostPort := by
  generalize handled : daemon.handle action = after
  have effect : Effect daemon action after := handled ▸ handle_effect daemon action
  cases effect with
  | added =>
      refine wired.sameThreads_preregister ?_
      intro forward member same
      refine unconcerned ?_
      cases action with
      | preregister forwards => exact ⟨forward, member, same⟩
      | event event => simp [startedForwards] at member
      | command cmd =>
          cases cmd with
          | registerPort other containerPort =>
              simp only [startedForwards] at member
              split at member
              · obtain rfl := List.mem_singleton.mp member
                exact same
              · simp at member
          | _ => simp [startedForwards] at member
  | dropped other cause =>
      subst cause
      exact wired.sameThreads_dropped unconcerned
  | released => exact fun _ _ _ => Iff.rfl

theorem SameThreads.secure {daemon after : PortDaemon} {hostPort containerPort : UInt16}
    (same : daemon.SameThreads after hostPort) (secure : daemon.Secure hostPort containerPort) :
    after.Secure hostPort containerPort := by
  obtain ⟨index, thread, found, host_eq, container_eq, unflagged, position⟩ := secure
  refine ⟨index, thread, (same index thread host_eq).mpr found, host_eq, container_eq, unflagged,
    position.imp_right fun ⟨starting, others⟩ => ⟨starting, ?_⟩⟩
  intro other rival rival_found rival_host alive
  exact others other rival ((same other rival rival_host).mp rival_found) rival_host alive

/-! ## Whole runs -/

theorem Secure.listenerStep {daemon after : PortDaemon} {hostPort containerPort : UInt16}
    (secure : daemon.Secure hostPort containerPort) (wired : daemon.Wired)
    {action : ListenerAction} (unconcerned : ¬ daemon.Concerns hostPort action)
    (stepped : daemon.listenerStep action = some after) :
    after.Secure hostPort containerPort := by
  by_cases isThread : action.isThread = true
  · obtain ⟨change, evolves⟩ := listenerStep_evolves isThread stepped
    exact evolves.secure secure
  · cases action with
    | port action =>
        obtain rfl := Option.some.inj stepped
        exact (wired.sameThreads_handle unconcerned).secure secure
    | _ => simp [ListenerAction.isThread] at isThread

/-- An idle daemon serves every forward whose thread is secure. -/
theorem Secure.serves {daemon : PortDaemon} {hostPort containerPort : UInt16}
    (secure : daemon.Secure hostPort containerPort) (wired : daemon.Wired) (idle : daemon.Idle) :
    daemon.Serves hostPort containerPort := by
  obtain ⟨index, thread, found, host_eq, container_eq, unflagged, position⟩ := secure
  have member := List.mem_of_getElem? found
  have listening : thread.phase = .listening :=
    position.resolve_right fun ⟨starting, _⟩ => (idle.2 thread member).1 starting
  have holds : thread.holds hostPort = true := holds_iff.mpr ⟨listening, host_eq⟩
  refine ⟨index, thread, found, holds, unflagged, wired.guestIp_eq thread member, container_eq, ?_⟩
  intro other rival rival_found rival_holds
  exact wired.exclusive hostPort index other thread rival found rival_found holds rival_holds

theorem Secure.servedWhenIdle {daemon : PortDaemon} {hostPort containerPort : UInt16}
    (secure : daemon.Secure hostPort containerPort) (wired : daemon.Wired) :
    daemon.ServedWhenIdle hostPort containerPort := by
  intro later final unconcerned execution idle
  have preserved : ∀ {before after : PortDaemon} {action : ListenerAction},
      before.Wired ∧ before.Secure hostPort containerPort → ¬ before.Concerns hostPort action →
      before.listenerStep action = some after →
      after.Wired ∧ after.Secure hostPort containerPort := by
    rintro before after action ⟨wired, secure⟩ unconcerned stepped
    exact ⟨wired.listenerStep stepped, secure.listenerStep wired unconcerned stepped⟩
  obtain ⟨final_wired, final_secure⟩ :=
    invariant_of_guarded preserved ⟨wired, secure⟩ unconcerned execution
  exact final_secure.serves final_wired idle

/-! ## Letting the threads settle -/

/-- How many threads have still to bind. -/
def unbound (daemon : PortDaemon) : Nat :=
  (daemon.threads.map fun thread => if thread.phase = .starting then 1 else 0).sum

/-- How many connections wait for a thread. -/
def queued (daemon : PortDaemon) : Nat := (daemon.threads.map ProxyThread.backlog).sum

theorem sum_map_modify {α : Type*} (weight : α → Nat) (change : α → α) {items : List α}
    {index : Nat} {item : α} (found : items[index]? = some item) :
    ((items.modify index change).map weight).sum + weight item =
      (items.map weight).sum + weight (change item) := by
  induction items generalizing index with
  | nil => simp at found
  | cons first items ih =>
      cases index with
      | zero =>
          obtain rfl : first = item := by simpa using found
          simp only [List.modify_zero_cons, List.map_cons, List.sum_cons]
          omega
      | succ index =>
          have rest := ih (by simpa using found : items[index]? = some item)
          simp only [List.modify_succ_cons, List.map_cons, List.sum_cons]
          omega

theorem unbound_connect (daemon : PortDaemon) (hostPort : UInt16) :
    (daemon.connect hostPort).unbound = daemon.unbound := by
  simp only [unbound, connect, List.map_map]
  congr 2
  funext thread
  simp only [Function.comp_apply, ProxyThread.reached]
  split <;> rfl

/-- What the threads have left to do; binding comes first, because it can make connections
arrive. -/
def settleRank (daemon : PortDaemon) : Nat × Nat × Nat :=
  (daemon.unbound, daemon.wakes.length, daemon.queued)

theorem listenerStep_bind {daemon : PortDaemon} {index : Nat} {thread : ProxyThread}
    (found : daemon.threads[index]? = some thread) (starting : thread.phase = .starting) :
    daemon.listenerStep (.bind index) = some
      { daemon with
        threads := daemon.threads.modify index (.bound (!daemon.held thread.hostPort)) } := by
  simp only [listenerStep, found, if_pos starting]

theorem listenerStep_accept {daemon : PortDaemon} {index : Nat} {thread : ProxyThread}
    (found : daemon.threads[index]? = some thread) (listening : thread.phase = .listening)
    (waits : 0 < thread.backlog) :
    daemon.listenerStep (.accept index) =
      some { daemon with threads := daemon.threads.modify index .accepted } := by
  simp only [listenerStep, found, if_pos (And.intro listening waits)]

theorem unbound_bind {daemon : PortDaemon} {index : Nat} {thread : ProxyThread} (free : Bool)
    (found : daemon.threads[index]? = some thread) (starting : thread.phase = .starting) :
    unbound { daemon with threads := daemon.threads.modify index (.bound free) } <
      daemon.unbound := by
  have moved := sum_map_modify (fun thread => if thread.phase = .starting then 1 else 0)
    (ProxyThread.bound free) found
  have settled : (thread.bound free).phase ≠ .starting := by
    unfold ProxyThread.bound
    split <;> simp
  simp only [starting, settled, if_true, if_false] at moved
  simp only [unbound]
  omega

theorem unbound_accept {daemon : PortDaemon} {index : Nat} {thread : ProxyThread}
    (found : daemon.threads[index]? = some thread) (listening : thread.phase = .listening) :
    unbound { daemon with threads := daemon.threads.modify index .accepted } =
      daemon.unbound := by
  have moved := sum_map_modify (fun thread => if thread.phase = .starting then 1 else 0)
    ProxyThread.accepted found
  have settled : thread.accepted.phase ≠ .starting := by
    unfold ProxyThread.accepted
    split <;> simp [listening]
  simpa [unbound, listening, settled] using moved

theorem queued_accept {daemon : PortDaemon} {index : Nat} {thread : ProxyThread}
    (found : daemon.threads[index]? = some thread) (waits : 0 < thread.backlog) :
    queued { daemon with threads := daemon.threads.modify index .accepted } < daemon.queued := by
  have moved := sum_map_modify ProxyThread.backlog ProxyThread.accepted found
  have fewer : thread.accepted.backlog < thread.backlog := by
    unfold ProxyThread.accepted
    split
    · exact waits
    · exact Nat.sub_one_lt_of_lt waits
  simp only [queued]
  omega

/-- A daemon that is not idle has a thread step that brings it closer to being idle. -/
theorem progress_of_not_idle (daemon : PortDaemon) (busy : ¬ daemon.Idle) :
    ∃ action after, action.isThread = true ∧ daemon.listenerStep action = some after ∧
      WellFoundedRelation.rel after.settleRank daemon.settleRank := by
  by_cases starts : ∃ thread ∈ daemon.threads, thread.phase = .starting
  · obtain ⟨thread, member, starting⟩ := starts
    obtain ⟨index, found⟩ := List.mem_iff_getElem?.mp member
    exact ⟨.bind index, _, rfl, listenerStep_bind found starting,
      .left _ _ (unbound_bind _ found starting)⟩
  · cases waiting : daemon.wakes with
    | cons hostPort wakes =>
        refine ⟨.wake, { daemon with wakes }.connect hostPort, rfl, ?_, ?_⟩
        · simp only [listenerStep, waiting]
        · have fewer : wakes.length < daemon.wakes.length := by simp [waiting]
          have same : ({ daemon with wakes }.connect hostPort).unbound = daemon.unbound :=
            unbound_connect { daemon with wakes } hostPort
          rw [settleRank, same]
          exact .right _ (.left _ _ fewer)
    | nil =>
        have queue : ∃ thread ∈ daemon.threads, thread.phase = .listening ∧ 0 < thread.backlog := by
          by_contra none_waits
          push Not at starts none_waits
          refine busy ⟨waiting, fun thread member => ⟨starts thread member, fun listening => ?_⟩⟩
          exact Nat.eq_zero_of_le_zero (none_waits thread member listening)
        obtain ⟨thread, member, listening, waits⟩ := queue
        obtain ⟨index, found⟩ := List.mem_iff_getElem?.mp member
        refine ⟨.accept index, _, rfl, listenerStep_accept found listening waits, ?_⟩
        rw [settleRank, unbound_accept found listening]
        exact .right _ (.right _ (queued_accept found waits))

/-- Left alone, the threads become idle. -/
theorem exists_idle (daemon : PortDaemon) :
    ∃ actions after, (∀ action ∈ actions, ListenerAction.isThread action = true) ∧
      run listenerStep actions daemon = some after ∧ after.Idle :=
  exists_run_of_rank settleRank progress_of_not_idle daemon

/-! ## Losing the port -/

/-- The thread behind the port's handle has ended. -/
def Lost (daemon : PortDaemon) (hostPort : UInt16) : Prop :=
  ∃ proxy thread, daemon.ports.proxies.lookup hostPort = some proxy ∧
    daemon.threads[proxy.thread]? = some thread ∧ thread.phase = .stopped

theorem Lost.listenerStep {daemon after : PortDaemon} {hostPort : UInt16}
    (lost : daemon.Lost hostPort) {action : ListenerAction} (isThread : action.isThread = true)
    (stepped : daemon.listenerStep action = some after) : after.Lost hostPort := by
  obtain ⟨proxy, thread, stored, found, stopped⟩ := lost
  obtain ⟨change, evolves⟩ := listenerStep_evolves isThread stepped
  refine ⟨proxy, change proxy.thread thread, evolves.ports_eq ▸ stored, evolves.found_after found,
    ?_⟩
  cases evolves.turn proxy.thread thread found with
  | quiet same => exact same.trans stopped
  | bound starting => simp [stopped] at starting
  | refused _ _ stopped => exact stopped
  | ended _ _ stopped => exact stopped

/-- A port whose own thread has ended is served by nobody: every other thread of it is told to
stop. -/
theorem Lost.not_serves {daemon : PortDaemon} {hostPort containerPort : UInt16}
    (lost : daemon.Lost hostPort) (wired : daemon.Wired) :
    ¬ daemon.Serves hostPort containerPort := by
  rintro ⟨index, thread, found, holds, unflagged, -, -, -⟩
  obtain ⟨proxy, stopped_thread, stored, stopped_found, stopped⟩ := lost
  obtain ⟨listening, rfl⟩ := holds_iff.mp holds
  have own := (wired.unflagged_iff index thread found).mp unflagged
  obtain rfl : proxy.thread = index := by simpa [stored] using own
  obtain rfl := Option.some.inj (found.symm.trans stopped_found)
  simp [listening] at stopped

/-- A thread that binds while the port is held loses it. -/
theorem lost_of_held {daemon : PortDaemon} {hostPort : UInt16} {proxy : PortProxy}
    {thread : ProxyThread} (stored : daemon.ports.proxies.lookup hostPort = some proxy)
    (found : daemon.threads[proxy.thread]? = some thread) (host_eq : thread.hostPort = hostPort)
    (starting : thread.phase = .starting) (taken : daemon.held hostPort = true) :
    ∃ after, daemon.listenerStep (.bind proxy.thread) = some after ∧ after.Lost hostPort := by
  refine ⟨_, listenerStep_bind found starting, proxy, thread.bound false, stored, ?_, rfl⟩
  simp [host_eq, taken, found]

/-- A thread that binds a free port holds it afterwards, and nothing else changes. -/
theorem bind_of_free {daemon : PortDaemon} {index : Nat} {thread : ProxyThread}
    (found : daemon.threads[index]? = some thread) (starting : thread.phase = .starting)
    (free : daemon.held thread.hostPort = false) :
    ∃ after, daemon.listenerStep (.bind index) = some after ∧
      after.held thread.hostPort = true ∧ after.ports = daemon.ports ∧
      ∀ other, other ≠ index → after.threads[other]? = daemon.threads[other]? := by
  refine ⟨_, listenerStep_bind found starting, ?_, rfl, ?_⟩
  · refine held_iff.mpr ⟨index, thread.bound true, ?_, holds_iff.mpr ⟨rfl, rfl⟩⟩
    simp [found, free]
  · intro other different
    simp [different.symm]

/-- A thread that is not secure loses the port in some schedule of the threads. -/
theorem exists_lost {daemon : PortDaemon} (wired : daemon.Wired) {hostPort containerPort : UInt16}
    (active : daemon.ports.active.lookup hostPort = some containerPort)
    (insecure : ¬ daemon.Secure hostPort containerPort) :
    ∃ actions after, (∀ action ∈ actions, ListenerAction.isThread action = true) ∧
      run listenerStep actions daemon = some after ∧ after.Lost hostPort := by
  obtain ⟨proxy, thread, stored, found, container_eq⟩ :=
    wired.active_started hostPort containerPort active
  have own : (daemon.ports.proxies.lookup hostPort).map PortProxy.thread = some proxy.thread := by
    simp [stored]
  have host_eq := wired.hostPort_of_stored own found
  have unflagged := (wired.unflagged_iff proxy.thread thread found).mpr (host_eq ▸ own)
  cases phase : thread.phase with
  | stopped => exact ⟨[], daemon, by simp, rfl, proxy, thread, stored, found, phase⟩
  | listening =>
      exact absurd ⟨proxy.thread, thread, found, host_eq, container_eq, unflagged, .inl phase⟩
        insecure
  | starting =>
      cases taken : daemon.held hostPort with
      | true =>
          obtain ⟨after, stepped, lost⟩ := lost_of_held stored found host_eq phase taken
          exact ⟨[.bind proxy.thread], after, by simp [ListenerAction.isThread],
            run_cons_eq_some.mpr ⟨after, stepped, rfl⟩, lost⟩
      | false =>
          have contested : ¬ daemon.OthersStopped hostPort proxy.thread := fun others =>
            insecure ⟨proxy.thread, thread, found, host_eq, container_eq, unflagged,
              .inr ⟨phase, others⟩⟩
          simp only [OthersStopped] at contested
          push Not at contested
          obtain ⟨other, rival, rival_found, rival_host, alive, different⟩ := contested
          have rival_starting : rival.phase = .starting := by
            cases rival_phase : rival.phase with
            | starting => rfl
            | stopped => exact absurd rival_phase alive
            | listening =>
                have holds := holds_iff.mpr ⟨rival_phase, rival_host⟩
                simp [held_iff.mpr ⟨other, rival, rival_found, holds⟩] at taken
          subst rival_host
          obtain ⟨middle, first, middle_taken, ports_eq, untouched⟩ :=
            bind_of_free rival_found rival_starting taken
          obtain ⟨after, second, lost⟩ := lost_of_held (ports_eq ▸ stored)
            ((untouched _ different.symm).trans found) host_eq phase middle_taken
          exact ⟨[.bind other, .bind proxy.thread], after, by simp [ListenerAction.isThread],
            run_cons_eq_some.mpr ⟨middle, first, run_cons_eq_some.mpr ⟨after, second, rfl⟩⟩, lost⟩

/-- An active forward is served in every schedule exactly when its thread is secure. -/
theorem servedWhenIdle_iff_secure {daemon : PortDaemon} (wired : daemon.Wired)
    {hostPort containerPort : UInt16}
    (active : daemon.ports.active.lookup hostPort = some containerPort) :
    daemon.ServedWhenIdle hostPort containerPort ↔ daemon.Secure hostPort containerPort := by
  refine ⟨fun served => ?_, fun secure => secure.servedWhenIdle wired⟩
  by_contra insecure
  obtain ⟨losing, middle, losing_threads, losing_run, lost⟩ := exists_lost wired active insecure
  obtain ⟨settling, final, settling_threads, settling_run, idle⟩ := exists_idle middle
  have preserved : ∀ {before after : PortDaemon} {action : ListenerAction},
      before.Wired ∧ before.Lost hostPort → action.isThread = true →
      before.listenerStep action = some after → after.Wired ∧ after.Lost hostPort := by
    rintro before after action ⟨wired, lost⟩ isThread stepped
    exact ⟨wired.listenerStep stepped, lost.listenerStep isThread stepped⟩
  have middle_wired : middle.Wired :=
    invariant_of_run (fun wired stepped => wired.listenerStep stepped) wired losing_run
  obtain ⟨final_wired, final_lost⟩ := invariant_of_guarded preserved ⟨middle_wired, lost⟩
    (guarded_of_forall (fun action member _ => settling_threads action member) middle) settling_run
  refine final_lost.not_serves final_wired (served (losing ++ settling) final ?_ ?_ idle)
  · refine guarded_of_forall (fun action member state => ?_) daemon
    have isThread : action.isThread = true :=
      (List.mem_append.mp member).elim (losing_threads action) (settling_threads action)
    cases action with
    | port action => simp [ListenerAction.isThread] at isThread
    | _ => exact id
  · exact run_append_eq_some.mpr ⟨middle, losing_run, settling_run⟩

theorem active_of_answered {daemon : PortDaemon} {hostPort containerPort : UInt16}
    (answered : (daemon.handleDaemonCmd (.registerPort hostPort containerPort)).2 = .ok) :
    (daemon.handle (.command (.registerPort hostPort containerPort))).ports.active.lookup hostPort =
      some containerPort :=
  (active_registerPort_ok answered hostPort).trans (if_pos rfl)

theorem secure_iff_ready {daemon : PortDaemon} (wired : daemon.Wired)
    {hostPort containerPort : UInt16}
    (answered : (daemon.handleDaemonCmd (.registerPort hostPort containerPort)).2 = .ok) :
    (daemon.handle (.command (.registerPort hostPort containerPort))).Secure hostPort
      containerPort ↔ daemon.Ready hostPort := by
  cases active : daemon.ports.active.lookup hostPort with
  | some existing =>
      by_cases same : existing = containerPort
      · simp [handle, handleDaemonCmd, active, same, Ready]
      · simp [handleDaemonCmd, active, same] at answered
  | none =>
      have handled : daemon.handle (.command (.registerPort hostPort containerPort)) =
          daemon.addForward hostPort containerPort := by
        simp [handle, handleDaemonCmd, active]
      have fresh := addForward_getElem?_length wired hostPort containerPort
      simp only [handled, Ready, active]
      constructor
      · rintro ⟨index, thread, found, host_eq, -, unflagged, position⟩ old member old_host
        have own := ((wired.addForward hostPort containerPort).unflagged_iff index thread found).mp
          unflagged
        obtain rfl : daemon.threads.length = index := by
          simpa [host_eq, HashMap.lookup_insert_eq] using own
        obtain rfl := Option.some.inj (found.symm.trans fresh)
        obtain ⟨-, others⟩ := position.resolve_left (by simp)
        obtain ⟨other, old_found⟩ := List.mem_iff_getElem?.mp member
        by_contra alive
        have last := others other _
          ((addForward_getElem?_eq_some wired).mpr (.inl ⟨old, old_found, rfl⟩))
          (by simpa using old_host) (by simpa using alive)
        exact absurd (List.getElem?_eq_some_iff.mp old_found).1 (by omega)
      · intro all_stopped
        refine ⟨daemon.threads.length, _, fresh, rfl, rfl, rfl, .inr ⟨rfl, ?_⟩⟩
        intro other rival found rival_host alive
        rcases (addForward_getElem?_eq_some wired).mp found with ⟨old, old_found, rfl⟩ | ⟨last, -⟩
        · rw [flaggedBy_hostPort] at rival_host
          rw [flaggedBy_phase] at alive
          exact absurd (all_stopped old (List.mem_of_getElem? old_found) rival_host) alive
        · exact last

/-- After any run, a registration answered `Ok` ends in a served port in every schedule if and only
if the port was ready for it. -/
theorem registered_port_served_iff_ready {guestIp : Ipv4Addr} {actions : List ListenerAction}
    {daemon : PortDaemon} (reached : run listenerStep actions (init guestIp) = some daemon)
    {hostPort containerPort : UInt16}
    (answered : (daemon.handleDaemonCmd (.registerPort hostPort containerPort)).2 = .ok) :
    (daemon.handle (.command (.registerPort hostPort containerPort))).ServedWhenIdle hostPort
      containerPort ↔ daemon.Ready hostPort := by
  have wired := wired_of_run reached
  exact (servedWhenIdle_iff_secure (wired.handle _) (active_of_answered answered)).trans
    (secure_iff_ready wired answered)

theorem ready_of_inactive {daemon : PortDaemon} {hostPort : UInt16}
    (inactive : daemon.ports.active.lookup hostPort = none)
    (stopped : ∀ thread ∈ daemon.threads, thread.hostPort = hostPort → thread.phase = .stopped) :
    daemon.Ready hostPort := by
  rw [Ready, inactive]
  exact stopped

/-- A port whose old thread has accepted the connection of its dropped handle can be registered
again. -/
theorem served_after_old_thread_ended :
    ∃ daemon, run listenerStep
        [.port (.command (.registerPort 8080 80)), .bind 0,
          .port (.command (.unregisterPort 8080)), .wake, .accept 0]
        (init ⟨192, 168, 105, 2⟩) = some daemon ∧
      (daemon.handle (.command (.registerPort 8080 81))).ServedWhenIdle 8080 81 := by
  refine ⟨Option.get _ (by decide), (Option.some_get _).symm, ?_⟩
  refine (registered_port_served_iff_ready (Option.some_get _).symm (by decide)).mpr ?_
  exact ready_of_inactive (by decide) (by decide)

/-- A port that is released and registered again while its old thread still listens is lost: the
new thread fails to bind, and then the old one stops. -/
theorem port_lost_by_quick_reregistration :
    ¬ ∀ (guestIp : Ipv4Addr) (actions : List ListenerAction) (daemon : PortDaemon),
      run listenerStep actions (init guestIp) = some daemon →
      ∀ hostPort containerPort,
        (daemon.handleDaemonCmd (.registerPort hostPort containerPort)).2 = .ok →
        (daemon.handle (.command (.registerPort hostPort containerPort))).ServedWhenIdle hostPort
          containerPort := by
  intro served
  have lost := served ⟨192, 168, 105, 2⟩
    [.port (.command (.registerPort 8080 80)), .bind 0, .port (.command (.unregisterPort 8080)),
      .wake] (Option.get _ (by decide)) (Option.some_get _).symm 8080 80 (by decide)
    [.bind 1, .accept 0] (Option.get _ (by decide)) (guarded_of_forall (by simp [Concerns]) _)
    (Option.some_get _).symm ⟨by decide, by decide⟩
  obtain ⟨index, thread, found, holds, -⟩ := lost
  refine absurd holds ?_
  exact (by decide : ∀ thread ∈ PortDaemon.threads _, ¬ thread.holds 8080 = true) thread
    (List.mem_of_getElem? found)

end PortDaemon
end Pelagos.Daemon
