import Pelagos.Guest.Subscription

/-!
# What a subscriber believes to be running

A client keeps the set of running names: the snapshot sets it, every later event changes one name.
Once the queue is drained, the set is the snapshot with all events since the registration of the
sender replayed over it.  It equals the running set of the directory exactly when the snapshot
agreed with the poller on every name that the poller saw unchanged throughout.
-/

namespace Pelagos.Guest

open Execution SetReplay

/-- The client's reaction to one received event. -/
def consume (view : Finset String) : GuestEvent → Finset String
  | .snapshot containers _ => runningNames containers
  | .containerStarted container => insert container.name view
  | .containerExited name _ => view.erase name
  | .heartbeat _ => view

/-- The client's view after a list of events. -/
def consumeAll (events : List GuestEvent) (view : Finset String) : Finset String :=
  events.foldl consume view

theorem consumeAll_append (earlier later : List GuestEvent) (view : Finset String) :
    consumeAll (earlier ++ later) view = consumeAll later (consumeAll earlier view) :=
  List.foldl_append

/-- Away from snapshots a client performs the membership changes of the events. -/
theorem consumeAll_eq_applyEvents {events : List GuestEvent}
    (plain : ∀ containers vmRunning, .snapshot containers vmRunning ∉ events)
    (view : Finset String) : consumeAll events view = applyEvents events view := by
  induction events generalizing view with
  | nil => rfl
  | cons event events ih =>
      have plain_tail : ∀ containers vmRunning, .snapshot containers vmRunning ∉ events :=
        fun containers vmRunning member =>
          plain containers vmRunning (List.mem_cons_of_mem event member)
      cases event with
      | snapshot containers vmRunning => exact (plain containers vmRunning List.mem_cons_self).elim
      | containerStarted container => exact ih plain_tail _
      | containerExited name exitCode => exact ih plain_tail _
      | heartbeat ts => exact ih plain_tail _

theorem snapshot_not_mem_diff (prev current containers : List ContainerSnapshot)
    (vmRunning : Bool) : .snapshot containers vmRunning ∉ diffContainerStates prev current := by
  intro member
  rcases List.mem_append.mp member with appeared | departed
  · obtain ⟨container, _, emitted⟩ := List.mem_flatMap.mp appeared
    unfold appearanceEvents at emitted
    split at emitted <;> split at emitted <;> simp at emitted
  · obtain ⟨earlier, _, emitted⟩ := List.mem_flatMap.mp departed
    unfold departureEvents at emitted
    split at emitted
    · simp at emitted
    · split at emitted <;> simp at emitted

theorem snapshot_not_mem_eventsAlong (base : List ContainerSnapshot)
    (polls : List (List ContainerSnapshot)) (containers : List ContainerSnapshot)
    (vmRunning : Bool) : .snapshot containers vmRunning ∉ eventsAlong base polls := by
  induction polls generalizing base with
  | nil => simp [eventsAlong]
  | cons current later ih =>
      simp only [eventsAlong, List.mem_append, not_or]
      exact ⟨snapshot_not_mem_diff base current containers vmRunning, ih current⟩

theorem eventsAlong_concat (base : List ContainerSnapshot)
    (polls : List (List ContainerSnapshot)) (current : List ContainerSnapshot) :
    eventsAlong base (polls ++ [current]) =
      eventsAlong base polls ++ diffContainerStates (lastReading base polls) current := by
  induction polls generalizing base with
  | nil => simp [eventsAlong, lastReading]
  | cons first later ih => simp [eventsAlong, lastReading, ih, List.append_assoc]

theorem lastReading_concat (base : List ContainerSnapshot)
    (polls : List (List ContainerSnapshot)) (current : List ContainerSnapshot) :
    lastReading base (polls ++ [current]) = current := by
  induction polls generalizing base with
  | nil => rfl
  | cons first later ih => exact ih first

theorem lastReading_mem (base : List ContainerSnapshot)
    (polls : List (List ContainerSnapshot)) : lastReading base polls ∈ base :: polls := by
  induction polls generalizing base with
  | nil => exact List.mem_cons_self
  | cons current later ih => exact List.mem_cons_of_mem base (ih current)

/-- The poller is silent about a name exactly while its status stays as at the start. -/
theorem verdict_eventsAlong {base : List ContainerSnapshot}
    {polls : List (List ContainerSnapshot)}
    (distinct : ∀ reading ∈ base :: polls, DistinctNames reading) (name : String) :
    verdict name ((eventsAlong base polls).filterMap GuestEvent.change?) =
      if ∀ reading ∈ polls, statusIn reading name = statusIn base name then none
      else some (decide (statusIn (lastReading base polls) name = some true)) := by
  induction polls generalizing base with
  | nil => simp [eventsAlong]
  | cons current later ih =>
      have distinct_later : ∀ reading ∈ current :: later, DistinctNames reading :=
        fun reading member => distinct reading (List.mem_cons_of_mem base member)
      rw [eventsAlong, List.filterMap_append, verdict_append, ih distinct_later,
        verdict_diffContainerStates (distinct base List.mem_cons_self)
          (distinct_later current List.mem_cons_self), lastReading]
      by_cases steady : ∀ reading ∈ later, statusIn reading name = statusIn current name
      · have last_eq : statusIn (lastReading current later) name = statusIn current name := by
          rcases List.mem_cons.mp (lastReading_mem current later) with unchanged | polled
          · rw [unchanged]
          · exact steady _ polled
        by_cases same : statusIn base name = statusIn current name
        · have steady_base : ∀ reading ∈ current :: later,
              statusIn reading name = statusIn base name := by
            intro reading member
            rcases List.mem_cons.mp member with rfl | member
            · exact same.symm
            · exact (steady reading member).trans same.symm
          simp only [if_pos steady, if_pos same, if_pos steady_base, Option.or_none]
        · have moved : ¬ ∀ reading ∈ current :: later,
              statusIn reading name = statusIn base name :=
            fun steady_base => same (steady_base current List.mem_cons_self).symm
          simp only [if_pos steady, if_neg same, if_neg moved, Option.none_or, last_eq]
      · have moved : ¬ ∀ reading ∈ current :: later,
            statusIn reading name = statusIn base name := by
          intro steady_base
          refine steady fun reading member => ?_
          exact (steady_base reading (List.mem_cons_of_mem current member)).trans
            (steady_base current List.mem_cons_self).symm
        simp only [if_neg steady, if_neg moved, Option.some_or]

theorem mem_applyEvents_eventsAlong {base : List ContainerSnapshot}
    {polls : List (List ContainerSnapshot)}
    (distinct : ∀ reading ∈ base :: polls, DistinctNames reading) (name : String)
    (names : Finset String) :
    name ∈ applyEvents (eventsAlong base polls) names ↔
      if ∀ reading ∈ polls, statusIn reading name = statusIn base name then name ∈ names
      else statusIn (lastReading base polls) name = some true := by
  rw [applyEvents, mem_replay_iff, verdict_eventsAlong distinct]
  split <;> simp

/-- The guest, one subscribed client and the history of what the poller has read. -/
structure SubscriberWorld where
  guest : GuestState
  /-- The names the client believes to be running. -/
  view : Finset String
  /-- History: the poller's previous reading when the sender was pushed. -/
  base : List ContainerSnapshot
  /-- History: the readings polled since then. -/
  polls : List (List ContainerSnapshot)
  /-- History: the records of the snapshot, once it has been read. -/
  snapshotRead : Option (List ContainerSnapshot)

/-- Steps of the guest interleaved with reads of the client. -/
inductive SubscriberAction where
  | guest (action : GuestAction)
  | receive

namespace SubscriberWorld

/-- The guest has started and nobody is subscribed. -/
def init (directory : ContainerDirectory) : SubscriberWorld :=
  { guest := .init directory, view := ∅, base := [], polls := [], snapshotRead := none }

/-- One step of the guest or of the client. -/
def step (world : SubscriberWorld) : SubscriberAction → Option SubscriberWorld
  | .guest .subscribe =>
      (world.guest.step .subscribe).map fun guest =>
        { guest, view := ∅, base := world.guest.prev, polls := [], snapshotRead := none }
  | .guest .poll =>
      (world.guest.step .poll).map fun guest =>
        { world with
          guest, polls := world.polls ++ [readContainerStates world.guest.directory] }
  | .guest .sendSnapshot =>
      (world.guest.step .sendSnapshot).map fun guest =>
        { world with guest, snapshotRead := some (readContainerStates world.guest.directory) }
  | .guest action => (world.guest.step action).map fun guest => { world with guest }
  | .receive =>
      world.guest.receive.map fun (event, guest) =>
        { world with guest, view := consume world.view event }

/-- Whatever a poll broadcasts fits into the subscriber's channel. -/
def Roomy (world : SubscriberWorld) : SubscriberAction → Prop
  | .guest .poll =>
      ∀ subscriber ∈ world.guest.subscription,
        subscriber.channel.length + world.guest.pending.length ≤ channelCapacity
  | _ => True

instance (world : SubscriberWorld) : ∀ action, Decidable (world.Roomy action)
  | .guest .poll =>
      inferInstanceAs (Decidable (∀ subscriber ∈ world.guest.subscription,
        subscriber.channel.length + world.guest.pending.length ≤ channelCapacity))
  | .guest (.change _) | .guest .subscribe | .guest .sendSnapshot | .guest .forward
  | .guest (.heartbeat _) | .guest .disconnect | .receive => isTrue trivial

/-- What is queued and sent for a live subscriber, and what the client has made of it so far,
amounts to the snapshot followed by all events since the registration. -/
structure Follows (world : SubscriberWorld) (subscriber : Subscriber) : Prop where
  distinct : ∀ reading ∈ world.base :: world.polls, DistinctNames reading
  last : lastReading world.base world.polls = world.guest.prev
  waiting : subscriber.snapshotSent = false →
    world.snapshotRead = none ∧ subscriber.stream = [] ∧
      subscriber.channel = eventsAlong world.base world.polls
  sent : subscriber.snapshotSent = true →
    ∃ snapshot, world.snapshotRead = some snapshot ∧ DistinctNames snapshot ∧
      consumeAll (subscriber.stream ++ subscriber.channel) world.view =
        applyEvents (eventsAlong world.base world.polls) (runningNames snapshot)

/-- The invariant of every run whose broadcasts fit. -/
structure Consistent (world : SubscriberWorld) : Prop where
  prev_distinct : DistinctNames world.guest.prev
  follows : ∀ subscriber, world.guest.subscription = some subscriber →
    subscriber.connected = true → world.Follows subscriber

theorem consistent_init (directory : ContainerDirectory) : (init directory).Consistent where
  prev_distinct := readContainerStates_distinct directory
  follows := by
    intro subscriber subscribed
    simp [init, GuestState.init] at subscribed

theorem offerBatch_of_fits {events : List GuestEvent} {subscriber next : Subscriber}
    (fits : subscriber.channel.length + events.length ≤ channelCapacity)
    (offered : offerBatch events subscriber = some next) :
    next = { subscriber with channel := subscriber.channel ++ events } := by
  unfold offerBatch at offered
  split at offered
  · rename_i empty
    rw [List.isEmpty_iff.mp empty, List.append_nil]
    exact (Option.some.inj offered).symm
  · split at offered
    · rw [trySendAll_of_fits fits] at offered
      exact (Option.some.inj offered).symm
    · simp at offered

private theorem consistent_of_subscription {world : SubscriberWorld} {subscriber : Subscriber}
    (prev_distinct : DistinctNames world.guest.prev)
    (subscribed : world.guest.subscription = some subscriber)
    (follows : subscriber.connected = true → world.Follows subscriber) : world.Consistent := by
  refine ⟨prev_distinct, ?_⟩
  intro other other_subscribed alive
  obtain rfl := Option.some.inj (subscribed.symm.trans other_subscribed)
  exact follows alive

private theorem follows_poll {world : SubscriberWorld} {subscriber : Subscriber}
    (follows : world.Follows subscriber) :
    Follows
      { world with
        guest := world.guest.poll
        polls := world.polls ++ [readContainerStates world.guest.directory] }
      { subscriber with channel := subscriber.channel ++ world.guest.pending } := by
  have events_eq : eventsAlong world.base
        (world.polls ++ [readContainerStates world.guest.directory]) =
      eventsAlong world.base world.polls ++ world.guest.pending := by
    rw [eventsAlong_concat, follows.last]
    rfl
  refine ⟨?_, lastReading_concat _ _ _, ?_, ?_⟩
  · intro reading member
    rcases List.mem_append.mp (List.cons_append .. ▸ member) with earlier | polled
    · exact follows.distinct reading earlier
    · exact List.mem_singleton.mp polled ▸ readContainerStates_distinct world.guest.directory
  · intro unsent
    obtain ⟨unread, stream_eq, channel_eq⟩ := follows.waiting unsent
    exact ⟨unread, stream_eq, by rw [events_eq, channel_eq]⟩
  · intro sent
    obtain ⟨snapshot, read, distinct, replayed⟩ := follows.sent sent
    refine ⟨snapshot, read, distinct, ?_⟩
    rw [events_eq, applyEvents_append, ← replayed, ← List.append_assoc, consumeAll_append]
    exact consumeAll_eq_applyEvents (fun _ _ => snapshot_not_mem_diff _ _ _ _) _

/-- A step of the thread that serves the subscriber. -/
private theorem of_handle {world next : SubscriberWorld} {act : Subscriber → Option Subscriber}
    {becomes : GuestState → SubscriberWorld}
    (stepped : (world.guest.handle act).map becomes = some next) :
    ∃ subscriber after, world.guest.subscription = some subscriber ∧
      subscriber.connected = true ∧ act subscriber = some after ∧
      next = becomes { world.guest with subscription := some after } := by
  obtain ⟨guest, handled, rfl⟩ := Option.map_eq_some_iff.mp stepped
  obtain ⟨subscriber, after, subscribed, alive, acted, rfl⟩ :=
    GuestState.handle_eq_some_iff.mp handled
  exact ⟨subscriber, after, subscribed, alive, acted, rfl⟩

/-- Every step of the guest whose broadcast fits keeps the invariant. -/
private theorem consistent_guest {world next : SubscriberWorld} {action : GuestAction}
    (consistent : world.Consistent) (roomy : world.Roomy (.guest action))
    (stepped : world.step (.guest action) = some next) : next.Consistent := by
  obtain ⟨prev_distinct, follows⟩ := consistent
  cases action with
  | change directory =>
      obtain rfl := Option.some.inj stepped
      refine ⟨prev_distinct, fun subscriber subscribed alive => ?_⟩
      obtain ⟨distinct, last, waiting, sent⟩ := follows subscriber subscribed alive
      exact ⟨distinct, last, waiting, sent⟩
  | poll =>
      obtain rfl := Option.some.inj stepped
      refine ⟨readContainerStates_distinct world.guest.directory, ?_⟩
      intro after offered alive
      have offered_batch := (GuestState.poll_subscription world.guest).symm.trans offered
      obtain ⟨subscriber, subscribed, offered_batch⟩ := Option.bind_eq_some_iff.mp offered_batch
      obtain rfl := offerBatch_of_fits (roomy subscriber subscribed) offered_batch
      exact follows_poll (follows subscriber subscribed alive)
  | subscribe =>
      simp only [step, GuestState.step, Option.map_eq_some_iff] at stepped
      obtain ⟨guest, subscribed, rfl⟩ := stepped
      split at subscribed
      · simp at subscribed
      · obtain rfl := Option.some.inj subscribed
        refine consistent_of_subscription prev_distinct rfl fun _ => ?_
        refine ⟨?_, rfl, fun _ => ⟨rfl, rfl, rfl⟩, fun sent => by simp at sent⟩
        intro reading member
        exact List.mem_singleton.mp member ▸ prev_distinct
  | sendSnapshot =>
      obtain ⟨subscriber, after, subscribed, alive, acted, rfl⟩ := of_handle stepped
      split at acted
      · simp at acted
      · rename_i unsent
        obtain rfl := Option.some.inj acted
        obtain ⟨distinct, last, waiting, -⟩ := follows subscriber subscribed alive
        obtain ⟨-, stream_eq, channel_eq⟩ := waiting (by simpa using unsent)
        refine consistent_of_subscription prev_distinct rfl fun _ => ?_
        refine ⟨distinct, last, fun still => by simp at still, fun _ => ?_⟩
        refine ⟨_, rfl, readContainerStates_distinct world.guest.directory, ?_⟩
        simp only [stream_eq, channel_eq, List.nil_append, List.singleton_append]
        exact consumeAll_eq_applyEvents (snapshot_not_mem_eventsAlong _ _) _
  | forward =>
      obtain ⟨subscriber, after, subscribed, alive, acted, rfl⟩ := of_handle stepped
      split at acted
      · rename_i event channel sent_eq channel_eq
        obtain rfl := Option.some.inj acted
        obtain ⟨distinct, last, -, sent⟩ := follows subscriber subscribed alive
        refine consistent_of_subscription prev_distinct rfl fun _ => ?_
        refine ⟨distinct, last, fun unsent => by simp [sent_eq] at unsent, fun _ => ?_⟩
        obtain ⟨snapshot, read, snapshot_distinct, replayed⟩ := sent sent_eq
        refine ⟨snapshot, read, snapshot_distinct, ?_⟩
        rw [← replayed, channel_eq]
        simp only [List.append_assoc, List.singleton_append]
      · simp at acted
  | heartbeat ts =>
      obtain ⟨subscriber, after, subscribed, alive, acted, rfl⟩ := of_handle stepped
      split at acted
      · rename_i quiet
        obtain rfl := Option.some.inj acted
        have sent_eq : subscriber.snapshotSent = true := by
          simp only [Bool.and_eq_true] at quiet
          exact quiet.1
        obtain ⟨distinct, last, -, sent⟩ := follows subscriber subscribed alive
        refine consistent_of_subscription prev_distinct rfl fun _ => ?_
        refine ⟨distinct, last, fun unsent => by simp [sent_eq] at unsent, fun _ => ?_⟩
        obtain ⟨snapshot, read, snapshot_distinct, replayed⟩ := sent sent_eq
        refine ⟨snapshot, read, snapshot_distinct, ?_⟩
        rw [← replayed]
        simp only [consumeAll_append]
        rfl
      · simp at acted
  | disconnect =>
      obtain ⟨subscriber, after, subscribed, alive, acted, rfl⟩ := of_handle stepped
      obtain rfl := Option.some.inj acted
      exact consistent_of_subscription prev_distinct rfl fun alive => by simp at alive

/-- Every step whose broadcast fits keeps the invariant. -/
theorem consistent_step {world next : SubscriberWorld} {action : SubscriberAction}
    (consistent : world.Consistent) (roomy : world.Roomy action)
    (stepped : world.step action = some next) : next.Consistent := by
  cases action with
  | guest action => exact consistent_guest consistent roomy stepped
  | receive =>
      obtain ⟨⟨event, guest⟩, received, rfl⟩ := Option.map_eq_some_iff.mp stepped
      obtain ⟨subscriber, stream, subscribed, stream_eq, rfl⟩ :=
        GuestState.receive_eq_some_iff.mp received
      refine consistent_of_subscription consistent.prev_distinct rfl fun alive => ?_
      obtain ⟨distinct, last, waiting, sent⟩ := consistent.follows subscriber subscribed alive
      refine ⟨distinct, last, ?_, ?_⟩
      · intro unsent
        have empty := (waiting unsent).2.1
        rw [stream_eq] at empty
        simp at empty
      · intro sent_eq
        obtain ⟨snapshot, read, snapshot_distinct, replayed⟩ := sent sent_eq
        rw [stream_eq] at replayed
        exact ⟨snapshot, read, snapshot_distinct, replayed⟩

/-- A run in which a poll follows both the last directory change and the snapshot read of a
subscription that is still alive and drained at the end. -/
structure Settled (start : ContainerDirectory) (before after : List SubscriberAction)
    (registered final : SubscriberWorld) (snapshot : List ContainerSnapshot) : Prop where
  roomy : Guarded step Roomy (before ++ .guest .poll :: after) (init start)
  earlier : run step before (init start) = some registered
  snapshot_read : registered.snapshotRead = some snapshot
  later : run step (.guest .poll :: after) registered = some final
  unchanged : ∀ directory, .guest (.change directory) ∉ after
  resubscribed : .guest .subscribe ∉ after
  drained : ∃ subscriber, final.guest.subscription = some subscriber ∧
    subscriber.connected = true ∧ subscriber.snapshotSent = true ∧
    subscriber.channel = [] ∧ subscriber.stream = []

/-- The snapshot agrees with the poller about every name whose status never changed from the
poller's reading at registration to its last one. -/
def SnapshotAgrees (final : SubscriberWorld) (snapshot : List ContainerSnapshot) : Prop :=
  ∀ name, (∀ reading ∈ final.polls, statusIn reading name = statusIn final.base name) →
    (statusIn snapshot name = some true ↔ statusIn final.base name = some true)

/-- Neither a directory change nor a new subscription. -/
private def Quiet (action : SubscriberAction) : Prop :=
  (∀ directory, action ≠ .guest (.change directory)) ∧ action ≠ .guest .subscribe

/-- The poller has read the directory as it is, and the subscription's snapshot is known. -/
private structure Polled (snapshot : List ContainerSnapshot) (world : SubscriberWorld) : Prop where
  consistent : world.Consistent
  current : world.guest.prev = readContainerStates world.guest.directory
  read : world.snapshotRead = some snapshot

private theorem polled_step {world next : SubscriberWorld} {action : SubscriberAction}
    {snapshot : List ContainerSnapshot} (polled : Polled snapshot world)
    (permitted : world.Roomy action ∧ Quiet action)
    (stepped : world.step action = some next) : Polled snapshot next := by
  obtain ⟨consistent, current, read⟩ := polled
  have kept : next.guest.prev = readContainerStates next.guest.directory ∧
      next.snapshotRead = some snapshot := by
    cases action with
    | receive =>
        obtain ⟨⟨event, guest⟩, received, rfl⟩ := Option.map_eq_some_iff.mp stepped
        obtain ⟨subscriber, stream, -, -, rfl⟩ := GuestState.receive_eq_some_iff.mp received
        exact ⟨current, read⟩
    | guest action =>
        cases action with
        | change directory => exact (permitted.2.1 directory rfl).elim
        | subscribe => exact (permitted.2.2 rfl).elim
        | poll =>
            obtain rfl := Option.some.inj stepped
            exact ⟨rfl, read⟩
        | sendSnapshot =>
            obtain ⟨subscriber, after, subscribed, alive, acted, rfl⟩ := of_handle stepped
            split at acted
            · simp at acted
            · rename_i unsent
              have unread := ((consistent.follows subscriber subscribed alive).waiting
                (by simpa using unsent)).1
              simp [read] at unread
        | forward | heartbeat | disconnect =>
            obtain ⟨subscriber, after, -, -, -, rfl⟩ := of_handle stepped
            exact ⟨current, read⟩
  exact ⟨consistent_step consistent permitted.1 stepped, kept.1, kept.2⟩

private theorem polled_of_settled {start : ContainerDirectory}
    {before after : List SubscriberAction} {registered final : SubscriberWorld}
    {snapshot : List ContainerSnapshot}
    (settled : Settled start before after registered final snapshot) : Polled snapshot final := by
  obtain ⟨roomy_before, roomy_later⟩ := (guarded_append settled.earlier).mp settled.roomy
  have consistent : registered.Consistent :=
    invariant_of_guarded consistent_step (consistent_init start) roomy_before settled.earlier
  obtain ⟨polled, poll_step, later⟩ := run_cons_eq_some.mp settled.later
  obtain ⟨roomy_poll, roomy_after⟩ := (guarded_cons poll_step).mp roomy_later
  have polled_now : Polled snapshot polled := by
    have still_consistent := consistent_step consistent roomy_poll poll_step
    obtain rfl := Option.some.inj poll_step
    exact ⟨still_consistent, rfl, settled.snapshot_read⟩
  have quiet : Guarded step (fun _ action => Quiet action) after polled :=
    guarded_of_forall (fun action member _ =>
      ⟨fun directory same => settled.unchanged directory (same ▸ member),
        fun same => settled.resubscribed (same ▸ member)⟩) polled
  exact invariant_of_guarded polled_step polled_now (roomy_after.and quiet) later

/-- The drained client sees exactly the running containers if and only if the snapshot agreed with
the poller about every name the poller saw unchanged. -/
theorem view_eq_running_iff {start : ContainerDirectory} {before after : List SubscriberAction}
    {registered final : SubscriberWorld} {snapshot : List ContainerSnapshot}
    (settled : Settled start before after registered final snapshot) :
    final.view = runningNames final.guest.directory.entries ↔ final.SnapshotAgrees snapshot := by
  obtain ⟨consistent, current, read⟩ := polled_of_settled settled
  obtain ⟨subscriber, subscribed, alive, sent_eq, channel_eq, stream_eq⟩ := settled.drained
  obtain ⟨distinct, last, -, sent⟩ := consistent.follows subscriber subscribed alive
  obtain ⟨_, read', snapshot_distinct, replayed⟩ := sent sent_eq
  obtain rfl := Option.some.inj (read.symm.trans read')
  have view_eq : final.view =
      applyEvents (eventsAlong final.base final.polls) (runningNames snapshot) := by
    simpa [channel_eq, stream_eq, consumeAll] using replayed
  have running_eq : runningNames final.guest.directory.entries =
      runningNames (lastReading final.base final.polls) := by
    rw [last, current]
    ext name
    simp [runningNames, mem_readContainerStates]
  have last_distinct : DistinctNames (lastReading final.base final.polls) :=
    distinct _ (lastReading_mem _ _)
  rw [view_eq, running_eq, Finset.ext_iff]
  refine forall_congr' fun name => ?_
  rw [mem_applyEvents_eventsAlong distinct, mem_runningNames last_distinct,
    mem_runningNames snapshot_distinct]
  by_cases steady : ∀ reading ∈ final.polls, statusIn reading name = statusIn final.base name
  · have last_eq : statusIn (lastReading final.base final.polls) name =
        statusIn final.base name := by
      rcases List.mem_cons.mp (lastReading_mem final.base final.polls) with same | polled
      · rw [same]
      · exact steady _ polled
    rw [if_pos steady, last_eq]
    exact ⟨fun same _ => same, fun agrees => agrees steady⟩
  · rw [if_neg steady]
    exact ⟨fun _ unchanged => (steady unchanged).elim, fun _ => Iff.rfl⟩

/-- A directory with the single container `web`. -/
def webDirectory (status : String) : ContainerDirectory where
  entries :=
    [{ name := "web", status, pid := 7, rootfs := "alpine", startedAt := "", exitCode := none,
       ports := ["8080:80"] }]
  distinct := by simp [DistinctNames]

/-- A container that starts before the snapshot and is polled afterwards is seen as running. -/
theorem view_eq_running_of_polled_start :
    ∃ registered final snapshot,
      Settled (webDirectory "exited")
        [.guest .subscribe, .guest (.change (webDirectory "running")), .guest .sendSnapshot]
        [.guest .forward, .receive, .receive] registered final snapshot ∧
      final.view = runningNames final.guest.directory.entries := by
  have settled : Settled (webDirectory "exited")
      [.guest .subscribe, .guest (.change (webDirectory "running")), .guest .sendSnapshot]
      [.guest .forward, .receive, .receive] _ _ _ :=
    { roomy := by decide
      earlier := rfl
      snapshot_read := rfl
      later := rfl
      unchanged := by simp
      resubscribed := by simp
      drained := ⟨_, rfl, rfl, rfl, rfl, rfl⟩ }
  refine ⟨_, _, _, settled, (view_eq_running_iff settled).mpr ?_⟩
  -- The one poll reads what the snapshot read, so whatever it left unchanged agrees.
  intro name steady
  have polled := steady (readContainerStates (webDirectory "running")) List.mem_cons_self
  exact Iff.of_eq (congrArg (fun status => status = some true) polled)

/-- A container that runs only while the snapshot is read stays in the client's view for good. -/
theorem view_keeps_container_missed_by_polls :
    ∃ registered final snapshot,
      Settled (webDirectory "exited")
        [.guest .subscribe, .guest (.change (webDirectory "running")), .guest .sendSnapshot,
          .guest (.change (webDirectory "exited"))]
        [.receive] registered final snapshot ∧
      final.view ≠ runningNames final.guest.directory.entries := by
  have settled : Settled (webDirectory "exited")
      [.guest .subscribe, .guest (.change (webDirectory "running")), .guest .sendSnapshot,
        .guest (.change (webDirectory "exited"))]
      [.receive] _ _ _ :=
    { roomy := by decide
      earlier := rfl
      snapshot_read := rfl
      later := rfl
      unchanged := by simp
      resubscribed := by simp
      drained := ⟨_, rfl, rfl, rfl, rfl, rfl⟩ }
  exact ⟨_, _, _, settled, by decide⟩

end SubscriberWorld

end Pelagos.Guest
