import Mathlib.Data.List.Sort
import Pelagos.Guest.ContainerEvents
import Pelagos.Library.Execution

/-!
# The event poller and a subscriber

The poller re-reads the container state directory and broadcasts the difference from its previous
reading.  A subscriber first pushes its sender, then sends one snapshot read for itself, and from
then on forwards what the poller queued for it.  The snapshot is not taken from the poller's last
reading, so the two may disagree about a container whose status changes and changes back between
two polls.
-/

namespace Pelagos.Guest

open Execution SetReplay

/-- The container state directory: parsed records under pairwise distinct names. -/
structure ContainerDirectory where
  /-- Records in directory order. -/
  entries : List ContainerSnapshot
  /-- No two records share a name. -/
  distinct : DistinctNames entries

/-- Read the directory and sort the records by name. -/
def readContainerStates (directory : ContainerDirectory) : List ContainerSnapshot :=
  directory.entries.insertionSort fun left right => left.name ≤ right.name

theorem mem_readContainerStates {directory : ContainerDirectory} {container : ContainerSnapshot} :
    container ∈ readContainerStates directory ↔ container ∈ directory.entries :=
  (List.perm_insertionSort _ _).mem_iff

theorem readContainerStates_distinct (directory : ContainerDirectory) :
    DistinctNames (readContainerStates directory) :=
  ((List.perm_insertionSort _ _).map ContainerSnapshot.name).nodup_iff.mpr directory.distinct

/-- Capacity of a subscriber's channel. -/
def channelCapacity : Nat := 256

/-- The sending and the handling side of one subscription. -/
structure Subscriber where
  /-- Events queued by the poller and not yet forwarded. -/
  channel : List GuestEvent
  /-- The handler still owns the receiving end of the channel. -/
  connected : Bool
  /-- The handler has sent its initial snapshot. -/
  snapshotSent : Bool
  /-- Events written to the connection and not yet read by the client. -/
  stream : List GuestEvent
  deriving DecidableEq

/-- Queue events one by one, dropping the rest of the batch once the channel is full. -/
def trySendAll : List GuestEvent → List GuestEvent → List GuestEvent
  | [], channel => channel
  | event :: events, channel =>
      if channel.length < channelCapacity then trySendAll events (channel ++ [event]) else channel

/-- Offer a batch to one subscriber; `none` removes a subscriber whose receiver is gone. -/
def offerBatch (events : List GuestEvent) (subscriber : Subscriber) : Option Subscriber :=
  if events.isEmpty then some subscriber
  else if subscriber.connected then
    some { subscriber with channel := trySendAll events subscriber.channel }
  else none

/-- Offer a batch to every subscriber, each with a channel of its own. -/
def broadcastEvents (events : List GuestEvent) (subscribers : List Subscriber) :
    List Subscriber :=
  subscribers.filterMap (offerBatch events)

/-- The poller together with the one subscription under consideration. -/
structure GuestState where
  directory : ContainerDirectory
  /-- The poller's previous reading. -/
  prev : List ContainerSnapshot
  subscription : Option Subscriber

/-- Steps of the guest: the runtime, the poller and the subscription handler. -/
inductive GuestAction where
  | change (directory : ContainerDirectory)
  | poll
  | subscribe
  | sendSnapshot
  | forward
  | heartbeat (ts : UInt64)
  | disconnect

namespace GuestState

/-- The poller starts with a reading of its own. -/
def init (directory : ContainerDirectory) : GuestState :=
  { directory, prev := readContainerStates directory, subscription := none }

/-- The events the next poll would broadcast. -/
def pending (guest : GuestState) : List GuestEvent :=
  diffContainerStates guest.prev (readContainerStates guest.directory)

/-- Let the subscription handler act when it is alive. -/
def handle (guest : GuestState) (act : Subscriber → Option Subscriber) : Option GuestState :=
  match guest.subscription with
  | none => none
  | some subscriber =>
      if subscriber.connected then
        (act subscriber).map fun next => { guest with subscription := some next }
      else none

/-- One round of `event_poller_loop`. -/
def poll (guest : GuestState) : GuestState :=
  { guest with
    prev := readContainerStates guest.directory
    subscription := (broadcastEvents guest.pending guest.subscription.toList).head? }

/-- One step of the guest; `none` when the step is not enabled. -/
def step (guest : GuestState) : GuestAction → Option GuestState
  | .change directory => some { guest with directory }
  | .poll => some guest.poll
  | .subscribe =>
      if guest.subscription.any Subscriber.connected then none
      else
        some
          { guest with
            subscription :=
              some { channel := [], connected := true, snapshotSent := false, stream := [] } }
  | .sendSnapshot =>
      guest.handle fun subscriber =>
        if subscriber.snapshotSent then none
        else
          some
            { subscriber with
              snapshotSent := true
              stream :=
                subscriber.stream ++ [.snapshot (readContainerStates guest.directory) true] }
  | .forward =>
      guest.handle fun subscriber =>
        match subscriber.snapshotSent, subscriber.channel with
        | true, event :: channel =>
            some { subscriber with channel, stream := subscriber.stream ++ [event] }
        | _, _ => none
  | .heartbeat ts =>
      guest.handle fun subscriber =>
        if subscriber.snapshotSent && subscriber.channel.isEmpty then
          some { subscriber with stream := subscriber.stream ++ [.heartbeat ts] }
        else none
  | .disconnect => guest.handle fun subscriber => some { subscriber with connected := false }

/-- The client reads the next event of the stream. -/
def receive (guest : GuestState) : Option (GuestEvent × GuestState) :=
  match guest.subscription with
  | none => none
  | some subscriber =>
      match subscriber.stream with
      | [] => none
      | event :: stream =>
          some (event, { guest with subscription := some { subscriber with stream } })

theorem handle_eq_some_iff {guest next : GuestState} {act : Subscriber → Option Subscriber} :
    guest.handle act = some next ↔
      ∃ subscriber after, guest.subscription = some subscriber ∧ subscriber.connected = true ∧
        act subscriber = some after ∧ next = { guest with subscription := some after } := by
  unfold handle
  cases guest.subscription with
  | none => simp
  | some subscriber =>
      by_cases alive : subscriber.connected = true
      · simp only [alive, if_true, Option.map_eq_some_iff, Option.some.injEq]
        constructor
        · rintro ⟨after, acted, rfl⟩
          exact ⟨subscriber, after, rfl, alive, acted, rfl⟩
        · rintro ⟨_, after, rfl, _, acted, rfl⟩
          exact ⟨after, acted, rfl⟩
      · simp [alive]

theorem receive_eq_some_iff {guest next : GuestState} {event : GuestEvent} :
    guest.receive = some (event, next) ↔
      ∃ subscriber stream, guest.subscription = some subscriber ∧
        subscriber.stream = event :: stream ∧
        next = { guest with subscription := some { subscriber with stream } } := by
  unfold receive
  cases guest.subscription with
  | none => simp
  | some subscriber =>
      cases stream_eq : subscriber.stream with
      | nil => simp [stream_eq]
      | cons head stream =>
          simp only [stream_eq, Option.some.injEq, Prod.mk.injEq]
          constructor
          · rintro ⟨rfl, rfl⟩
            exact ⟨subscriber, stream, rfl, stream_eq, rfl⟩
          · rintro ⟨_, later, rfl, same, rfl⟩
            obtain ⟨rfl, rfl⟩ := List.cons.inj (stream_eq.symm.trans same)
            exact ⟨rfl, rfl⟩

theorem poll_subscription (guest : GuestState) :
    guest.poll.subscription = guest.subscription.bind (offerBatch guest.pending) := by
  cases subscription : guest.subscription with
  | none => simp [poll, broadcastEvents, subscription]
  | some subscriber =>
      cases offered : offerBatch guest.pending subscriber <;>
        simp [poll, broadcastEvents, subscription, offered]

end GuestState

/-- A batch that fits is queued whole and in order. -/
theorem trySendAll_of_fits {events channel : List GuestEvent}
    (fits : channel.length + events.length ≤ channelCapacity) :
    trySendAll events channel = channel ++ events := by
  induction events generalizing channel with
  | nil => simp [trySendAll]
  | cons event events ih =>
      simp only [List.length_cons] at fits
      have room : channel.length < channelCapacity := by omega
      have still_fits : (channel ++ [event]).length + events.length ≤ channelCapacity := by
        rw [List.length_append, List.length_singleton]
        omega
      rw [trySendAll, if_pos room, ih still_fits]
      simp

/-- Every queued event was queued before or belongs to the batch. -/
theorem mem_of_mem_trySendAll {events channel : List GuestEvent} {event : GuestEvent}
    (member : event ∈ trySendAll events channel) : event ∈ channel ∨ event ∈ events := by
  induction events generalizing channel with
  | nil => exact .inl member
  | cons head events ih =>
      rw [trySendAll] at member
      split at member
      · rcases ih member with queued | later
        · rcases List.mem_append.mp queued with queued | fresh
          · exact .inl queued
          · exact .inr (List.mem_singleton.mp fresh ▸ List.mem_cons_self)
        · exact .inr (List.mem_cons_of_mem head later)
      · exact .inl member

/-! ## Events on their way -/

namespace GuestState

/-- The events of the subscription that the client has not read yet. -/
def undelivered (guest : GuestState) : List GuestEvent :=
  match guest.subscription with
  | none => []
  | some subscriber => subscriber.stream ++ subscriber.channel

/-- The events an action may add for the subscription. -/
def announced (guest : GuestState) : GuestAction → List GuestEvent
  | .poll => if guest.subscription.any Subscriber.connected then guest.pending else []
  | .sendSnapshot => [.snapshot (readContainerStates guest.directory) true]
  | .heartbeat ts => [.heartbeat ts]
  | .change _ | .subscribe | .forward | .disconnect => []

theorem mem_undelivered_poll {guest : GuestState} {event : GuestEvent}
    (member : event ∈ guest.poll.undelivered) :
    event ∈ guest.undelivered ∨ event ∈ guest.announced .poll := by
  unfold undelivered at member
  rw [poll_subscription] at member
  cases subscription : guest.subscription with
  | none => simp [subscription] at member
  | some subscriber =>
      simp only [subscription, Option.bind_some, offerBatch] at member
      by_cases quiet : guest.pending.isEmpty = true
      · exact .inl (by simpa [quiet, undelivered, subscription] using member)
      · by_cases alive : subscriber.connected = true
        · simp only [quiet, alive, Bool.false_eq_true, if_false, if_true] at member
          rcases List.mem_append.mp member with written | queued
          · exact .inl (by simp [undelivered, subscription, written])
          · rcases mem_of_mem_trySendAll queued with earlier | fresh
            · exact .inl (by simp [undelivered, subscription, earlier])
            · exact .inr (by simp [announced, subscription, alive, fresh])
        · simp [quiet, alive] at member

/-- An undelivered event was undelivered before the step or was announced by it. -/
theorem mem_undelivered_step {guest next : GuestState} {action : GuestAction}
    (stepped : guest.step action = some next) {event : GuestEvent}
    (member : event ∈ next.undelivered) :
    event ∈ guest.undelivered ∨ event ∈ guest.announced action := by
  cases action with
  | change directory =>
      obtain rfl := Option.some.inj stepped
      exact .inl member
  | poll =>
      obtain rfl := Option.some.inj stepped
      exact mem_undelivered_poll member
  | subscribe =>
      simp only [step] at stepped
      split at stepped
      · cases stepped
      · obtain rfl := Option.some.inj stepped
        simp [undelivered] at member
  | sendSnapshot =>
      obtain ⟨subscriber, after, subscription, -, acted, rfl⟩ := handle_eq_some_iff.mp stepped
      split at acted
      · cases acted
      · obtain rfl := Option.some.inj acted
        simp only [undelivered, announced, subscription, List.mem_append] at member ⊢
        tauto
  | forward =>
      obtain ⟨subscriber, after, subscription, -, acted, rfl⟩ := handle_eq_some_iff.mp stepped
      split at acted
      · rename_i head channel _ queued
        obtain rfl := Option.some.inj acted
        simp only [undelivered, subscription, queued, List.mem_append, List.mem_cons] at member ⊢
        tauto
      · cases acted
  | heartbeat ts =>
      obtain ⟨subscriber, after, subscription, -, acted, rfl⟩ := handle_eq_some_iff.mp stepped
      split at acted
      · obtain rfl := Option.some.inj acted
        simp only [undelivered, announced, subscription, List.mem_append] at member ⊢
        tauto
      · cases acted
  | disconnect =>
      obtain ⟨subscriber, after, subscription, -, acted, rfl⟩ := handle_eq_some_iff.mp stepped
      obtain rfl := Option.some.inj acted
      exact .inl (by simpa [undelivered, subscription] using member)

/-- Only the runtime changes the directory. -/
theorem directory_step {guest next : GuestState} {action : GuestAction}
    (stepped : guest.step action = some next)
    (not_change : ∀ directory, action ≠ .change directory) : next.directory = guest.directory := by
  cases action with
  | change directory => exact absurd rfl (not_change directory)
  | poll =>
      obtain rfl := Option.some.inj stepped
      rfl
  | subscribe =>
      simp only [step] at stepped
      split at stepped
      · cases stepped
      · obtain rfl := Option.some.inj stepped
        rfl
  | _ =>
      obtain ⟨_, _, _, _, _, rfl⟩ := handle_eq_some_iff.mp stepped
      rfl

/-- The event just read was undelivered, and reading it adds nothing. -/
theorem undelivered_receive {guest next : GuestState} {event : GuestEvent}
    (received : guest.receive = some (event, next)) :
    guest.undelivered = event :: next.undelivered ∧ next.directory = guest.directory := by
  obtain ⟨subscriber, stream, subscription, stream_eq, rfl⟩ := receive_eq_some_iff.mp received
  simp [undelivered, subscription, stream_eq]

/-- An exit the poller announces is the exit of a container that does not run. -/
theorem not_running_of_pending_exit {guest : GuestState} {name : String} {exitCode : Option Int32}
    (pending : .containerExited name exitCode ∈ guest.pending) {container : ContainerSnapshot}
    (listed : container ∈ guest.directory.entries) (same : container.name = name) :
    container.running = false := by
  have distinct := readContainerStates_distinct guest.directory
  have found := find?_name distinct (mem_readContainerStates.mpr listed)
  rcases List.mem_append.mp pending with appeared | departed
  · obtain ⟨other, other_listed, event⟩ := List.mem_flatMap.mp appeared
    unfold appearanceEvents at event
    split at event
    · by_cases running : other.running = true
      · simp [running] at event
      · have other_name : name = other.name := by
          simp [running] at event
          exact event.1
        have other_found := find?_name distinct other_listed
        rw [← other_name, ← same, found] at other_found
        obtain rfl := Option.some.inj other_found
        simpa using running
    · split at event <;> simp at event
  · obtain ⟨earlier, -, event⟩ := List.mem_flatMap.mp departed
    unfold departureEvents at event
    split at event
    · rename_i absent
      obtain ⟨rfl, -⟩ : name = earlier.name ∧ exitCode = earlier.exitCode := by simpa using event
      rw [← same, found] at absent
      cases absent
    · rename_i current present
      split at event
      · rename_i stopped
        have current_name : current.name = earlier.name := by simpa using List.find?_some present
        obtain ⟨named, -⟩ : name = current.name ∧ exitCode = current.exitCode := by
          simpa using event
        rw [← current_name, ← named, ← same, found] at present
        obtain rfl := Option.some.inj present
        simp only [Bool.and_eq_true, Bool.not_eq_true'] at stopped
        exact stopped.2
      · cases event

end GuestState

end Pelagos.Guest
