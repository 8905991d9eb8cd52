import Pelagos.Guest.Subscription

/-!
# Broadcast batches

The broadcaster walks one event batch once for every subscriber and sends its events one at a
time into the subscriber's bounded channel.  A full channel ends the walk, and the events sent
before it remain queued.  A batch is therefore dropped as a whole only when it meets a channel
that was full beforehand; a channel that fills in the middle keeps the head of the batch.
-/

namespace Pelagos.Guest

/-- Why `SyncSender::try_send` refused an event. -/
inductive TrySendError where
  | full
  | disconnected
  deriving DecidableEq

/-- Queue one event; a dropped receiver is reported before a full channel. -/
def trySend (subscriber : Subscriber) (event : GuestEvent) : Except TrySendError Subscriber :=
  if subscriber.connected then
    if subscriber.channel.length < channelCapacity then
      .ok { subscriber with channel := subscriber.channel ++ [event] }
    else .error .full
  else .error .disconnected

/-- The closure of `retain`: the subscriber after the batch, and whether it stays in the list. -/
def sendBatch : List GuestEvent → Subscriber → Subscriber × Bool
  | [], subscriber => (subscriber, true)
  | event :: events, subscriber =>
      match trySend subscriber event with
      | .ok next => sendBatch events next
      | .error .full => (subscriber, true)
      | .error .disconnected => (subscriber, false)

/-- A connected subscriber stays, and its channel receives the batch up to its capacity. -/
theorem sendBatch_of_connected {subscriber : Subscriber} (events : List GuestEvent)
    (alive : subscriber.connected = true) :
    sendBatch events subscriber =
      ({ subscriber with channel := trySendAll events subscriber.channel }, true) := by
  induction events generalizing subscriber with
  | nil => rfl
  | cons event events ih =>
      by_cases room : subscriber.channel.length < channelCapacity
      · simp only [sendBatch, trySend, trySendAll, if_pos alive, if_pos room]
        exact ih alive
      · simp only [sendBatch, trySend, trySendAll, if_pos alive, if_neg room]

/-- A subscriber without a receiver is left untouched and goes with the first event. -/
theorem sendBatch_of_disconnected {subscriber : Subscriber} (events : List GuestEvent)
    (gone : subscriber.connected = false) :
    sendBatch events subscriber = (subscriber, events.isEmpty) := by
  cases events with
  | nil => rfl
  | cons event events => simp [sendBatch, trySend, gone]

/-- The walk over one subscriber is what the poller's model offers it. -/
theorem offerBatch_eq_sendBatch (events : List GuestEvent) (subscriber : Subscriber) :
    offerBatch events subscriber =
      if (sendBatch events subscriber).2 then some (sendBatch events subscriber).1 else none := by
  cases alive : subscriber.connected with
  | true =>
      rw [sendBatch_of_connected events alive]
      cases events with
      | nil => rfl
      | cons event events => simp [offerBatch, alive]
  | false =>
      rw [sendBatch_of_disconnected events alive]
      cases events with
      | nil => rfl
      | cons event events => simp [offerBatch, alive]

/-- A channel takes the events it has room for and none of the later ones. -/
theorem trySendAll_eq_append_take (events channel : List GuestEvent) :
    trySendAll events channel = channel ++ events.take (channelCapacity - channel.length) := by
  induction events generalizing channel with
  | nil => simp [trySendAll]
  | cons event events ih =>
      by_cases room : channel.length < channelCapacity
      · have left : channelCapacity - channel.length =
            (channelCapacity - (channel ++ [event]).length) + 1 := by
          simp only [List.length_append, List.length_singleton]
          omega
        rw [trySendAll, if_pos room, ih, left, List.take_succ_cons, List.append_assoc,
          List.singleton_append]
      · have full : channelCapacity - channel.length = 0 := by omega
        rw [trySendAll, if_neg room, full, List.take_zero, List.append_nil]

/-- The channel was full before the batch, or has room for all of it. -/
def FullOrFits (events channel : List GuestEvent) : Prop :=
  channelCapacity ≤ channel.length ∨ channel.length + events.length ≤ channelCapacity

/-- The batch is queued whole or not at all exactly when it does not straddle the capacity. -/
theorem trySendAll_whole_iff (events channel : List GuestEvent) :
    (trySendAll events channel = channel ∨ trySendAll events channel = channel ++ events) ↔
      FullOrFits events channel := by
  rw [trySendAll_eq_append_take, List.append_right_eq_self, List.take_eq_nil_iff,
    List.append_cancel_left_eq, List.take_eq_self_iff]
  constructor
  · rintro ((full | rfl) | fits)
    · exact .inl (by omega)
    · rcases Nat.le_total channelCapacity channel.length with full | room
      · exact .inl full
      · exact .inr room
    · by_cases full : channelCapacity ≤ channel.length
      · exact .inl full
      · exact .inr (by omega)
  · rintro (full | fits)
    · exact .inl (.inl (by omega))
    · exact .inr (by omega)

/-- One broadcast queues whole batches, only for living receivers, and keeps exactly those. -/
structure AllOrNothing (events : List GuestEvent) (subscribers : List Subscriber) : Prop where
  /-- The batch is queued in order behind what was queued before, or not at all. -/
  whole : ∀ subscriber ∈ subscribers, subscriber.connected = true →
    (sendBatch events subscriber).1 = subscriber ∨
      (sendBatch events subscriber).1 =
        { subscriber with channel := subscriber.channel ++ events }
  /-- Nothing is queued for a subscriber whose receiver is gone. -/
  untouched : ∀ subscriber ∈ subscribers, subscriber.connected = false →
    (sendBatch events subscriber).1 = subscriber
  /-- The list keeps the living subscribers in their order. -/
  retained : broadcastEvents events subscribers =
    (subscribers.filter Subscriber.connected).map fun subscriber =>
      (sendBatch events subscriber).1

/-- A batch with at least one event removes exactly the subscribers without a receiver. -/
theorem broadcastEvents_of_nonempty {events : List GuestEvent} (nonempty : events ≠ [])
    (subscribers : List Subscriber) :
    broadcastEvents events subscribers =
      (subscribers.filter Subscriber.connected).map fun subscriber =>
        (sendBatch events subscriber).1 := by
  have not_empty : events.isEmpty = false := by simpa using nonempty
  induction subscribers with
  | nil => rfl
  | cons subscriber subscribers ih =>
      rw [broadcastEvents] at ih ⊢
      cases alive : subscriber.connected with
      | true => simp [offerBatch_eq_sendBatch, sendBatch_of_connected, alive, ← ih]
      | false =>
          simp [offerBatch_eq_sendBatch, sendBatch_of_disconnected, alive, not_empty, ← ih]

/-- An empty batch visits nobody's channel and keeps every subscriber. -/
theorem broadcastEvents_nil (subscribers : List Subscriber) :
    broadcastEvents [] subscribers = subscribers := by
  have every_kept : offerBatch [] = some := by
    funext subscriber
    rfl
  rw [broadcastEvents, every_kept, List.filterMap_some]

/-- A broadcast keeps exactly the living subscribers unless an empty batch met a dead one. -/
theorem retained_iff (events : List GuestEvent) (subscribers : List Subscriber) :
    (broadcastEvents events subscribers =
        (subscribers.filter Subscriber.connected).map fun subscriber =>
          (sendBatch events subscriber).1) ↔
      (events = [] → ∀ subscriber ∈ subscribers, subscriber.connected = true) := by
  by_cases empty : events = []
  · subst empty
    have nothing_sent : (fun subscriber => (sendBatch [] subscriber).1) = id := rfl
    rw [broadcastEvents_nil, nothing_sent, List.map_id, eq_comm, List.filter_eq_self]
    exact ⟨fun kept _ => kept, fun alive => alive rfl⟩
  · exact iff_of_true (broadcastEvents_of_nonempty empty subscribers) fun absent =>
      absurd absent empty

/-- A living subscriber gets the whole batch or nothing exactly when its channel allows it. -/
theorem sendBatch_whole_iff {subscriber : Subscriber} (events : List GuestEvent)
    (alive : subscriber.connected = true) :
    ((sendBatch events subscriber).1 = subscriber ∨
        (sendBatch events subscriber).1 =
          { subscriber with channel := subscriber.channel ++ events }) ↔
      FullOrFits events subscriber.channel := by
  rw [sendBatch_of_connected events alive, ← trySendAll_whole_iff]
  cases subscriber
  simp

/-- Batches are all-or-nothing exactly when the poller never sends an empty batch past a dead
subscriber and no living subscriber's channel fills in the middle of the batch. -/
theorem broadcast_allOrNothing_iff (events : List GuestEvent) (subscribers : List Subscriber) :
    AllOrNothing events subscribers ↔
      (events = [] → ∀ subscriber ∈ subscribers, subscriber.connected = true) ∧
        ∀ subscriber ∈ subscribers, subscriber.connected = true →
          FullOrFits events subscriber.channel := by
  constructor
  · intro contract
    refine ⟨(retained_iff events subscribers).mp contract.retained, ?_⟩
    intro subscriber member alive
    exact (sendBatch_whole_iff events alive).mp (contract.whole subscriber member alive)
  · rintro ⟨no_empty, fits⟩
    refine ⟨?_, ?_, (retained_iff events subscribers).mpr no_empty⟩
    · intro subscriber member alive
      exact (sendBatch_whole_iff events alive).mpr (fits subscriber member alive)
    · intro subscriber _ gone
      rw [sendBatch_of_disconnected events gone]

/-- A living subscriber with one free place in its channel. -/
def nearlyFull : Subscriber where
  channel := List.replicate 255 (.heartbeat 0)
  connected := true
  snapshotSent := true
  stream := []

/-- The two events of a container that came and went between two polls. -/
def startedAndExited : List GuestEvent :=
  [.containerStarted
      { name := "web", status := "exited", pid := 0, rootfs := "alpine",
        startedAt := "2026-01-01T00:00:00Z", exitCode := some 0, ports := [] },
    .containerExited "web" (some 0)]

/-- The subscriber is told that the container started and never that it exited. -/
theorem nearlyFull_splits_batch : ¬AllOrNothing startedAndExited [nearlyFull] := by
  intro contract
  have whole := contract.whole nearlyFull (List.mem_singleton_self _) rfl
  rw [sendBatch_whole_iff startedAndExited rfl] at whole
  have length_eq : nearlyFull.channel.length = 255 := List.length_replicate
  rcases whole with full | fits
  · simp [length_eq, channelCapacity] at full
  · simp [length_eq, channelCapacity, startedAndExited] at fits

end Pelagos.Guest
