import Pelagos.Library.Execution
import Pelagos.Library.RelayedStream

/-!
# Two copy threads between two sockets

`proxy` and `relay_tcp` duplicate the descriptors of two sockets and copy each direction in a thread
of its own.  A thread that ends drops its own duplicates; an endpoint is told the end of its stream
only when no duplicate of its socket is left.
-/

namespace Pelagos.Daemon

open Execution

/-- The side of the client, and that of the guest or the server in it. -/
inductive Side where
  | client
  | guest
  deriving DecidableEq

def Side.other : Side → Side
  | client => guest
  | guest => client

/-- The functions that relay a connection. -/
inductive RelayFunction where
  | proxy
  | relayTcp
  deriving DecidableEq

/-- What an endpoint has given up. -/
structure Endpoint where
  /-- It sends no more. -/
  sendEnded : Bool
  /-- It has closed its socket and reads no more, either. -/
  closed : Bool
  deriving DecidableEq

/-- A relayed connection. -/
structure Relay where
  /-- What a side sends, and what the thread that reads from the side has copied of it. -/
  stream : Side → RelayedStream UInt8
  endpoint : Side → Endpoint
  /-- The thread that reads from the side has not dropped its duplicates, one of each socket. -/
  owns : Side → Bool

/-- A step of an endpoint or of a copy thread. -/
inductive RelayAction where
  | send (side : Side) (bytes : List UInt8)
  /-- The endpoint shuts down its sending. -/
  | endSending (side : Side)
  | close (side : Side)
  | receive (side : Side) (size : Nat)
  | copyRead (side : Side) (size : Nat)
  /-- The thread reads the end of the stream. -/
  | copyReadEnds (side : Side)
  | copyWrite (side : Side) (size : Nat)
  | copyWriteFails (side : Side)
  /-- The caller of the threads goes on when both have ended. -/
  | join

/-- The step is one of the relay, not of an endpoint. -/
def RelayAction.isCopy : RelayAction → Bool
  | copyRead _ _ | copyReadEnds _ | copyWrite _ _ | copyWriteFails _ | join => true
  | send _ _ | endSending _ | close _ | receive _ _ => false

namespace Relay

def start : Relay where
  stream _ := .idle
  endpoint _ := { sendEnded := false, closed := false }
  owns _ := true

/-- The open duplicates of either socket. -/
def duplicates (relay : Relay) : Nat := (relay.owns .client).toNat + (relay.owns .guest).toNat

def withStream (relay : Relay) (side : Side) (stream : RelayedStream UInt8) : Relay :=
  { relay with stream := Function.update relay.stream side stream }

def withEndpoint (relay : Relay) (side : Side) (endpoint : Endpoint) : Relay :=
  { relay with endpoint := Function.update relay.endpoint side endpoint }

/-- The thread that reads from the side ends.  A spawned thread drops what its closure owns; the
second copy of `relay_tcp` runs in the function itself, which keeps its duplicates. -/
def endCopy (function : RelayFunction) (relay : Relay) (side : Side) : Relay :=
  { relay.withStream side (relay.stream side).finish with
    owns :=
      if function = .relayTcp ∧ side = .guest then relay.owns
      else Function.update relay.owns side false }

/-- One step; an open endpoint takes in at most `window` bytes that it has not read. -/
def step (function : RelayFunction) (window : Nat) (relay : Relay) : RelayAction → Option Relay
  | .send side bytes =>
      if (relay.endpoint side).sendEnded = true then none
      else some (relay.withStream side ((relay.stream side).send bytes))
  | .endSending side =>
      some (relay.withEndpoint side { relay.endpoint side with sendEnded := true })
  | .close side => some (relay.withEndpoint side { sendEnded := true, closed := true })
  | .receive side size =>
      if (relay.endpoint side).closed = true then none
      else some (relay.withStream side.other ((relay.stream side.other).deliver size))
  | .copyRead side size =>
      let stream := relay.stream side
      if stream.ended = false ∧ stream.held = [] ∧ stream.entering ≠ [] ∧ 0 < size then
        some (relay.withStream side (stream.takeIn size))
      else none
  | .copyReadEnds side =>
      let stream := relay.stream side
      if stream.ended = false ∧ stream.held = [] ∧ stream.entering = [] ∧
          (relay.endpoint side).sendEnded = true then
        some (relay.endCopy function side)
      else none
  | .copyWrite side size =>
      let stream := relay.stream side
      if stream.ended = false ∧ stream.held ≠ [] ∧ 0 < size then
        -- A closed socket may take some bytes before it fails.
        if (relay.endpoint side.other).closed = true then
          some (relay.withStream side (stream.passOn size))
        else if stream.leaving.length < window then
          some (relay.withStream side (stream.passOn (min size (window - stream.leaving.length))))
        else none
      else none
  | .copyWriteFails side =>
      let stream := relay.stream side
      if stream.ended = false ∧ stream.held ≠ [] ∧ (relay.endpoint side.other).closed = true then
        some (relay.endCopy function side)
      else none
  | .join =>
      if function = .relayTcp ∧ (relay.stream .client).ended = true ∧
          (relay.stream .guest).ended = true ∧ relay.owns .guest = true then
        some { relay with owns := Function.update relay.owns .guest false }
      else none

/-- No step of the relay is enabled. -/
def Quiescent (function : RelayFunction) (window : Nat) (relay : Relay) : Prop :=
  ∀ action, action.isCopy = true → relay.step function window action = none

/-- Both threads have ended and no descriptor is left, so both endpoints are told the end. -/
structure Released (relay : Relay) : Prop where
  ended : ∀ side, (relay.stream side).ended = true
  closed : relay.duplicates = 0

/-- When the side has closed, the other endpoint has ended its sending as well, or sent something
that could not be written any more; and it has closed or made room for all that it was sent. -/
def AlsoEnds (relay : Relay) (side : Side) : Prop :=
  ((relay.endpoint side.other).sendEnded = true ∨
      (relay.stream side.other).written ≠ (relay.stream side.other).sent) ∧
    ((relay.endpoint side.other).closed = true ∨
      (relay.stream side).written = (relay.stream side).sent)

/-- What holds in every state of a relayed connection. -/
structure Coherent (function : RelayFunction) (relay : Relay) : Prop where
  closed_ends : ∀ side, (relay.endpoint side).closed = true →
    (relay.endpoint side).sendEnded = true
  /-- A thread ended at the end of its stream, or when a write failed. -/
  ended_because : ∀ side, (relay.stream side).ended = true →
    ((relay.endpoint side).sendEnded = true ∧ (relay.stream side).lost = []) ∨
      ((relay.endpoint side.other).closed = true ∧ (relay.stream side).lost ≠ [])
  dropped : ∀ side, ¬ (function = .relayTcp ∧ side = .guest) →
    (relay.stream side).ended = true → relay.owns side = false

/-! ## Sides -/

@[simp]
theorem other_other (side : Side) : side.other.other = side := by cases side <;> rfl

@[simp]
theorem other_ne (side : Side) : side.other ≠ side := by cases side <;> simp [Side.other]

/-- Of two sides one is the given one or the other. -/
theorem eq_or_eq_other (side given : Side) : side = given ∨ side = given.other := by
  cases side <;> cases given <;> simp [Side.other]

variable {function : RelayFunction} {window : Nat} {relay after : Relay} {side : Side}

@[simp]
theorem withStream_self (stream : RelayedStream UInt8) :
    (relay.withStream side stream).stream side = stream := Function.update_self side _ _

theorem withStream_of_ne {other : Side} (distinct : other ≠ side) (stream : RelayedStream UInt8) :
    (relay.withStream side stream).stream other = relay.stream other :=
  Function.update_of_ne distinct _ _

@[simp]
theorem withEndpoint_self (endpoint : Endpoint) :
    (relay.withEndpoint side endpoint).endpoint side = endpoint := Function.update_self side _ _

theorem withEndpoint_of_ne {other : Side} (distinct : other ≠ side) (endpoint : Endpoint) :
    (relay.withEndpoint side endpoint).endpoint other = relay.endpoint other :=
  Function.update_of_ne distinct _ _

theorem endCopy_stream (function : RelayFunction) (relay : Relay) (side : Side) :
    (relay.endCopy function side).stream =
      (relay.withStream side (relay.stream side).finish).stream := rfl

/-- What one step does. -/
inductive Effect (function : RelayFunction) (relay : Relay) : RelayAction → Relay → Prop
  | sent (side : Side) (bytes : List UInt8)
      (sending : ¬ (relay.endpoint side).sendEnded = true) :
      Effect function relay (.send side bytes)
        (relay.withStream side ((relay.stream side).send bytes))
  | sendEnded (side : Side) :
      Effect function relay (.endSending side)
        (relay.withEndpoint side { relay.endpoint side with sendEnded := true })
  | closed (side : Side) :
      Effect function relay (.close side)
        (relay.withEndpoint side { sendEnded := true, closed := true })
  | received (side : Side) (size : Nat) :
      Effect function relay (.receive side size)
        (relay.withStream side.other ((relay.stream side.other).deliver size))
  | read (side : Side) (size : Nat) :
      Effect function relay (.copyRead side size)
        (relay.withStream side ((relay.stream side).takeIn size))
  | wrote (side : Side) (size count : Nat) :
      Effect function relay (.copyWrite side size)
        (relay.withStream side ((relay.stream side).passOn count))
  | readEnded (side : Side) (sends_no_more : (relay.endpoint side).sendEnded = true)
      (none_lost : (relay.stream side).finish.lost = []) :
      Effect function relay (.copyReadEnds side) (relay.endCopy function side)
  | writeFailed (side : Side) (closed : (relay.endpoint side.other).closed = true)
      (some_lost : (relay.stream side).finish.lost ≠ []) :
      Effect function relay (.copyWriteFails side) (relay.endCopy function side)
  | joined :
      Effect function relay .join { relay with owns := Function.update relay.owns .guest false }

theorem effect_of_step {action : RelayAction}
    (stepped : relay.step function window action = some after) :
    Effect function relay action after := by
  cases action with
  | send side bytes =>
      simp only [Relay.step] at stepped
      split at stepped
      · cases stepped
      · rename_i sending
        exact Option.some.inj stepped ▸ .sent side bytes sending
  | endSending side => exact Option.some.inj stepped ▸ .sendEnded side
  | close side => exact Option.some.inj stepped ▸ .closed side
  | receive side size =>
      simp only [Relay.step] at stepped
      split at stepped
      · cases stepped
      · exact Option.some.inj stepped ▸ .received side size
  | copyRead side size =>
      simp only [Relay.step] at stepped
      split at stepped
      · exact Option.some.inj stepped ▸ .read side size
      · cases stepped
  | copyReadEnds side =>
      simp only [Relay.step] at stepped
      split at stepped
      · rename_i at_end
        obtain ⟨running, none_held, none_entering, sends_no_more⟩ := at_end
        refine Option.some.inj stepped ▸ .readEnded side sends_no_more ?_
        rw [RelayedStream.finish]
        simp [none_held, none_entering, (relay.stream side).nothing_lost running]
      · cases stepped
  | copyWrite side size =>
      simp only [Relay.step] at stepped
      split at stepped
      · split at stepped
        · exact Option.some.inj stepped ▸ .wrote side size size
        · split at stepped
          · exact Option.some.inj stepped ▸ .wrote side size _
          · cases stepped
      · cases stepped
  | copyWriteFails side =>
      simp only [Relay.step] at stepped
      split at stepped
      · rename_i failing
        obtain ⟨-, some_held, closed⟩ := failing
        refine Option.some.inj stepped ▸ .writeFailed side closed ?_
        rw [RelayedStream.finish]
        simp [some_held]
      · cases stepped
  | join =>
      simp only [Relay.step] at stepped
      split at stepped
      · exact Option.some.inj stepped ▸ .joined
      · cases stepped

/-! ## The invariant -/

theorem coherent_start : Coherent function start where
  closed_ends _ closed := by simp [start] at closed
  ended_because _ ended := by simp [start, RelayedStream.idle] at ended
  dropped _ _ ended := by simp [start, RelayedStream.idle] at ended

/-- A change of one stream that ends nothing and loses nothing. -/
theorem Coherent.withStream (coherent : Coherent function relay) {stream : RelayedStream UInt8}
    (ended : stream.ended = (relay.stream side).ended)
    (lost : stream.ended = true → (relay.endpoint side).sendEnded = true →
      stream.lost = (relay.stream side).lost)
    (still_lost : (relay.stream side).lost ≠ [] → stream.lost ≠ []) :
    Coherent function (relay.withStream side stream) where
  closed_ends := coherent.closed_ends
  ended_because other now := by
    by_cases same : other = side
    · subst same
      rw [withStream_self] at now ⊢
      rcases coherent.ended_because other (ended ▸ now) with ⟨sends_no_more, none⟩ | ⟨closed, some⟩
      · exact .inl ⟨sends_no_more, (lost now sends_no_more).trans none⟩
      · exact .inr ⟨closed, still_lost some⟩
    · rw [withStream_of_ne same] at now ⊢
      exact coherent.ended_because other now
  dropped other spawned now := by
    by_cases same : other = side
    · subst same
      rw [withStream_self, ended] at now
      exact coherent.dropped other spawned now
    · rw [withStream_of_ne same] at now
      exact coherent.dropped other spawned now

theorem Coherent.withEndpoint (coherent : Coherent function relay) {endpoint : Endpoint}
    (closed_ends : endpoint.closed = true → endpoint.sendEnded = true)
    (sends_no_more : (relay.endpoint side).sendEnded = true → endpoint.sendEnded = true)
    (closed : (relay.endpoint side).closed = true → endpoint.closed = true) :
    Coherent function (relay.withEndpoint side endpoint) where
  closed_ends other now := by
    by_cases same : other = side
    · subst same
      rw [withEndpoint_self] at now ⊢
      exact closed_ends now
    · rw [withEndpoint_of_ne same] at now ⊢
      exact coherent.closed_ends other now
  ended_because other now := by
    refine (coherent.ended_because other now).imp (And.imp_left fun was => ?_)
      (And.imp_left fun was => ?_)
    · by_cases same : other = side
      · subst same
        rw [withEndpoint_self]
        exact sends_no_more was
      · rwa [withEndpoint_of_ne same]
    · by_cases same : other.other = side
      · subst same
        rw [withEndpoint_self]
        exact closed was
      · rwa [withEndpoint_of_ne same]
  dropped := coherent.dropped

/-- A thread ends for one of two reasons. -/
theorem Coherent.endCopy (coherent : Coherent function relay)
    (because : ((relay.endpoint side).sendEnded = true ∧ (relay.stream side).finish.lost = []) ∨
      ((relay.endpoint side.other).closed = true ∧ (relay.stream side).finish.lost ≠ [])) :
    Coherent function (relay.endCopy function side) where
  closed_ends := coherent.closed_ends
  ended_because other now := by
    rw [endCopy_stream] at now ⊢
    by_cases same : other = side
    · subst same
      rw [withStream_self] at now ⊢
      exact because
    · rw [withStream_of_ne same] at now ⊢
      exact coherent.ended_because other now
  dropped other spawned now := by
    rw [endCopy_stream] at now
    rw [Relay.endCopy]
    by_cases same : other = side
    · subst same
      rw [if_neg spawned]
      exact Function.update_self _ _ _
    · rw [withStream_of_ne same] at now
      have was := coherent.dropped other spawned now
      dsimp only
      split
      · exact was
      · rwa [Function.update_of_ne same]

theorem Coherent.step (coherent : Coherent function relay) {action : RelayAction}
    (stepped : relay.step function window action = some after) : Coherent function after := by
  cases effect_of_step stepped with
  | sent side bytes sending =>
      refine coherent.withStream ?_ (fun _ ended => absurd ended sending) fun lost => ?_
      · rw [RelayedStream.send]
        split <;> rfl
      · rw [RelayedStream.send]
        split
        · simp [lost]
        · exact lost
  | sendEnded side => exact coherent.withEndpoint (fun _ => rfl) (fun _ => rfl) id
  | closed side => exact coherent.withEndpoint (fun _ => rfl) (fun _ => rfl) fun _ => rfl
  | received side size => exact coherent.withStream rfl (fun _ _ => rfl) id
  | read side size => exact coherent.withStream rfl (fun _ _ => rfl) id
  | wrote side size count => exact coherent.withStream rfl (fun _ _ => rfl) id
  | readEnded side sends_no_more none_lost =>
      exact coherent.endCopy (.inl ⟨sends_no_more, none_lost⟩)
  | writeFailed side closed some_lost => exact coherent.endCopy (.inr ⟨closed, some_lost⟩)
  | joined =>
      refine ⟨coherent.closed_ends, coherent.ended_because, fun other spawned ended => ?_⟩
      change Function.update relay.owns .guest false other = false
      by_cases same : other = .guest
      · rw [same, Function.update_self]
      · rw [Function.update_of_ne same]
        exact coherent.dropped other spawned ended

/-! ## What a step leaves alone -/

theorem withStream_sent {changed : Side} {stream : RelayedStream UInt8}
    (same_sent : stream.sent = (relay.stream changed).sent) (side : Side) :
    ((relay.withStream changed stream).stream side).sent = (relay.stream side).sent := by
  by_cases same : side = changed
  · rw [same, withStream_self, same_sent]
  · rw [withStream_of_ne same]

/-- Nothing that was sent is taken back, and an endpoint that has ended its sending adds nothing. -/
theorem sent_of_step {action : RelayAction}
    (stepped : relay.step function window action = some after) (side : Side) :
    (relay.stream side).sent <+: (after.stream side).sent ∧
      ((relay.endpoint side).sendEnded = true →
        (after.endpoint side).sendEnded = true ∧
          (after.stream side).sent = (relay.stream side).sent) := by
  have unsent (same_sent : (after.stream side).sent = (relay.stream side).sent)
      (stays : (relay.endpoint side).sendEnded = true → (after.endpoint side).sendEnded = true) :
      (relay.stream side).sent <+: (after.stream side).sent ∧
        ((relay.endpoint side).sendEnded = true → (after.endpoint side).sendEnded = true ∧
          (after.stream side).sent = (relay.stream side).sent) :=
    ⟨same_sent ▸ List.prefix_rfl, fun ended => ⟨stays ended, same_sent⟩⟩
  have updated {changed : Side} {endpoint : Endpoint} (ends : endpoint.sendEnded = true)
      (ended : (relay.endpoint side).sendEnded = true) :
      ((relay.withEndpoint changed endpoint).endpoint side).sendEnded = true := by
    by_cases same : side = changed
    · rwa [same, withEndpoint_self]
    · rwa [withEndpoint_of_ne same]
  cases effect_of_step stepped with
  | sent sender bytes sending =>
      by_cases same : side = sender
      · subst same
        refine ⟨?_, fun ended => absurd ended sending⟩
        rw [withStream_self, RelayedStream.send_sent]
        exact List.prefix_append _ _
      · refine unsent ?_ id
        rw [withStream_of_ne same]
  | sendEnded ender => exact unsent rfl (updated rfl)
  | closed closer => exact unsent rfl (updated rfl)
  | received | read | wrote =>
      refine unsent (withStream_sent ?_ side) id
      rfl
  | readEnded ender | writeFailed ender =>
      rw [endCopy_stream] at unsent ⊢
      refine unsent (withStream_sent ?_ side) id
      rfl
  | joined => exact unsent rfl id

/-- Only an endpoint itself closes it. -/
theorem closed_of_step {action : RelayAction}
    (stepped : relay.step function window action = some after) {side : Side}
    (closed : (after.endpoint side).closed = true) :
    (relay.endpoint side).closed = true ∨ action = .close side := by
  cases effect_of_step stepped with
  | sendEnded ender =>
      by_cases same : side = ender
      · subst same
        rw [withEndpoint_self] at closed
        exact .inl closed
      · rw [withEndpoint_of_ne same] at closed
        exact .inl closed
  | closed closer =>
      by_cases same : side = closer
      · exact .inr (by rw [same])
      · rw [withEndpoint_of_ne same] at closed
        exact .inl closed
  | sent | received | read | wrote | readEnded | writeFailed | joined => exact .inl closed

/-- A step of an endpoint neither ends a thread nor changes what it holds or has written. -/
theorem copied_of_step {action : RelayAction}
    (stepped : relay.step function window action = some after) (endpoint : action.isCopy = false)
    (side : Side) :
    (after.stream side).ended = (relay.stream side).ended ∧
      (after.stream side).held = (relay.stream side).held ∧
      (after.stream side).written = (relay.stream side).written := by
  cases effect_of_step stepped with
  | sendEnded | closed => exact ⟨rfl, rfl, rfl⟩
  | sent sender bytes sending =>
      by_cases same : side = sender
      · subst same
        rw [withStream_self, RelayedStream.send]
        split <;> exact ⟨rfl, rfl, rfl⟩
      · rw [withStream_of_ne same]
        exact ⟨rfl, rfl, rfl⟩
  | received receiver size =>
      by_cases same : side = receiver.other
      · subst same
        rw [withStream_self]
        refine ⟨rfl, rfl, ?_⟩
        rw [RelayedStream.written, RelayedStream.deliver, RelayedStream.written]
        simp
      · rw [withStream_of_ne same]
        exact ⟨rfl, rfl, rfl⟩
  | read | wrote | readEnded | writeFailed | joined => cases endpoint

/-! ## When nothing can be copied -/

/-- A thread that can do nothing has ended, waits for its sender, or waits for its receiver. -/
def Stuck (window : Nat) (relay : Relay) (side : Side) : Prop :=
  (relay.stream side).ended = true ∨
    ((relay.stream side).held = [] ∧ (relay.stream side).entering = [] ∧
      (relay.endpoint side).sendEnded = false) ∨
    ((relay.stream side).held ≠ [] ∧ (relay.endpoint side.other).closed = false ∧
      window ≤ (relay.stream side).leaving.length)

instance (window : Nat) (relay : Relay) (side : Side) : Decidable (relay.Stuck window side) :=
  instDecidableOr

theorem Quiescent.stuck (quiescent : relay.Quiescent function window) (side : Side) :
    relay.Stuck window side := by
  by_cases ended : (relay.stream side).ended = true
  · exact .inl ended
  · rw [Bool.not_eq_true] at ended
    by_cases held : (relay.stream side).held = []
    · refine .inr (.inl ⟨held, ?_, ?_⟩)
      · have cannot_read := quiescent (.copyRead side 1) rfl
        simpa [Relay.step, ended, held] using cannot_read
      · have cannot_end := quiescent (.copyReadEnds side) rfl
        have cannot_read := quiescent (.copyRead side 1) rfl
        simp only [Relay.step, ended, held] at cannot_end cannot_read
        simp_all
    · have cannot_fail := quiescent (.copyWriteFails side) rfl
      have cannot_write := quiescent (.copyWrite side 1) rfl
      have still_open : (relay.endpoint side.other).closed = false := by
        simpa [Relay.step, ended, held] using cannot_fail
      refine .inr (.inr ⟨held, still_open, ?_⟩)
      simpa [Relay.step, ended, held, still_open] using cannot_write

theorem quiescent_of_stuck (stuck : ∀ side, relay.Stuck window side)
    (unjoined : ¬ (function = .relayTcp ∧ (relay.stream .client).ended = true ∧
      (relay.stream .guest).ended = true ∧ relay.owns .guest = true)) :
    relay.Quiescent function window := by
  intro action copies
  cases action with
  | send | endSending | close | receive => cases copies
  | copyRead side size =>
      refine if_neg fun ⟨running, none_held, some_entering, _⟩ => ?_
      rcases stuck side with ended | ⟨-, none_entering, -⟩ | ⟨some_held, -⟩
      · simp [running] at ended
      · exact some_entering none_entering
      · exact some_held none_held
  | copyReadEnds side =>
      refine if_neg fun ⟨running, none_held, none_entering, sends_no_more⟩ => ?_
      rcases stuck side with ended | ⟨-, -, sending⟩ | ⟨some_held, -⟩
      · simp [running] at ended
      · simp [sends_no_more] at sending
      · exact some_held none_held
  | copyWrite side size =>
      rcases stuck side with ended | ⟨none_held, -⟩ | ⟨-, still_open, full⟩
      · exact if_neg fun ⟨running, _⟩ => by simp [running] at ended
      · exact if_neg fun ⟨_, some_held, _⟩ => some_held none_held
      · simp only [Relay.step]
        split
        · rw [if_neg (by simp [still_open]), if_neg (by omega)]
        · rfl
  | copyWriteFails side =>
      refine if_neg fun ⟨running, some_held, closed⟩ => ?_
      rcases stuck side with ended | ⟨none_held, -⟩ | ⟨-, still_open, -⟩
      · simp [running] at ended
      · exact some_held none_held
      · simp [closed] at still_open
  | join => exact if_neg unjoined

/-- The thread that reads from a closed endpoint ends when it can write all it has read. -/
theorem Coherent.ended_from_closed (coherent : Coherent function relay)
    (stuck : relay.Stuck window side) (closed : (relay.endpoint side).closed = true) :
    (relay.stream side).ended = true ↔
      (relay.endpoint side.other).closed = true ∨
        (relay.stream side).written = (relay.stream side).sent := by
  rw [RelayedStream.written_eq_sent_iff]
  constructor
  · intro ended
    rcases coherent.ended_because side ended with ⟨-, none_lost⟩ | ⟨other_closed, -⟩
    · obtain ⟨none_held, none_entering⟩ := (relay.stream side).nothing_behind ended
      exact .inr ⟨none_held, none_entering, none_lost⟩
    · exact .inl other_closed
  · intro done
    rcases stuck with ended | ⟨-, -, sending⟩ | ⟨some_held, still_open, -⟩
    · exact ended
    · simp [coherent.closed_ends side closed] at sending
    · rcases done with other_closed | ⟨none_held, -⟩
      · simp [other_closed] at still_open
      · exact absurd none_held some_held

/-- The thread that writes to a closed endpoint ends when its own sender ends or a write fails. -/
theorem Coherent.ended_towards_closed (coherent : Coherent function relay)
    (stuck : relay.Stuck window side) (closed : (relay.endpoint side.other).closed = true) :
    (relay.stream side).ended = true ↔
      (relay.endpoint side).sendEnded = true ∨
        (relay.stream side).written ≠ (relay.stream side).sent := by
  rw [Ne, RelayedStream.written_eq_sent_iff]
  constructor
  · intro ended
    rcases coherent.ended_because side ended with ⟨sends_no_more, -⟩ | ⟨-, some_lost⟩
    · exact .inl sends_no_more
    · exact .inr fun ⟨_, _, none_lost⟩ => some_lost none_lost
  · intro ends
    rcases stuck with ended | ⟨none_held, none_entering, sending⟩ | ⟨-, still_open, -⟩
    · exact ended
    · rcases ends with sends_no_more | unwritten
      · simp [sends_no_more] at sending
      · by_contra running
        have none_lost := (relay.stream side).nothing_lost (eq_false_of_ne_true running)
        exact unwritten ⟨none_held, none_entering, none_lost⟩
    · simp [closed] at still_open

/-- When both threads have ended and nothing is left to do, every duplicate is dropped. -/
theorem Coherent.released_iff (coherent : Coherent function relay)
    (quiescent : relay.Quiescent function window) (side : Side) :
    relay.Released ↔
      (relay.stream side.other).ended = true ∧ (relay.stream side).ended = true := by
  constructor
  · exact fun released => ⟨released.ended side.other, released.ended side⟩
  · rintro ⟨other_ended, ended⟩
    have all_ended (given : Side) : (relay.stream given).ended = true := by
      rcases eq_or_eq_other given side with rfl | rfl
      · exact ended
      · exact other_ended
    refine ⟨all_ended, ?_⟩
    have client_dropped : relay.owns .client = false :=
      coherent.dropped .client (by simp) (all_ended .client)
    have guest_dropped : relay.owns .guest = false := by
      by_cases last : function = .relayTcp
      · have joined := quiescent .join rfl
        simpa [Relay.step, last, all_ended] using joined
      · exact coherent.dropped .guest (by simp [last]) (all_ended .guest)
    rw [duplicates, client_dropped, guest_dropped]
    rfl

theorem Coherent.released_iff_alsoEnds (coherent : Coherent function relay)
    (quiescent : relay.Quiescent function window) (closed : (relay.endpoint side).closed = true) :
    relay.Released ↔ relay.AlsoEnds side := by
  have other_closed : (relay.endpoint side.other.other).closed = true := by
    rwa [other_other]
  rw [coherent.released_iff quiescent side, AlsoEnds,
    coherent.ended_towards_closed (quiescent.stuck side.other) other_closed,
    coherent.ended_from_closed (quiescent.stuck side) closed]

theorem coherent_run {actions : List RelayAction}
    (execution : run (step function window) actions start = some relay) :
    Coherent function relay :=
  invariant_of_run (fun coherent stepped => coherent.step stepped) coherent_start execution

/-! ## Whole runs -/

/-- For both functions and every interleaving of the endpoints and the copy threads: when one
endpoint has closed and nothing is left to copy, everything is released exactly when the other
endpoint has ended, too. -/
theorem close_propagates_iff (function : RelayFunction) (window : Nat)
    {actions : List RelayAction} {relay : Relay}
    (execution : run (step function window) actions start = some relay)
    (quiescent : relay.Quiescent function window) {side : Side}
    (closed : (relay.endpoint side).closed = true) : relay.Released ↔ relay.AlsoEnds side :=
  (coherent_run execution).released_iff_alsoEnds quiescent closed

/-- The client sends a byte and closes, and the server ends its sending. -/
def bothEnd : List RelayAction :=
  [.send .client [1], .copyRead .client 8192, .close .client, .copyWrite .client 8192,
    .copyReadEnds .client, .endSending .guest, .copyReadEnds .guest, .join]

theorem released_when_both_end :
    ∃ relay, run (step .relayTcp 1) bothEnd start = some relay ∧
      (relay.endpoint .client).closed = true ∧ (relay.Released ↔ relay.AlsoEnds .client) := by
  obtain ⟨relay, execution, closed, stuck, unjoined⟩ :
      ∃ relay, run (step .relayTcp 1) bothEnd start = some relay ∧
        (relay.endpoint .client).closed = true ∧
        (relay.Stuck 1 .client ∧ relay.Stuck 1 .guest) ∧ relay.owns .guest = false :=
    ⟨_, rfl, rfl, by decide, rfl⟩
  have quiescent : relay.Quiescent .relayTcp 1 := by
    refine quiescent_of_stuck (fun side => ?_) (by simp [unjoined])
    cases side with
    | client => exact stuck.1
    | guest => exact stuck.2
  exact ⟨relay, execution, closed, close_propagates_iff .relayTcp 1 execution quiescent closed⟩

/-- The client closes an idle connection; the guest is never told. -/
theorem close_stops_at_relay :
    ¬ ∀ (function : RelayFunction) (window : Nat) (actions : List RelayAction) (relay : Relay),
      run (step function window) actions start = some relay →
      relay.Quiescent function window → ∀ side, (relay.endpoint side).closed = true →
      relay.Released := by
  intro propagates
  obtain ⟨relay, execution, closed, stuck, open_descriptor⟩ :
      ∃ relay, run (step .proxy 1) [.close .client, .copyReadEnds .client] start = some relay ∧
        (relay.endpoint .client).closed = true ∧
        (relay.Stuck 1 .client ∧ relay.Stuck 1 .guest) ∧ relay.duplicates = 1 :=
    ⟨_, rfl, rfl, by decide, rfl⟩
  have quiescent : relay.Quiescent .proxy 1 := by
    refine quiescent_of_stuck (fun side => ?_) (by simp)
    cases side with
    | client => exact stuck.1
    | guest => exact stuck.2
  have released := propagates .proxy 1 _ relay execution quiescent .client closed
  simp [released.closed] at open_descriptor

end Relay
end Pelagos.Daemon
