import Pelagos.Daemon.Console
import Pelagos.Library.Execution

/-!
# The relay of the serial console

`console_relay_loop` reads the console's output into the ring buffer while no client is connected.
A client that connects is shown the ring; what is read while it is connected goes to the client and
not into the ring.
-/

namespace Pelagos.Daemon

open Execution

/-- A byte read from the console, and whether it went to a connected client. -/
structure ReadByte where
  byte : UInt8
  live : Bool
  deriving DecidableEq

/-- What a client was shown first, and all that had been read when it connected. -/
structure Replay where
  shown : List UInt8
  history : List ReadByte

/-- The state of `console_relay_loop`, with what it has read and replayed so far. -/
structure ConsoleRelay where
  ring : ConsoleRingBuffer
  /-- `proxy_console` runs for a client. -/
  attached : Bool
  /-- Output of the VM that is not read yet. -/
  unread : List UInt8
  history : List ReadByte
  replays : List Replay

/-- What the VM, the clients and the loop do. -/
inductive ConsoleAction where
  | produce (bytes : List UInt8)
  | read (size : Nat)
  | connect
  | disconnect

namespace ConsoleRelay

/-- The capacity of the ring in `console_relay_loop`. -/
def ringCapacity : Nat := 256 * 1024

/-- The size of the buffers that both loops read into. -/
def bufferSize : Nat := 4096

def init : ConsoleRelay :=
  { ring := .new ringCapacity, attached := false, unread := [], history := [], replays := [] }

/-- The history after a read. -/
def afterRead (relay : ConsoleRelay) (size : Nat) : List ReadByte :=
  relay.history ++ (relay.unread.take size).map fun byte => { byte, live := relay.attached }

def step (relay : ConsoleRelay) : ConsoleAction → Option ConsoleRelay
  | .produce bytes => some { relay with unread := relay.unread ++ bytes }
  | .read size =>
      if 0 < size ∧ size ≤ bufferSize ∧ size ≤ relay.unread.length then
        let read : ConsoleRelay :=
          { relay with unread := relay.unread.drop size, history := relay.afterRead size }
        -- `proxy_console` passes the bytes on and knows nothing of the ring.
        if relay.attached then some read
        else do
          let ring ← relay.ring.pushSlice (relay.unread.take size)
          some { read with ring }
      else none
  | .connect =>
      if relay.attached then none
      else do
        let segments ← relay.ring.replaySegments
        let replay := { shown := segments.flatten, history := relay.history }
        some { relay with attached := true, replays := relay.replays ++ [replay] }
  | .disconnect => if relay.attached then some { relay with attached := false } else none

/-- The bytes that went into the ring. -/
def drained (history : List ReadByte) : List UInt8 :=
  (history.filter fun read => !read.live).map ReadByte.byte

/-- The invariant: the ring and every replay have the most recent of the drained bytes. -/
structure Tracks (relay : ConsoleRelay) : Prop where
  ring : relay.ring.Holds ringCapacity (drained relay.history)
  replays : ∀ replay ∈ relay.replays, replay.shown = (drained replay.history).rtake ringCapacity

theorem tracks_init : init.Tracks where
  ring := ConsoleRingBuffer.holds_new ringCapacity
  replays := by simp [init]

theorem drained_append (before after : List ReadByte) :
    drained (before ++ after) = drained before ++ drained after := by
  simp [drained]

theorem drained_map_live (bytes : List UInt8) :
    drained (bytes.map fun byte => { byte, live := true }) = [] := by
  simp [drained, List.filter_map, Function.comp_def]

theorem drained_map_not_live (bytes : List UInt8) :
    drained (bytes.map fun byte => { byte, live := false }) = bytes := by
  simp [drained, List.filter_map, Function.comp_def]

/-- A read without a client goes into the ring. -/
theorem Tracks.drain {relay : ConsoleRelay} (tracks : relay.Tracks) (alone : relay.attached = false)
    {size : Nat} (readable : 0 < size ∧ size ≤ bufferSize ∧ size ≤ relay.unread.length) :
    ∃ ring, relay.step (.read size) = some { relay with
        ring, unread := relay.unread.drop size, history := relay.afterRead size } ∧
      ring.Holds ringCapacity (drained (relay.afterRead size)) := by
  obtain ⟨ring, push, holds⟩ := tracks.ring.pushSlice (relay.unread.take size)
  refine ⟨ring, ?_, ?_⟩
  · simp [step, readable, alone, push]
  · rwa [afterRead, drained_append, alone, drained_map_not_live]

/-- A client that connects is shown the ring. -/
theorem Tracks.connect {relay : ConsoleRelay} (tracks : relay.Tracks)
    (alone : relay.attached = false) :
    relay.step .connect = some { relay with
      attached := true
      replays := relay.replays ++ [{ shown := (drained relay.history).rtake ringCapacity
                                     history := relay.history }] } := by
  obtain ⟨segments, replayed, -, flatten_eq⟩ := tracks.ring.replaySegments
  simp [step, alone, replayed, flatten_eq]

theorem Tracks.step {relay next : ConsoleRelay} {action : ConsoleAction} (tracks : relay.Tracks)
    (stepped : relay.step action = some next) : next.Tracks := by
  cases action with
  | produce bytes =>
      obtain rfl := Option.some.inj stepped
      exact { ring := tracks.ring, replays := tracks.replays }
  | read size =>
      by_cases readable : 0 < size ∧ size ≤ bufferSize ∧ size ≤ relay.unread.length
      · cases attached : relay.attached with
        | false =>
            obtain ⟨ring, drains, holds⟩ := tracks.drain attached readable
            obtain rfl := Option.some.inj (drains.symm.trans stepped)
            exact { ring := holds, replays := tracks.replays }
        | true =>
            rw [ConsoleRelay.step, if_pos readable, if_pos attached] at stepped
            obtain rfl := Option.some.inj stepped
            refine { ring := ?_, replays := tracks.replays }
            dsimp only
            rw [afterRead, drained_append, attached, drained_map_live, List.append_nil]
            exact tracks.ring
      · rw [ConsoleRelay.step, if_neg readable] at stepped
        cases stepped
  | connect =>
      cases attached : relay.attached with
      | false =>
          obtain rfl := Option.some.inj ((tracks.connect attached).symm.trans stepped)
          refine { ring := tracks.ring, replays := fun replay member => ?_ }
          rcases List.mem_append.mp member with earlier | last
          · exact tracks.replays replay earlier
          · obtain rfl := List.mem_singleton.mp last
            dsimp only
      | true =>
          rw [ConsoleRelay.step, if_pos attached] at stepped
          cases stepped
  | disconnect =>
      cases attached : relay.attached with
      | false => simp [ConsoleRelay.step, attached] at stepped
      | true =>
          rw [ConsoleRelay.step, if_pos attached] at stepped
          obtain rfl := Option.some.inj stepped
          exact { ring := tracks.ring, replays := tracks.replays }

/-- In every run a replay shows the most recent of the bytes that no client was shown live. -/
theorem tracks_of_run {actions : List ConsoleAction} {relay : ConsoleRelay}
    (execution : run ConsoleRelay.step actions init = some relay) : relay.Tracks :=
  invariant_of_run (fun tracks stepped => tracks.step stepped) tracks_init execution

/-- None of the last bytes, as many as the ring has room for, went to a client. -/
def RecentlyAlone (history : List ReadByte) : Prop :=
  ∀ read ∈ history.rtake ringCapacity, read.live = false

theorem rtake_drained {history : List ReadByte} (alone : RecentlyAlone history) :
    (drained history).rtake ringCapacity = (history.map ReadByte.byte).rtake ringCapacity := by
  have kept : ∀ read ∈ history.rtake ringCapacity, (!read.live) = true := by
    intro read recent
    rw [alone read recent, Bool.not_false]
  rw [drained, Ring.rtake_map, Ring.rtake_map, Ring.rtake_filter kept]

/-- A client connects only when none was shown any of the last bytes. -/
def Unseen (relay : ConsoleRelay) (action : ConsoleAction) : Prop :=
  action = .connect → RecentlyAlone relay.history

theorem recentlyAlone_step {before after : ConsoleRelay} {action : ConsoleAction}
    (alone : ∀ replay ∈ before.replays, RecentlyAlone replay.history)
    (unseen : before.Unseen action) (stepped : before.step action = some after) :
    ∀ replay ∈ after.replays, RecentlyAlone replay.history := by
  cases action with
  | produce bytes =>
      obtain rfl := Option.some.inj stepped
      exact alone
  | read size =>
      simp only [ConsoleRelay.step] at stepped
      split at stepped
      · split at stepped
        · obtain rfl := Option.some.inj stepped
          exact alone
        · obtain ⟨ring, -, stepped⟩ := Option.bind_eq_some_iff.mp stepped
          obtain rfl := Option.some.inj stepped
          exact alone
      · cases stepped
  | connect =>
      simp only [ConsoleRelay.step] at stepped
      split at stepped
      · cases stepped
      · obtain ⟨segments, -, stepped⟩ := Option.bind_eq_some_iff.mp stepped
        obtain rfl := Option.some.inj stepped
        intro replay member
        rcases List.mem_append.mp member with earlier | last
        · exact alone replay earlier
        · rw [List.mem_singleton.mp last]
          exact unseen rfl
  | disconnect =>
      simp only [ConsoleRelay.step] at stepped
      split at stepped
      · obtain rfl := Option.some.inj stepped
        exact alone
      · cases stepped

/-- Where clients connect only when none was shown any of the last bytes, every client is shown a
contiguous suffix of the output first. -/
theorem replays_contiguous {actions : List ConsoleAction} {relay : ConsoleRelay}
    (guarded : Guarded ConsoleRelay.step Unseen actions init)
    (execution : run ConsoleRelay.step actions init = some relay) :
    ∀ replay ∈ relay.replays,
      replay.shown = (replay.history.map ReadByte.byte).rtake ringCapacity := by
  have initially : ∀ replay ∈ init.replays, RecentlyAlone replay.history := by simp [init]
  have alone : ∀ replay ∈ relay.replays, RecentlyAlone replay.history :=
    invariant_of_guarded recentlyAlone_step initially guarded execution
  intro replay member
  rw [(tracks_of_run execution).replays replay member, rtake_drained (alone replay member)]

/-- The boot output is read before the first client connects. -/
theorem boot_replayed : ∃ relay,
    run ConsoleRelay.step [.produce [98], .read 1, .connect] init = some relay ∧
      ∀ replay ∈ relay.replays,
        replay.shown = (replay.history.map ReadByte.byte).rtake ringCapacity := by
  let produced : ConsoleRelay := { init with unread := [98] }
  have produces : init.step (.produce [98]) = some produced := rfl
  have readable : 0 < 1 ∧ 1 ≤ bufferSize ∧ 1 ≤ produced.unread.length := by decide
  obtain ⟨ring, drains, -⟩ := (tracks_init.step produces).drain rfl readable
  have connects := ((tracks_init.step produces).step drains).connect rfl
  have execution := run_cons_eq_some.mpr ⟨_, produces, run_cons_eq_some.mpr ⟨_, drains,
    run_cons_eq_some.mpr ⟨_, connects, run_nil _ _⟩⟩⟩
  refine ⟨_, execution, replays_contiguous ?_ execution⟩
  rw [guarded_cons produces, guarded_cons drains, guarded_cons connects]
  refine ⟨nofun, nofun, fun _ read recent => ?_, trivial⟩
  obtain rfl : read = { byte := 98, live := false } :=
    List.mem_singleton.mp (List.mem_of_mem_drop recent)
  rfl

/-- A client that connects again is not shown what an earlier client was shown live. -/
theorem live_output_not_replayed : ¬ ∀ actions relay,
    run ConsoleRelay.step actions init = some relay → ∀ replay ∈ relay.replays,
      replay.shown = (replay.history.map ReadByte.byte).rtake ringCapacity := by
  intro contiguous
  have connects := tracks_init.connect rfl
  have watched := tracks_init.step connects
  let unplugged : ConsoleRelay := { init with
    history := [{ byte := 108, live := true }]
    replays := [{ shown := (drained []).rtake ringCapacity, history := [] }] }
  have tracks : unplugged.Tracks := { ring := watched.ring, replays := watched.replays }
  have reconnects := tracks.connect rfl
  have execution : run ConsoleRelay.step
      [.connect, .produce [108], .read 1, .disconnect, .connect] init = some _ :=
    run_cons_eq_some.mpr ⟨_, connects, run_cons_eq_some.mpr ⟨_, rfl, run_cons_eq_some.mpr
      ⟨_, rfl, run_cons_eq_some.mpr ⟨unplugged, rfl, run_cons_eq_some.mpr
        ⟨_, reconnects, run_nil _ _⟩⟩⟩⟩⟩
  have shown := contiguous _ _ execution
    { shown := (drained unplugged.history).rtake ringCapacity, history := unplugged.history }
    (List.mem_append_right _ (List.mem_singleton_self _))
  have missed : (drained unplugged.history).rtake ringCapacity = [] := List.rtake_nil ringCapacity
  dsimp only at shown
  rw [missed, Ring.rtake_of_length_le (by decide)] at shown
  cases shown

end ConsoleRelay

end Pelagos.Daemon
