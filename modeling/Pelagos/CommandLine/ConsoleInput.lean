import Mathlib.Data.List.TakeWhile
import Pelagos.Library.Execution

/-!
# Input to the VM console

`pelagos vm console` copies its standard input to the console until a Ctrl-] or the end of the
input.  A chunk with a Ctrl-] is dropped whole, and a hang-up ends the input after one more chunk,
so what reaches the console depends on how the input is cut into chunks.
-/

namespace Pelagos.CommandLine

open Execution

/-- Ctrl-], which detaches. -/
def detachByte : UInt8 := 0x1D

/-- What `poll` reports, and what the calls on the ready descriptors return. -/
structure Ready where
  /-- `POLLIN` of the standard input, with the bytes that are read; at its end there are none. -/
  stdin : Option (List UInt8)
  /-- `POLLHUP` or `POLLERR` of the standard input. -/
  stdinHangUp : Bool
  /-- `POLLIN` of the console, with the bytes that are read. -/
  console : Option (List UInt8)
  /-- The write to the standard output succeeds. -/
  stdoutOpen : Bool
  /-- `POLLHUP` or `POLLERR` of the console. -/
  consoleHangUp : Bool
  deriving DecidableEq

/-- What a `poll` of the terminal and the daemon returns. -/
inductive Poll where
  | failed
  | timedOut
  | ready (ready : Ready)
  deriving DecidableEq

/-- One turn of the loop. -/
structure ConsoleTurn where
  /-- The clock in nanoseconds, as it is read for the deadline. -/
  now : Nat
  /-- The clock as it is read for the time that remains. -/
  later : Nat
  poll : Poll
  deriving DecidableEq

/-- The variables of `console_proxy`, with what it has written so far. -/
structure ConsoleProxy where
  stdinDone : Bool
  drainUntil : Option Nat
  forwarded : List UInt8
  printed : List UInt8
  /-- The loop has been left. -/
  ended : Bool
  deriving DecidableEq

/-- How a part of the loop's body is left. -/
inductive LoopFlow where
  | stop (proxy : ConsoleProxy)
  | again (proxy : ConsoleProxy)
  | onward (proxy : ConsoleProxy)

namespace ConsoleProxy

def start : ConsoleProxy :=
  { stdinDone := false, drainUntil := none, forwarded := [], printed := [], ended := false }

def leave (proxy : ConsoleProxy) : ConsoleProxy := { proxy with ended := true }

/-- Before `poll`: once the input is done, a terminal is left at once and a pipe after two
seconds in which the console drains. -/
def beforePoll (isTty : Bool) (now later : Nat) (proxy : ConsoleProxy) : Option ConsoleProxy :=
  if proxy.stdinDone then
    if isTty then none
    else
      let deadline := proxy.drainUntil.getD (now + 2000000000)
      if deadline - later = 0 then none else some { proxy with drainUntil := some deadline }
  else some proxy

/-- From the standard input to the console. -/
def readStdin (ready : Ready) (proxy : ConsoleProxy) : LoopFlow :=
  match ready.stdin with
  | none => .onward proxy
  | some chunk =>
      if proxy.stdinDone then .onward proxy
      else if chunk = [] then .again { proxy with stdinDone := true }
      else if detachByte ∈ chunk then .stop proxy
      else .onward { proxy with forwarded := proxy.forwarded ++ chunk }

def noteHangUp (ready : Ready) (proxy : ConsoleProxy) : ConsoleProxy :=
  if ready.stdinHangUp then { proxy with stdinDone := true } else proxy

/-- From the console to the standard output. -/
def readConsole (ready : Ready) (proxy : ConsoleProxy) : ConsoleProxy :=
  match ready.console with
  | none => if ready.consoleHangUp then proxy.leave else proxy
  | some chunk =>
      if chunk = [] || !ready.stdoutOpen then proxy.leave
      else
        let proxy := { proxy with printed := proxy.printed ++ chunk }
        if ready.consoleHangUp then proxy.leave else proxy

/-- One turn of the loop. -/
def turn (isTty : Bool) (proxy : ConsoleProxy) (turn : ConsoleTurn) : ConsoleProxy :=
  match proxy.beforePoll isTty turn.now turn.later with
  | none => proxy.leave
  | some proxy =>
      match turn.poll with
      | .failed => proxy.leave
      | .timedOut => proxy.leave
      | .ready ready =>
          match proxy.readStdin ready with
          | .stop proxy => proxy.leave
          | .again proxy => proxy
          | .onward proxy => (proxy.noteHangUp ready).readConsole ready

end ConsoleProxy

/-! ## The input -/

/-- The proxy and the part of the input that it has not read. -/
structure ConsoleWorld where
  proxy : ConsoleProxy
  unread : List UInt8
  deriving DecidableEq

/-- What `poll` and `read` can say of a standard input that still has these bytes to give: a read
returns some of them and none only at the end, and a hang-up without data means that there are
none. -/
def Ready.FitsInput (ready : Ready) (unread : List UInt8) : Prop :=
  match ready.stdin with
  | some chunk => chunk <+: unread ∧ chunk.length ≤ 4096 ∧ (chunk = [] → unread = [])
  | none => ready.stdinHangUp → unread = []

instance (ready : Ready) (unread : List UInt8) : Decidable (ready.FitsInput unread) :=
  match found : ready.stdin with
  | some chunk => decidable_of_iff
      (chunk <+: unread ∧ chunk.length ≤ 4096 ∧ (chunk = [] → unread = []))
      (by rw [Ready.FitsInput, found])
  | none => decidable_of_iff (ready.stdinHangUp → unread = []) (by rw [Ready.FitsInput, found])

/-- The console and the standard output stay open. -/
def Ready.StaysOpen (ready : Ready) : Prop :=
  ready.console ≠ some [] ∧ ready.stdoutOpen ∧ ready.consoleHangUp = false

instance (ready : Ready) : Decidable ready.StaysOpen := instDecidableAnd

namespace ConsoleWorld

def init (input : List UInt8) : ConsoleWorld := { proxy := .start, unread := input }

/-- A turn that the input and the console allow; `poll` has a timeout only after the input. -/
def Allows (world : ConsoleWorld) (turn : ConsoleTurn) : Prop :=
  match turn.poll with
  | .failed => False
  | .timedOut => world.proxy.stdinDone
  | .ready ready =>
      (world.proxy.stdinDone = false → ready.FitsInput world.unread) ∧ ready.StaysOpen

instance (world : ConsoleWorld) (turn : ConsoleTurn) : Decidable (world.Allows turn) :=
  match found : turn.poll with
  | .failed => .isFalse (by rw [Allows, found]; exact id)
  | .timedOut => decidable_of_iff world.proxy.stdinDone (by rw [Allows, found])
  | .ready ready => decidable_of_iff
      ((world.proxy.stdinDone = false → ready.FitsInput world.unread) ∧ ready.StaysOpen)
      (by rw [Allows, found])

/-- The bytes that a turn reads. -/
def chunk (world : ConsoleWorld) (turn : ConsoleTurn) : Option (List UInt8) :=
  match turn.poll with
  | .ready ready => if world.proxy.stdinDone then none else ready.stdin
  | _ => none

def step (isTty : Bool) (world : ConsoleWorld) (turn : ConsoleTurn) : Option ConsoleWorld :=
  if world.proxy.ended = false ∧ world.Allows turn then
    some { proxy := world.proxy.turn isTty turn
           unread := world.unread.drop ((world.chunk turn).getD []).length }
  else none

end ConsoleWorld

/-- A hang-up of the standard input is reported. -/
def ConsoleTurn.hangUp (turn : ConsoleTurn) : Bool :=
  match turn.poll with
  | .ready ready => ready.stdinHangUp
  | _ => false

/-- A Ctrl-] comes first in its chunk, and when a hang-up is reported with a chunk, nothing is left
behind it before the end or a Ctrl-]. -/
def KindlyCut (world : ConsoleWorld) (turn : ConsoleTurn) : Prop :=
  ∀ chunk ∈ world.chunk turn,
    (detachByte ∈ chunk → chunk.head? = some detachByte) ∧
      (detachByte ∉ chunk → turn.hangUp →
        ∀ byte ∈ (world.unread.drop chunk.length).head?, byte = detachByte)

/-- The input up to the first Ctrl-]. -/
def beforeDetach (input : List UInt8) : List UInt8 := input.takeWhile (· ≠ detachByte)

theorem beforeDetach_eq_nil {input : List UInt8} :
    beforeDetach input = [] ↔ ∀ byte ∈ input.head?, byte = detachByte := by
  cases input with
  | nil => simp [beforeDetach]
  | cons byte input => simp [beforeDetach, List.takeWhile_cons]

theorem beforeDetach_append {chunk : List UInt8} (free : detachByte ∉ chunk)
    (rest : List UInt8) : beforeDetach (chunk ++ rest) = chunk ++ beforeDetach rest := by
  refine List.takeWhile_append_of_pos fun byte member => ?_
  simpa using fun same : byte = detachByte => free (same ▸ member)

/-! ## One turn -/

/-- The standard input is not read any more. -/
def ConsoleProxy.Settled (proxy : ConsoleProxy) : Prop := proxy.stdinDone ∨ proxy.ended

instance (proxy : ConsoleProxy) : Decidable proxy.Settled := instDecidableOr

namespace ConsoleProxy

theorem readConsole_forwarded (ready : Ready) (proxy : ConsoleProxy) :
    (proxy.readConsole ready).forwarded = proxy.forwarded := by
  unfold readConsole leave
  grind

theorem readConsole_stdinDone (ready : Ready) (proxy : ConsoleProxy) :
    (proxy.readConsole ready).stdinDone = proxy.stdinDone := by
  unfold readConsole leave
  grind

theorem readConsole_ended {ready : Ready} (stays_open : ready.StaysOpen) (proxy : ConsoleProxy) :
    (proxy.readConsole ready).ended = proxy.ended := by
  unfold readConsole leave
  unfold Ready.StaysOpen at stays_open
  grind

/-- Behind the input, a turn only notes the hang-up. -/
theorem behindInput {ready : Ready} (stays_open : ready.StaysOpen) {proxy : ConsoleProxy}
    (reading : proxy.stdinDone = false) :
    ((proxy.noteHangUp ready).readConsole ready).forwarded = proxy.forwarded ∧
      ((proxy.noteHangUp ready).readConsole ready).stdinDone = ready.stdinHangUp ∧
      ((proxy.noteHangUp ready).readConsole ready).ended = proxy.ended := by
  rw [readConsole_forwarded, readConsole_stdinDone, readConsole_ended stays_open]
  unfold noteHangUp
  cases ready.stdinHangUp with
  | true => exact ⟨rfl, rfl, rfl⟩
  | false => exact ⟨rfl, reading, rfl⟩

/-- A turn after the input forwards nothing. -/
theorem turn_of_done (isTty : Bool) {proxy : ConsoleProxy} (done : proxy.stdinDone = true)
    (turn : ConsoleTurn) :
    (proxy.turn isTty turn).forwarded = proxy.forwarded ∧
      (proxy.turn isTty turn).stdinDone = true := by
  unfold ConsoleProxy.turn
  cases polled : proxy.beforePoll isTty turn.now turn.later with
  | none => exact ⟨rfl, done⟩
  | some polling =>
      have kept : polling.forwarded = proxy.forwarded ∧ polling.stdinDone = true := by
        unfold beforePoll at polled
        grind
      cases turn.poll with
      | failed => exact kept
      | timedOut => exact kept
      | ready ready =>
          have ignored : polling.readStdin ready = .onward polling := by
            unfold readStdin
            cases ready.stdin <;> simp [kept.2]
          simp only [ignored, readConsole_forwarded, readConsole_stdinDone]
          unfold noteHangUp
          split <;> simp [kept]

/-- A turn while the input is being read, by what the standard input gives. -/
theorem turn_of_reading (isTty : Bool) {proxy : ConsoleProxy} (reading : proxy.stdinDone = false)
    (now later : Nat) (ready : Ready) :
    proxy.turn isTty ⟨now, later, .ready ready⟩ =
      match proxy.readStdin ready with
      | .stop proxy => proxy.leave
      | .again proxy => proxy
      | .onward proxy => (proxy.noteHangUp ready).readConsole ready := by
  simp [ConsoleProxy.turn, beforePoll, reading]

end ConsoleProxy

theorem ConsoleWorld.of_step {isTty : Bool} {world next : ConsoleWorld} {turn : ConsoleTurn}
    (stepped : ConsoleWorld.step isTty world turn = some next) :
    world.proxy.ended = false ∧ world.Allows turn ∧
      next =
        { proxy := world.proxy.turn isTty turn
          unread := world.unread.drop ((world.chunk turn).getD []).length } := by
  unfold ConsoleWorld.step at stepped
  split at stepped
  case isTrue enabled =>
    obtain ⟨running, allowed⟩ := enabled
    exact ⟨running, allowed, (Option.some.inj stepped).symm⟩
  case isFalse => cases stepped

/-- What a turn does while the input is being read. -/
inductive ReadingTurn (world : ConsoleWorld) (turn : ConsoleTurn) (next : ConsoleWorld) : Prop where
  | idle (unready : world.chunk turn = none) (nothing : turn.hangUp → world.unread = [])
      (forwarded : next.proxy.forwarded = world.proxy.forwarded)
      (unread : next.unread = world.unread) (stdinDone : next.proxy.stdinDone = turn.hangUp)
      (ended : next.proxy.ended = false)
  | finished (found : world.chunk turn = some []) (nothing : world.unread = [])
      (forwarded : next.proxy.forwarded = world.proxy.forwarded)
      (stdinDone : next.proxy.stdinDone = true)
  | detached (chunk : List UInt8) (found : world.chunk turn = some chunk)
      (detach : detachByte ∈ chunk) (part : chunk <+: world.unread)
      (forwarded : next.proxy.forwarded = world.proxy.forwarded) (ended : next.proxy.ended = true)
  | passed (chunk : List UInt8) (found : world.chunk turn = some chunk)
      (free : detachByte ∉ chunk) (cut : world.unread = chunk ++ next.unread)
      (forwarded : next.proxy.forwarded = world.proxy.forwarded ++ chunk)
      (stdinDone : next.proxy.stdinDone = turn.hangUp) (ended : next.proxy.ended = false)

theorem readingTurn {isTty : Bool} {world next : ConsoleWorld} {turn : ConsoleTurn}
    (reading : world.proxy.stdinDone = false)
    (stepped : ConsoleWorld.step isTty world turn = some next) : ReadingTurn world turn next := by
  obtain ⟨running, allowed, rfl⟩ := ConsoleWorld.of_step stepped
  obtain ⟨now, later, poll⟩ := turn
  cases poll with
  | failed => exact allowed.elim
  | timedOut => simp [ConsoleWorld.Allows, reading] at allowed
  | ready ready =>
      obtain ⟨fits, stays_open⟩ := allowed
      have fits := fits reading
      have turned := ConsoleProxy.turn_of_reading isTty reading now later ready
      unfold Ready.FitsInput at fits
      have found : world.chunk ⟨now, later, .ready ready⟩ = ready.stdin := by
        simp [ConsoleWorld.chunk, reading]
      rw [found]
      cases received : ready.stdin with
      | none =>
          rw [received] at fits found
          have reads : world.proxy.readStdin ready = .onward world.proxy := by
            simp [ConsoleProxy.readStdin, received]
          obtain ⟨forwarded, stdinDone, ended⟩ := ConsoleProxy.behindInput stays_open reading
          rw [turned, reads]
          exact .idle found fits forwarded rfl stdinDone (ended.trans running)
      | some chunk =>
          rw [received] at fits found
          obtain ⟨part, -, last⟩ := fits
          by_cases empty : chunk = []
          · subst empty
            have reads : world.proxy.readStdin ready =
                .again { world.proxy with stdinDone := true } := by
              simp [ConsoleProxy.readStdin, received, reading]
            rw [turned, reads]
            exact .finished found (last rfl) rfl rfl
          by_cases detach : detachByte ∈ chunk
          · have reads : world.proxy.readStdin ready = .stop world.proxy := by
              simp [ConsoleProxy.readStdin, received, reading, empty, detach]
            rw [turned, reads]
            exact .detached chunk found detach part rfl rfl
          · let passed : ConsoleProxy :=
              { world.proxy with forwarded := world.proxy.forwarded ++ chunk }
            have reads : world.proxy.readStdin ready = .onward passed := by
              simp [ConsoleProxy.readStdin, received, reading, empty, detach, passed]
            obtain ⟨rest, cut⟩ := part
            obtain ⟨forwarded, stdinDone, ended⟩ :=
              @ConsoleProxy.behindInput ready stays_open passed reading
            rw [turned, reads]
            refine .passed chunk found detach ?_ forwarded stdinDone (ended.trans running)
            simp [← cut]

/-! ## Whole runs -/

/-- What the console has been given and what it is due. -/
def ConsoleWorld.due (world : ConsoleWorld) : List UInt8 :=
  world.proxy.forwarded ++ beforeDetach world.unread

/-- A turn that ends the reading has forwarded what was due exactly when the input was kindly
cut; any other turn is kindly cut and owes what was due before. -/
theorem ReadingTurn.owes {world next : ConsoleWorld} {turn : ConsoleTurn}
    (reading : ReadingTurn world turn next) :
    (next.proxy.Settled → (next.proxy.forwarded = world.due ↔ KindlyCut world turn)) ∧
      (¬ next.proxy.Settled → KindlyCut world turn ∧ next.due = world.due) := by
  unfold ConsoleProxy.Settled ConsoleWorld.due KindlyCut
  cases reading with
  | idle unready nothing forwarded unread stdinDone ended =>
      refine ⟨fun settled => ?_, fun _ => ?_⟩
      · have hung_up : turn.hangUp = true := by simpa [stdinDone, ended] using settled
        simp [unready, forwarded, nothing hung_up, beforeDetach]
      · simp [unready, forwarded, unread]
  | finished found nothing forwarded stdinDone =>
      simp [found, nothing, forwarded, stdinDone, beforeDetach]
  | detached chunk found detach part forwarded ended =>
      obtain ⟨rest, cut⟩ := part
      obtain ⟨byte, chunk, rfl⟩ := List.exists_cons_of_ne_nil (List.ne_nil_of_mem detach)
      refine ⟨fun _ => ?_, fun unsettled => absurd (.inr ended) unsettled⟩
      rw [forwarded, List.self_eq_append_right, beforeDetach_eq_nil, ← cut]
      simp [found, detach]
  | passed chunk found free cut forwarded stdinDone ended =>
      have rest : world.unread.drop chunk.length = next.unread := by rw [cut, List.drop_left]
      have owed : beforeDetach world.unread = chunk ++ beforeDetach next.unread := by
        rw [cut, beforeDetach_append free]
      rw [owed, forwarded, ← List.append_assoc]
      refine ⟨fun settled => ?_, fun unsettled => ?_⟩
      · have hung_up : turn.hangUp = true := by simpa [stdinDone, ended] using settled
        rw [List.self_eq_append_right, beforeDetach_eq_nil, ← rest]
        simp [found, free, hung_up]
      · have silent : turn.hangUp = false := by simpa [stdinDone, ended] using unsettled
        simp [found, free, silent]

/-- Nothing is forwarded once the input is no longer read. -/
theorem forwarded_of_settled {isTty : Bool} {turns : List ConsoleTurn} {world last : ConsoleWorld}
    (settled : world.proxy.Settled)
    (execution : run (ConsoleWorld.step isTty) turns world = some last) :
    last.proxy.forwarded = world.proxy.forwarded ∧
      Guarded (ConsoleWorld.step isTty) KindlyCut turns world := by
  induction turns generalizing world with
  | nil =>
      obtain rfl : world = last := Option.some.inj execution
      exact ⟨rfl, trivial⟩
  | cons turn turns ih =>
      obtain ⟨next, stepped, later⟩ := run_cons_eq_some.mp execution
      rw [guarded_cons stepped]
      obtain ⟨running, -, rfl⟩ := ConsoleWorld.of_step stepped
      have done : world.proxy.stdinDone = true := by
        simpa [ConsoleProxy.Settled, running] using settled
      obtain ⟨forwarded, still_done⟩ := ConsoleProxy.turn_of_done isTty done turn
      obtain ⟨kept, guarded⟩ := ih (.inl still_done) later
      refine ⟨kept.trans forwarded, ?_, guarded⟩
      have silent : world.chunk turn = none := by
        unfold ConsoleWorld.chunk
        cases turn.poll <;> simp [done]
      simp [KindlyCut, silent]

theorem forwarded_eq_due_iff {isTty : Bool} {turns : List ConsoleTurn} {world last : ConsoleWorld}
    (reading : ¬ world.proxy.Settled) (ended : last.proxy.ended = true)
    (execution : run (ConsoleWorld.step isTty) turns world = some last) :
    last.proxy.forwarded = world.due ↔
      Guarded (ConsoleWorld.step isTty) KindlyCut turns world := by
  induction turns generalizing world with
  | nil =>
      obtain rfl : world = last := Option.some.inj execution
      exact absurd (.inr ended) reading
  | cons turn turns ih =>
      obtain ⟨next, stepped, later⟩ := run_cons_eq_some.mp execution
      rw [guarded_cons stepped]
      have turned := readingTurn (by simpa using fun done => reading (.inl done)) stepped
      obtain ⟨settles, goes_on⟩ := turned.owes
      by_cases settled : next.proxy.Settled
      · obtain ⟨kept, guarded⟩ := forwarded_of_settled settled later
        rw [kept, settles settled]
        exact (and_iff_left guarded).symm
      · obtain ⟨kindly, same⟩ := goes_on settled
        rw [← same, ih settled later]
        exact (and_iff_right kindly).symm

/-- The console gets the input up to the first Ctrl-] exactly when every chunk with a Ctrl-] begins
with it and every hang-up comes when nothing is left before the end or a Ctrl-]. -/
theorem console_input_iff {isTty : Bool} {input : List UInt8} {turns : List ConsoleTurn}
    {last : ConsoleWorld}
    (execution : run (ConsoleWorld.step isTty) turns (.init input) = some last)
    (ended : last.proxy.ended = true) :
    last.proxy.forwarded = beforeDetach input ↔
      Guarded (ConsoleWorld.step isTty) KindlyCut turns (.init input) := by
  have reading : ¬ (ConsoleWorld.init input).proxy.Settled := by
    simp [ConsoleProxy.Settled, ConsoleWorld.init, ConsoleProxy.start]
  have owed : (ConsoleWorld.init input).due = beforeDetach input := by
    simp [ConsoleWorld.due, ConsoleWorld.init, ConsoleProxy.start]
  rw [← owed]
  exact forwarded_eq_due_iff reading ended execution

/-- The pipe gives `ab` with its hang-up, and the console drains for two seconds. -/
theorem console_input_ab :
    (ConsoleWorld.mk ⟨true, some 2000000000, [0x61, 0x62], [], true⟩ []).proxy.forwarded =
        beforeDetach [0x61, 0x62] ↔
      Guarded (ConsoleWorld.step false) KindlyCut
        [⟨0, 0, .ready ⟨some [0x61, 0x62], true, none, true, false⟩⟩, ⟨0, 1, .timedOut⟩]
        (.init [0x61, 0x62]) :=
  console_input_iff (by decide) (by decide)

/-- A Ctrl-] takes the bytes that were read with it along. -/
theorem input_lost_with_detach :
    ¬ ∀ (isTty : Bool) (input : List UInt8) (turns : List ConsoleTurn) (last : ConsoleWorld),
      run (ConsoleWorld.step isTty) turns (.init input) = some last →
        last.proxy.ended = true → last.proxy.forwarded = beforeDetach input := by
  intro independent
  have lost := independent true [0x61, 0x1D]
    [⟨0, 0, .ready ⟨some [0x61, 0x1D], false, none, true, false⟩⟩]
    (ConsoleWorld.mk ⟨false, none, [], [], true⟩ []) (by decide) (by decide)
  exact absurd lost (by decide)

end Pelagos.CommandLine
