import Pelagos.Library.Execution
import Pelagos.Wire.PipedOutput

/-!
# Input of a piped exec

The host's input thread polls its standard input and the resize pipe and sends what it reads as
frames; an empty frame means the end of the input.  The guest's input thread writes the frames to
the child and closes the child's input at the empty frame.  A poll that fails, be it only because a
signal arrived, ends the host's thread without the empty frame.
-/

namespace Pelagos.Wire

open ByteStream Execution Frames

/-- The bits `poll` reports for the standard input. -/
structure Revents where
  pollin : Bool
  pollhup : Bool
  /-- `POLLERR` or `POLLNVAL`. -/
  pollerr : Bool
  deriving DecidableEq

/-- What `poll` returns. -/
inductive PollResult where
  /-- A result of at most zero, such as an interruption by a signal. -/
  | failed
  /-- Some descriptor is ready; `resize` says whether the resize pipe is. -/
  | ready (stdin : Revents) (resize : Bool)
  deriving DecidableEq

/-- What a read of the standard input returns. -/
inductive ReadResult where
  | interrupted
  | failed
  /-- At most `size + 1` bytes, or zero bytes at the end of the input. -/
  | taken (size : Fin 4096)
  deriving DecidableEq

/-- One round of the input thread: its poll, the terminal size if it asks for it, and its read if it
makes one. -/
structure PollRound where
  poll : PollResult
  winsize : Option (UInt16 × UInt16)
  read : ReadResult
  deriving DecidableEq

/-- The input thread of `exec_command`. -/
structure InputThread where
  /-- What has not been read from the standard input. -/
  unread : List UInt8
  sent : List Frame
  running : Bool
  deriving DecidableEq

/-- The empty frame that ends the input. -/
def endOfInput : Frame := { type := frameStdin, payload := [] }

/-- `read_winsize`: rows and columns in two bytes each. -/
def winsizePayload (winsize : UInt16 × UInt16) : List UInt8 :=
  toBigEndian 2 winsize.1.toNat ++ toBigEndian 2 winsize.2.toNat

namespace InputThread

def start (stdin : List UInt8) : InputThread := { unread := stdin, sent := [], running := true }

/-- Tell the guest about the terminal size, if there is a terminal. -/
def sendResize (thread : InputThread) : Option (UInt16 × UInt16) → InputThread
  | none => thread
  | some winsize =>
      { thread with
        sent := thread.sent ++ [{ type := frameResize, payload := winsizePayload winsize }] }

/-- Send the empty frame and leave the loop. -/
def sendEnd (thread : InputThread) : InputThread :=
  { thread with sent := thread.sent ++ [endOfInput], running := false }

/-- Read the standard input once and forward the bytes. -/
def forwardRead (thread : InputThread) : ReadResult → InputThread
  | .interrupted => thread
  | .failed => thread.sendEnd
  | .taken size =>
      if thread.unread = [] then thread.sendEnd
      else
        { thread with
          unread := thread.unread.drop (size + 1)
          sent := thread.sent ++
            [{ type := frameStdin, payload := thread.unread.take (size + 1) }] }

/-- One round of the loop. -/
def round (thread : InputThread) (round : PollRound) : InputThread :=
  match round.poll with
  | .failed => { thread with running := false }
  | .ready stdin resize =>
      let thread := if resize then thread.sendResize round.winsize else thread
      let thread :=
        if stdin.pollin || stdin.pollhup then thread.forwardRead round.read else thread
      if thread.running && stdin.pollerr then thread.sendEnd else thread

/-- A round is made as long as the loop has not been left. -/
def step (thread : InputThread) (poll_round : PollRound) : Option InputThread :=
  if thread.running then some (thread.round poll_round) else none

end InputThread

/-- The standard input of the guest's child. -/
structure ChildInput where
  written : List UInt8
  closed : Bool
  deriving DecidableEq

/-- The input thread of `handle_exec_piped` on the frames it has received; it goes on waiting after
the last one. -/
def writeChildInput : List Frame → ChildInput
  | [] => { written := [], closed := false }
  | frame :: frames =>
      if frame.type = frameStdin then
        if frame.payload = [] then { written := [], closed := true }
        else
          let later := writeChildInput frames
          { later with written := frame.payload ++ later.written }
      else if frame.type = frameResize then writeChildInput frames
      else { written := [], closed := true }

/-- A frame the thread sends before the end of the input. -/
def IsInput (frame : Frame) : Prop :=
  frame.Fits ∧ (frame.type = frameStdin ∧ frame.payload ≠ [] ∨ frame.type = frameResize)

/-- The input bytes in a sequence of frames. -/
def inputBytes (frames : List Frame) : List UInt8 :=
  (frames.filter fun frame => frame.type = frameStdin).flatMap Frame.payload

/-- The child gets exactly the input and then its end; the empty frame is the last one and the only
one; resize frames do not matter. -/
structure Delivered (stdin : List UInt8) (frames : List Frame) : Prop where
  arrives : ∀ pieces : Pieces UInt8, contents pieces = frames.flatMap Host.sendFrame →
    ∃ received, Receives Guest.recvFrame pieces received .unexpectedEof ∧
      writeChildInput received = { written := stdin, closed := true }
  ends_once : ∃ front, frames = front ++ [endOfInput] ∧ endOfInput ∉ front
  resize_ignored : writeChildInput (frames.filter fun frame => frame.type ≠ frameResize) =
    writeChildInput frames

/-- Nothing but interruptions goes wrong: no read fails and the input has no error condition. -/
def PollRound.Errorless (round : PollRound) : Prop :=
  round.read ≠ .failed ∧ ∀ stdin resize, round.poll = .ready stdin resize → stdin.pollerr = false

theorem writeChildInput_filter (frames : List Frame) :
    writeChildInput (frames.filter fun frame => frame.type ≠ frameResize) =
      writeChildInput frames := by
  induction frames with
  | nil => rfl
  | cons frame frames ih =>
      by_cases resize : frame.type = frameResize
      · have other : frameResize ≠ frameStdin := by decide
        simp [writeChildInput, resize, other, ← ih]
      · simp only [resize, not_false_eq_true, decide_true, List.filter_cons_of_pos, writeChildInput,
          if_false, ne_eq] at ih ⊢
        simp only [← ih]

/-- The child's input is made of the input frames up to the empty one. -/
theorem writeChildInput_input {front : List Frame} (input : ∀ frame ∈ front, IsInput frame) :
    writeChildInput (front ++ [endOfInput]) = { written := inputBytes front, closed := true } := by
  induction front with
  | nil => rfl
  | cons frame front ih =>
      have later := ih fun frame member => input frame (List.mem_cons_of_mem _ member)
      rw [List.cons_append, writeChildInput, later]
      obtain ⟨-, ⟨type_eq, nonempty⟩ | type_eq⟩ := input frame List.mem_cons_self
      · simp [type_eq, nonempty, inputBytes]
      · have other : frameResize ≠ frameStdin := by decide
        simp [type_eq, other, inputBytes]

theorem inputBytes_append (front back : List Frame) :
    inputBytes (front ++ back) = inputBytes front ++ inputBytes back := by
  simp [inputBytes]

theorem not_isInput_endOfInput : ¬ IsInput endOfInput := by
  rintro ⟨-, ⟨-, nonempty⟩ | type_eq⟩
  · exact nonempty rfl
  · exact absurd type_eq (by decide)

theorem isInput_resize (winsize : UInt16 × UInt16) :
    IsInput { type := frameResize, payload := winsizePayload winsize } := by
  refine ⟨?_, Or.inr rfl⟩
  rw [Frame.Fits, winsizePayload, List.length_append, length_toBigEndian, length_toBigEndian]
  decide

theorem isInput_chunk {unread : List UInt8} (left : unread ≠ []) (size : Fin 4096) :
    IsInput { type := frameStdin, payload := unread.take (size + 1) } := by
  refine ⟨?_, Or.inl ⟨rfl, by simp [left]⟩⟩
  have bound : (unread.take (size + 1)).length ≤ size + 1 := List.length_take_le _ _
  change (unread.take (size + 1)).length < 256 ^ 4
  omega

/-- The frames sent so far carry what has been read; the empty frame follows when the loop has been
left. -/
def Forwards (stdin : List UInt8) (thread : InputThread) : Prop :=
  ∃ front, (∀ frame ∈ front, IsInput frame) ∧
    inputBytes front ++ (if thread.running then thread.unread else []) = stdin ∧
    thread.sent = front ++ if thread.running then [] else [endOfInput]

theorem forwards_start (stdin : List UInt8) : Forwards stdin (InputThread.start stdin) :=
  ⟨[], by simp, rfl, rfl⟩

/-- While the thread runs, everything it has sent is input. -/
theorem Forwards.running {stdin : List UInt8} {thread : InputThread}
    (forwards : Forwards stdin thread) (running : thread.running = true) :
    (∀ frame ∈ thread.sent, IsInput frame) ∧ inputBytes thread.sent ++ thread.unread = stdin := by
  obtain ⟨front, input, carried, sent_eq⟩ := forwards
  rw [running, if_pos rfl, List.append_nil] at sent_eq
  rw [running, if_pos rfl] at carried
  exact ⟨sent_eq ▸ input, sent_eq ▸ carried⟩

theorem Forwards.of_running {stdin : List UInt8} {thread : InputThread}
    (running : thread.running = true) (input : ∀ frame ∈ thread.sent, IsInput frame)
    (carried : inputBytes thread.sent ++ thread.unread = stdin) : Forwards stdin thread :=
  ⟨thread.sent, input, by rw [running, if_pos rfl, carried], by simp [running]⟩

theorem Forwards.sendResize {stdin : List UInt8} {thread : InputThread}
    (forwards : Forwards stdin thread) (running : thread.running = true)
    (winsize : Option (UInt16 × UInt16)) : Forwards stdin (thread.sendResize winsize) := by
  cases winsize with
  | none => exact forwards
  | some winsize =>
      obtain ⟨input, carried⟩ := forwards.running running
      refine .of_running running ?_ ?_
      · intro frame member
        rcases List.mem_append.mp member with earlier | last
        · exact input frame earlier
        · exact List.mem_singleton.mp last ▸ isInput_resize winsize
      · have silent : inputBytes
            [{ type := frameResize, payload := winsizePayload winsize }] = [] := rfl
        change inputBytes (thread.sent ++ _) ++ thread.unread = stdin
        rw [inputBytes_append, silent, List.append_nil, carried]

theorem running_sendResize (thread : InputThread) (winsize : Option (UInt16 × UInt16)) :
    (thread.sendResize winsize).running = thread.running := by
  cases winsize <;> rfl

theorem Forwards.forwardRead {stdin : List UInt8} {thread : InputThread}
    (forwards : Forwards stdin thread) (running : thread.running = true) {read : ReadResult}
    (errorless : read ≠ .failed) : Forwards stdin (thread.forwardRead read) := by
  obtain ⟨input, carried⟩ := forwards.running running
  cases read with
  | interrupted => exact forwards
  | failed => exact absurd rfl errorless
  | taken size =>
      rw [InputThread.forwardRead]
      split
      · rename_i drained
        rw [drained, List.append_nil] at carried
        exact ⟨thread.sent, input, by simpa [InputThread.sendEnd] using carried, rfl⟩
      · rename_i left
        refine .of_running running ?_ ?_
        · intro frame member
          rcases List.mem_append.mp member with earlier | last
          · exact input frame earlier
          · exact List.mem_singleton.mp last ▸ isInput_chunk left size
        · have chunk : inputBytes
              [{ type := frameStdin, payload := thread.unread.take (size + 1) }] =
                thread.unread.take (size + 1) := by
            simp [inputBytes]
          change inputBytes (thread.sent ++ _) ++ thread.unread.drop _ = stdin
          rw [inputBytes_append, chunk, List.append_assoc, List.take_append_drop, carried]

/-- A round without an error or a failed poll goes on forwarding the input. -/
theorem Forwards.round {stdin : List UInt8} {thread : InputThread}
    (forwards : Forwards stdin thread) (running : thread.running = true) {round : PollRound}
    (errorless : round.Errorless) (polled : round.poll ≠ .failed) :
    Forwards stdin (thread.round round) := by
  obtain ⟨poll, winsize, read⟩ := round
  cases poll with
  | failed => exact absurd rfl polled
  | ready revents resize =>
      have no_error : revents.pollerr = false := errorless.2 revents resize rfl
      have resized : Forwards stdin (if resize then thread.sendResize winsize else thread) ∧
          (if resize then thread.sendResize winsize else thread).running = true := by
        cases resize with
        | false => exact ⟨forwards, running⟩
        | true =>
            exact ⟨forwards.sendResize running winsize, running_sendResize thread winsize ▸ running⟩
      simp only [InputThread.round, no_error, Bool.and_false, if_false, Bool.false_eq_true]
      split
      · exact resized.1.forwardRead resized.2 errorless.1
      · exact resized.1

/-- How a run of the loop comes out: the input is forwarded if no poll fails; a failed poll is the
last one and leaves the end of the input unsent. -/
theorem forwards_run {stdin : List UInt8} {rounds : List PollRound} {thread final : InputThread}
    (forwards : Forwards stdin thread) (execution : run InputThread.step rounds thread = some final)
    (errorless : ∀ round ∈ rounds, round.Errorless) :
    (∀ round ∈ rounds, round.poll ≠ .failed) ∧ Forwards stdin final ∨
    (∃ round ∈ rounds, round.poll = .failed) ∧ final.running = false ∧
      ∀ frame ∈ final.sent, IsInput frame := by
  induction rounds generalizing thread with
  | nil =>
      obtain rfl : thread = final := Option.some.inj execution
      exact Or.inl ⟨by simp, forwards⟩
  | cons round rounds ih =>
      obtain ⟨next, enabled, later⟩ := run_cons_eq_some.mp execution
      rw [InputThread.step] at enabled
      split at enabled
      · rename_i running
        obtain rfl : thread.round round = next := Option.some.inj enabled
        by_cases polled : round.poll = .failed
        · have stopped : thread.round round = { thread with running := false } := by
            rw [InputThread.round, polled]
          rw [stopped] at later
          cases rounds with
          | nil =>
              obtain rfl : _ = final := Option.some.inj later
              exact Or.inr ⟨⟨round, by simp, polled⟩, rfl, (forwards.running running).1⟩
          | cons => cases later
        · have next_forwards :=
            forwards.round running (errorless round List.mem_cons_self) polled
          rcases ih next_forwards later (fun other member =>
              errorless other (List.mem_cons_of_mem _ member)) with
            ⟨all_polled, forwarded⟩ | ⟨⟨failure, member, failed⟩, unsent⟩
          · exact Or.inl ⟨List.forall_mem_cons.mpr ⟨polled, all_polled⟩, forwarded⟩
          · exact Or.inr ⟨⟨failure, List.mem_cons_of_mem _ member, failed⟩, unsent⟩
      · cases enabled

theorem Forwards.delivered {stdin : List UInt8} {final : InputThread}
    (forwards : Forwards stdin final) (ended : final.running = false) :
    Delivered stdin final.sent := by
  obtain ⟨front, input, carried, sent_eq⟩ := forwards
  simp only [ended, Bool.false_eq_true, if_false, List.append_nil] at carried sent_eq
  refine ⟨fun pieces stream => ⟨final.sent, receives_all ?_ stream, ?_⟩, ⟨front, sent_eq, ?_⟩,
    writeChildInput_filter _⟩
  · intro frame member
    rw [sent_eq] at member
    rcases List.mem_append.mp member with earlier | last
    · exact (input frame earlier).1
    · obtain rfl := List.mem_singleton.mp last
      simp [Frame.Fits, endOfInput]
  · rw [sent_eq, writeChildInput_input input, carried]
  · exact fun member => not_isInput_endOfInput (input _ member)

/-- For every input and every sequence of polls and reads without an error, what the thread has sent
and what it has not read make up the input while it runs; when it has ended, the child gets exactly
the input and its end if and only if no poll failed. -/
theorem piped_input_delivered_iff (stdin : List UInt8) {rounds : List PollRound}
    {final : InputThread}
    (execution : run InputThread.step rounds (InputThread.start stdin) = some final)
    (errorless : ∀ round ∈ rounds, round.Errorless) :
    (final.running = true →
      endOfInput ∉ final.sent ∧ inputBytes final.sent ++ final.unread = stdin) ∧
    (final.running = false →
      (Delivered stdin final.sent ↔ ∀ round ∈ rounds, round.poll ≠ .failed)) := by
  rcases forwards_run (forwards_start stdin) execution errorless with
    ⟨polled, forwards⟩ | ⟨⟨round, member, failed⟩, stopped, input⟩
  · constructor
    · intro running
      obtain ⟨input, carried⟩ := forwards.running running
      exact ⟨fun sent => not_isInput_endOfInput (input _ sent), carried⟩
    · intro ended
      exact iff_of_true (forwards.delivered ended) polled
  · refine ⟨fun running => ?_, fun _ => iff_of_false ?_ fun polled => polled round member failed⟩
    · rw [running] at stopped
      cases stopped
    · intro delivered
      obtain ⟨front, sent_eq, -⟩ := delivered.ends_once
      exact not_isInput_endOfInput (input _ (by simp [sent_eq]))

/-- The terminal is resized, a read is interrupted, and then the input is read to its end. -/
def resizedRounds : List PollRound :=
  [⟨.ready ⟨false, false, false⟩ true, some (24, 80), .interrupted⟩,
    ⟨.ready ⟨true, false, false⟩ false, none, .interrupted⟩,
    ⟨.ready ⟨true, true, false⟩ false, none, .taken 0⟩,
    ⟨.ready ⟨true, true, false⟩ false, none, .taken 4095⟩,
    ⟨.ready ⟨false, true, false⟩ false, none, .taken 4095⟩]

theorem resized_input_delivered :
    ∃ final, run InputThread.step resizedRounds (InputThread.start [104, 105]) = some final ∧
      Delivered [104, 105] final.sent := by
  have execution : ∃ final, run InputThread.step resizedRounds (InputThread.start [104, 105]) =
      some final ∧ final.running = false := ⟨_, rfl, rfl⟩
  obtain ⟨final, execution, ended⟩ := execution
  have errorless : ∀ round ∈ resizedRounds, round.Errorless := by
    simp [resizedRounds, PollRound.Errorless]
  exact ⟨final, execution,
    ((piped_input_delivered_iff _ execution errorless).2 ended).mpr (by decide)⟩

/-- A poll interrupted by the signal of a resize: the child never gets the end of its input. -/
theorem interrupted_poll_loses_end :
    ∃ final, run InputThread.step
        [⟨.ready ⟨true, false, false⟩ false, none, .taken 4095⟩, ⟨.failed, none, .interrupted⟩]
        (InputThread.start [104, 105]) = some final ∧ final.running = false ∧
      writeChildInput final.sent = { written := [104, 105], closed := false } ∧
      ¬ Delivered [104, 105] final.sent := by
  refine ⟨_, rfl, rfl, by decide, fun delivered => ?_⟩
  obtain ⟨front, sent_eq, -⟩ := delivered.ends_once
  have sent : endOfInput ∈ front ++ [endOfInput] := by simp
  rw [← sent_eq] at sent
  exact absurd sent (by decide)

end Pelagos.Wire
