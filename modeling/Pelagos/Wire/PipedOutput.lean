import Mathlib.Logic.Function.Basic
import Pelagos.Library.Execution
import Pelagos.Library.Frames

/-!
# Frames and the output of a piped exec

After the ready line the host and the guest exchange frames.  Each side has a sender and a receiver
of its own; the constants and the byte layout are the same.  Two threads of the guest copy the
child's pipes into frames, each frame written under one lock.  The main thread joins both, waits for
the child and writes the exit frame.  The host writes the payloads to its own streams until it reads
the exit frame.
-/

namespace Pelagos.Wire

open ByteStream Execution Frames

/-- `FRAME_STDIN` (host to guest). -/
def frameStdin : UInt8 := 0

/-- `FRAME_STDOUT` (guest to host). -/
def frameStdout : UInt8 := 1

/-- `FRAME_STDERR` (guest to host). -/
def frameStderr : UInt8 := 2

/-- `FRAME_EXIT` (guest to host, four bytes). -/
def frameExit : UInt8 := 3

/-- `FRAME_RESIZE` (host to guest, rows and columns). -/
def frameResize : UInt8 := 4

namespace Host

/-- The bytes the host writes for a frame. -/
def sendFrame (frame : Frame) : List UInt8 := encode frame

/-- The host reads one frame. -/
def recvFrame (pieces : Pieces UInt8) : Except ReadError (Frame × Pieces UInt8) := receive pieces

end Host

namespace Guest

/-- The bytes the guest writes for a frame. -/
def sendFrame (frame : Frame) : List UInt8 := encode frame

/-- The guest reads one frame. -/
def recvFrame (pieces : Pieces UInt8) : Except ReadError (Frame × Pieces UInt8) := receive pieces

end Guest

/-- In both directions, on any front of the bytes of a sequence of frames and for any pieces, the
receiver gets exactly the frames that lie wholly in the front and then the end of the stream; on all
of the bytes these are all of the frames. -/
theorem frames_received_whole {frames : List Frame} (fits : ∀ frame ∈ frames, frame.Fits)
    (pieces : Pieces UInt8) :
    (contents pieces <+: frames.flatMap Host.sendFrame →
      Receives Guest.recvFrame pieces (wholeFrames (contents pieces).length frames)
        .unexpectedEof) ∧
    (contents pieces <+: frames.flatMap Guest.sendFrame →
      Receives Host.recvFrame pieces (wholeFrames (contents pieces).length frames)
        .unexpectedEof) ∧
    (contents pieces = frames.flatMap Host.sendFrame →
      Receives Guest.recvFrame pieces frames .unexpectedEof) ∧
    (contents pieces = frames.flatMap Guest.sendFrame →
      Receives Host.recvFrame pieces frames .unexpectedEof) :=
  ⟨receives_of_front fits, receives_of_front fits, receives_all fits, receives_all fits⟩

/-- The bytes of one frame in two pieces, and cut off before the last byte. -/
theorem split_frame_received :
    let frame : Frame := { type := frameStdout, payload := [104, 105] }
    Receives Guest.recvFrame [⟨[1, 0, 0], by decide⟩, ⟨[0, 2, 104, 105], by decide⟩] [frame]
      .unexpectedEof ∧
    Receives Guest.recvFrame [⟨[1, 0, 0, 0, 2, 104], by decide⟩] [] .unexpectedEof := by
  intro frame
  have fits : ∀ sent ∈ [frame], sent.Fits := by simp [Frame.Fits, frame]
  exact ⟨(frames_received_whole fits _).2.2.1 (by decide),
    (frames_received_whole fits _).1 (by decide)⟩

/-! ## The child's output -/

/-- `i32::to_be_bytes`. -/
def i32ToBytes (value : Int32) : List UInt8 := toBigEndian 4 value.toUInt32.toNat

/-- `i32::from_be_bytes`. -/
def i32OfBytes (bytes : List UInt8) : Int32 := (UInt32.ofNat (ofBigEndian bytes)).toInt32

theorem i32OfBytes_toBytes (value : Int32) : i32OfBytes (i32ToBytes value) = value := by
  have small : value.toUInt32.toNat < 256 ^ 4 := value.toUInt32.toNat_lt
  rw [i32OfBytes, i32ToBytes, ofBigEndian_toBigEndian, Nat.mod_eq_of_lt small,
    UInt32.ofNat_toNat, Int32.toInt32_toUInt32]

/-- The two output pipes of the child. -/
inductive ChildStream where
  | stdout
  | stderr
  deriving DecidableEq

/-- The type of the frames that carry a stream. -/
def ChildStream.frameType : ChildStream → UInt8
  | .stdout => frameStdout
  | .stderr => frameStderr

/-- The thread that copies one pipe. -/
structure OutputThread where
  /-- What the child writes to the pipe and the thread has not read. -/
  unread : List UInt8
  /-- What the thread has read and not sent; empty between two reads. -/
  buffer : List UInt8
  /-- The thread has read the end of the pipe. -/
  ended : Bool

/-- Where the main thread is. -/
inductive MainPhase where
  | joiningStdout
  | joiningStderr
  | waiting
  | exiting
  | returned
  deriving DecidableEq

/-- `handle_exec_piped` after the spawn. -/
structure PipedExec where
  thread : ChildStream → OutputThread
  main : MainPhase
  /-- The child's exit code; `none` when a signal kills it. -/
  status : Option Int32
  /-- The frames written so far. -/
  sent : List Frame

/-- One step of one of the three threads. -/
inductive PipedAction where
  /-- A read that returns at most `size + 1` bytes. -/
  | read (stream : ChildStream) (size : Fin 4096)
  | send (stream : ChildStream)
  | main
  deriving DecidableEq

namespace PipedExec

/-- The child has been spawned and will write `output`. -/
def start (output : ChildStream → List UInt8) (status : Option Int32) : PipedExec :=
  { thread := fun stream => { unread := output stream, buffer := [], ended := false },
    main := .joiningStdout, status, sent := [] }

/-- Replace one thread. -/
def setThread (exec : PipedExec) (stream : ChildStream) (thread : OutputThread) : PipedExec :=
  { exec with thread := Function.update exec.thread stream thread }

/-- The exit frame of the main thread. -/
def exitFrame (status : Option Int32) : Frame :=
  { type := frameExit, payload := i32ToBytes (status.getD (-1)) }

/-- One step; `none` when the thread is blocked or has ended. -/
def step (exec : PipedExec) : PipedAction → Option PipedExec
  | .read stream size =>
      let thread := exec.thread stream
      if thread.ended = true ∨ thread.buffer ≠ [] then none
      else if thread.unread = [] then some (exec.setThread stream { thread with ended := true })
      else
        some (exec.setThread stream
          { thread with
            buffer := thread.unread.take (size + 1), unread := thread.unread.drop (size + 1) })
  | .send stream =>
      let thread := exec.thread stream
      if thread.buffer = [] then none
      else
        some
          { exec.setThread stream { thread with buffer := [] } with
            sent := exec.sent ++ [{ type := stream.frameType, payload := thread.buffer }] }
  | .main =>
      match exec.main with
      | .joiningStdout =>
          if (exec.thread .stdout).ended then some { exec with main := .joiningStderr } else none
      | .joiningStderr =>
          if (exec.thread .stderr).ended then some { exec with main := .waiting } else none
      | .waiting => some { exec with main := .exiting }
      | .exiting =>
          some { exec with main := .returned, sent := exec.sent ++ [exitFrame exec.status] }
      | .returned => none

/-- The bytes on the connection. -/
def wire (exec : PipedExec) : List UInt8 := exec.sent.flatMap Guest.sendFrame

end PipedExec

/-- What the host writes to its own streams and returns. -/
structure HostOutput where
  stdout : List UInt8
  stderr : List UInt8
  code : Int32
  deriving DecidableEq

/-- `read_guest_frames` on the frames that `recv_frame` returns before it fails. -/
def readGuestFrames : List Frame → HostOutput
  | [] => { stdout := [], stderr := [], code := 1 }
  | frame :: frames =>
      if frame.type = frameStdout then
        let later := readGuestFrames frames
        { later with stdout := frame.payload ++ later.stdout }
      else if frame.type = frameStderr then
        let later := readGuestFrames frames
        { later with stderr := frame.payload ++ later.stderr }
      else if frame.type = frameExit then
        { stdout := [], stderr := [],
          code := if frame.payload.length = 4 then i32OfBytes frame.payload else 0 }
      else { stdout := [], stderr := [], code := 1 }

/-- The bytes of a stream that a sequence of frames carries. -/
def carried (stream : ChildStream) (frames : List Frame) : List UInt8 :=
  (frames.filter fun frame => frame.type = stream.frameType).flatMap Frame.payload

theorem carried_append (stream : ChildStream) (earlier later : List Frame) :
    carried stream (earlier ++ later) = carried stream earlier ++ carried stream later := by
  simp [carried]

/-- A frame of one of the two streams that fits its length field. -/
def IsData (frame : Frame) : Prop :=
  frame.Fits ∧ ∃ stream : ChildStream, frame.type = stream.frameType

/-- The host takes a stream apart up to the exit frame. -/
theorem readGuestFrames_data {frames : List Frame} (data : ∀ frame ∈ frames, IsData frame)
    (status : Option Int32) :
    readGuestFrames (frames ++ [PipedExec.exitFrame status]) =
      { stdout := carried .stdout frames, stderr := carried .stderr frames,
        code := status.getD (-1) } := by
  induction frames with
  | nil =>
      have length : (i32ToBytes (status.getD (-1))).length = 4 := length_toBigEndian _ _
      simp [readGuestFrames, PipedExec.exitFrame, frameStdout, frameStderr, frameExit, length,
        i32OfBytes_toBytes, carried]
  | cons frame frames ih =>
      have later := ih fun frame member => data frame (List.mem_cons_of_mem _ member)
      obtain ⟨-, stream, type_eq⟩ := data frame List.mem_cons_self
      rw [List.cons_append, readGuestFrames, later, type_eq]
      cases stream <;>
        simp [carried, type_eq, ChildStream.frameType, frameStdout, frameStderr]

namespace PipedExec

/-- What one step can do. -/
theorem step_cases {before after : PipedExec} {action : PipedAction}
    (stepped : before.step action = some after) :
    (∃ stream, (before.thread stream).ended = false ∧ (before.thread stream).buffer = [] ∧
      (before.thread stream).unread = [] ∧
      after = before.setThread stream { unread := [], buffer := [], ended := true }) ∨
    (∃ stream chunk rest, (before.thread stream).ended = false ∧
      (before.thread stream).buffer = [] ∧ (before.thread stream).unread = chunk ++ rest ∧
      chunk ≠ [] ∧ chunk.length ≤ 4096 ∧
      after = before.setThread stream { unread := rest, buffer := chunk, ended := false }) ∨
    (∃ stream, (before.thread stream).buffer ≠ [] ∧
      after =
        { before.setThread stream { before.thread stream with buffer := [] } with
          sent := before.sent ++
            [{ type := stream.frameType, payload := (before.thread stream).buffer }] }) ∨
    (before.main = .joiningStdout ∧ (before.thread .stdout).ended = true ∧
      after = { before with main := .joiningStderr }) ∨
    (before.main = .joiningStderr ∧ (before.thread .stderr).ended = true ∧
      after = { before with main := .waiting }) ∨
    (before.main = .waiting ∧ after = { before with main := .exiting }) ∨
    (before.main = .exiting ∧
      after = { before with
        main := .returned, sent := before.sent ++ [exitFrame before.status] }) := by
  cases action with
  | read stream size =>
      simp only [step] at stepped
      split at stepped
      · cases stepped
      · rename_i running
        simp only [not_or, Bool.not_eq_true, not_not] at running
        split at stepped
        · rename_i drained
          obtain rfl := Option.some.inj stepped
          exact .inl ⟨stream, running.1, running.2, drained, by rw [drained, running.2]⟩
        · rename_i more
          obtain rfl := Option.some.inj stepped
          refine .inr (.inl ⟨stream, _, _, running.1, running.2, (List.take_append_drop _ _).symm,
            ?_, ?_, by rw [running.1]⟩)
          · simpa using more
          · have bound := size.isLt
            rw [List.length_take]
            omega
  | send stream =>
      simp only [step] at stepped
      split at stepped
      · cases stepped
      · rename_i holding
        exact .inr (.inr (.inl ⟨stream, holding, (Option.some.inj stepped).symm⟩))
  | main =>
      simp only [step] at stepped
      split at stepped
      · rename_i phase
        split at stepped
        · rename_i ended
          exact .inr (.inr (.inr (.inl ⟨phase, ended, (Option.some.inj stepped).symm⟩)))
        · cases stepped
      · rename_i phase
        split at stepped
        · rename_i ended
          exact .inr (.inr (.inr (.inr (.inl ⟨phase, ended, (Option.some.inj stepped).symm⟩))))
        · cases stepped
      · rename_i phase
        exact .inr (.inr (.inr (.inr (.inr (.inl ⟨phase, (Option.some.inj stepped).symm⟩)))))
      · rename_i phase
        exact .inr (.inr (.inr (.inr (.inr (.inr ⟨phase, (Option.some.inj stepped).symm⟩)))))
      · cases stepped

/-- The invariant: what was sent, read and left unread of each pipe is the child's output; an ended
thread has sent everything; the exit frame is written last. -/
structure Relays (output : ChildStream → List UInt8) (status : Option Int32) (exec : PipedExec) :
    Prop where
  status_eq : exec.status = status
  relayed : ∀ stream, carried stream exec.sent ++ (exec.thread stream).buffer ++
    (exec.thread stream).unread = output stream
  small : ∀ stream, (exec.thread stream).buffer.length ≤ 4096
  drained : ∀ stream, (exec.thread stream).ended = true →
    (exec.thread stream).buffer = [] ∧ (exec.thread stream).unread = []
  joined_stdout : exec.main ≠ .joiningStdout → (exec.thread .stdout).ended = true
  joined_stderr : exec.main ≠ .joiningStdout → exec.main ≠ .joiningStderr →
    (exec.thread .stderr).ended = true
  exit_last : ∃ data, (∀ frame ∈ data, IsData frame) ∧
    exec.sent = data ++ if exec.main = .returned then [exitFrame status] else []

theorem relays_start (output : ChildStream → List UInt8) (status : Option Int32) :
    Relays output status (start output status) where
  status_eq := rfl
  relayed stream := by simp [start, carried]
  small stream := by simp [start]
  drained stream ended := by simp [start] at ended
  joined_stdout joined := absurd rfl joined
  joined_stderr joined := absurd rfl joined
  exit_last := ⟨[], by simp, rfl⟩

theorem carried_exit (stream : ChildStream) (status : Option Int32) :
    carried stream [exitFrame status] = [] := by
  cases stream <;>
    simp [carried, exitFrame, ChildStream.frameType, frameExit, frameStdout, frameStderr]

theorem carried_chunk (stream other : ChildStream) (chunk : List UInt8) :
    carried other [{ type := stream.frameType, payload := chunk }] =
      if other = stream then chunk else [] := by
  cases stream <;> cases other <;>
    simp [carried, ChildStream.frameType, frameStdout, frameStderr]

/-- While a thread has something buffered, the main thread has not returned. -/
theorem Relays.not_returned {output : ChildStream → List UInt8} {status : Option Int32}
    {exec : PipedExec} (relays : Relays output status exec) {stream : ChildStream}
    (running : (exec.thread stream).ended = false) : exec.main ≠ .returned := by
  intro returned
  have ended : (exec.thread stream).ended = true := by
    cases stream with
    | stdout => exact relays.joined_stdout (by simp [returned])
    | stderr => exact relays.joined_stderr (by simp [returned]) (by simp [returned])
  rw [running] at ended
  cases ended

/-- A running thread goes on, and the bytes of its pipe are still accounted for. -/
theorem Relays.setThread {output : ChildStream → List UInt8} {status : Option Int32}
    {exec : PipedExec} (relays : Relays output status exec) {stream : ChildStream}
    {thread : OutputThread} {sent : List Frame} (running : (exec.thread stream).ended = false)
    (relayed : carried stream sent ++ thread.buffer ++ thread.unread =
      carried stream exec.sent ++ (exec.thread stream).buffer ++ (exec.thread stream).unread)
    (others : ∀ other, other ≠ stream → carried other sent = carried other exec.sent)
    (small : thread.buffer.length ≤ 4096)
    (drained : thread.ended = true → thread.buffer = [] ∧ thread.unread = [])
    (exit_last : ∃ data, (∀ frame ∈ data, IsData frame) ∧
      sent = data ++ if exec.main = .returned then [exitFrame status] else []) :
    Relays output status { exec.setThread stream thread with sent } where
  status_eq := relays.status_eq
  relayed other := by
    rw [← relays.relayed other, PipedExec.setThread]
    by_cases here : other = stream
    · subst here
      simpa only [Function.update_self] using relayed
    · simp only [Function.update_of_ne here, others other here]
  small other := by
    by_cases here : other = stream
    · subst here
      simpa [PipedExec.setThread] using small
    · simpa [PipedExec.setThread, Function.update_of_ne here] using relays.small other
  drained other := by
    by_cases here : other = stream
    · subst here
      simpa [PipedExec.setThread] using drained
    · simpa [PipedExec.setThread, Function.update_of_ne here] using relays.drained other
  joined_stdout joined := by
    have ended := relays.joined_stdout joined
    have other : ChildStream.stdout ≠ stream := by
      rintro rfl
      simp [running] at ended
    simpa [PipedExec.setThread, Function.update_of_ne other] using ended
  joined_stderr joined also := by
    have ended := relays.joined_stderr joined also
    have other : ChildStream.stderr ≠ stream := by
      rintro rfl
      simp [running] at ended
    simpa [PipedExec.setThread, Function.update_of_ne other] using ended
  exit_last := exit_last

/-- A thread that reads moves bytes from its pipe to its buffer. -/
theorem Relays.read {output : ChildStream → List UInt8} {status : Option Int32}
    {exec : PipedExec} (relays : Relays output status exec) {stream : ChildStream}
    {thread : OutputThread} (running : (exec.thread stream).ended = false)
    (same : thread.buffer ++ thread.unread =
      (exec.thread stream).buffer ++ (exec.thread stream).unread)
    (small : thread.buffer.length ≤ 4096)
    (drained : thread.ended = true → thread.buffer = [] ∧ thread.unread = []) :
    Relays output status (exec.setThread stream thread) := by
  have relayed : carried stream exec.sent ++ thread.buffer ++ thread.unread =
      carried stream exec.sent ++ (exec.thread stream).buffer ++ (exec.thread stream).unread := by
    rw [List.append_assoc, same, List.append_assoc]
  exact relays.setThread running relayed (fun _ _ => rfl) small drained relays.exit_last

/-- A thread that sends its buffer moves it from the buffer to the wire. -/
theorem Relays.send {output : ChildStream → List UInt8} {status : Option Int32}
    {exec : PipedExec} (relays : Relays output status exec) {stream : ChildStream}
    (holding : (exec.thread stream).buffer ≠ []) :
    Relays output status
      { exec.setThread stream { exec.thread stream with buffer := [] } with
        sent := exec.sent ++
          [{ type := stream.frameType, payload := (exec.thread stream).buffer }] } := by
  have running : (exec.thread stream).ended = false := by
    by_contra ended
    exact holding (relays.drained stream (by simpa using ended)).1
  have going := relays.not_returned running
  obtain ⟨data, all_data, sent_eq⟩ := relays.exit_last
  rw [if_neg going, List.append_nil] at sent_eq
  refine relays.setThread running ?_ (fun other apart => ?_) (Nat.zero_le _) (by simp [running]) ?_
  · simp [carried_append, carried_chunk]
  · rw [carried_append, carried_chunk, if_neg apart, List.append_nil]
  · refine ⟨_, fun frame member => ?_, by rw [if_neg going, List.append_nil]⟩
    rcases List.mem_append.mp member with earlier | last
    · exact all_data frame (sent_eq ▸ earlier)
    · obtain rfl := List.mem_singleton.mp last
      exact ⟨Nat.lt_of_le_of_lt (relays.small stream) (by decide), stream, rfl⟩

theorem Relays.step {output : ChildStream → List UInt8} {status : Option Int32}
    {before after : PipedExec} {action : PipedAction} (relays : Relays output status before)
    (stepped : before.step action = some after) : Relays output status after := by
  rcases step_cases stepped with ⟨stream, running, empty, drained, rfl⟩ |
    ⟨stream, chunk, rest, running, empty, unread, -, bound, rfl⟩ | ⟨stream, holding, rfl⟩ |
    ⟨phase, ended, rfl⟩ | ⟨phase, ended, rfl⟩ | ⟨phase, rfl⟩ | ⟨phase, rfl⟩
  · exact relays.read running (by simp [empty, drained]) (by simp) (by simp)
  · exact relays.read running (by simp [empty, unread]) bound (by simp)
  · exact relays.send holding
  · obtain ⟨data, all_data, sent_eq⟩ := relays.exit_last
    exact
      { relays with
        joined_stdout := fun _ => ended
        joined_stderr := fun _ also => absurd rfl also
        exit_last := ⟨data, all_data, by simpa [phase] using sent_eq⟩ }
  · obtain ⟨data, all_data, sent_eq⟩ := relays.exit_last
    exact
      { relays with
        joined_stdout := fun _ => relays.joined_stdout (by simp [phase])
        joined_stderr := fun _ _ => ended
        exit_last := ⟨data, all_data, by simpa [phase] using sent_eq⟩ }
  · obtain ⟨data, all_data, sent_eq⟩ := relays.exit_last
    exact
      { relays with
        joined_stdout := fun _ => relays.joined_stdout (by simp [phase])
        joined_stderr := fun _ _ => relays.joined_stderr (by simp [phase]) (by simp [phase])
        exit_last := ⟨data, all_data, by simpa [phase] using sent_eq⟩ }
  · obtain ⟨data, all_data, sent_eq⟩ := relays.exit_last
    exact
      { relays with
        relayed := by
          intro stream
          rw [← relays.relayed stream, carried_append, carried_exit, List.append_nil]
        joined_stdout := fun _ => relays.joined_stdout (by simp [phase])
        joined_stderr := fun _ _ => relays.joined_stderr (by simp [phase]) (by simp [phase])
        exit_last := ⟨data, all_data, by simp [sent_eq, phase, relays.status_eq]⟩ }

/-! ## Every schedule ends -/

/-- Steps a thread has still to make, at most. -/
def OutputThread.rank (thread : OutputThread) : Nat :=
  2 * thread.unread.length + (if thread.buffer = [] then 0 else 1) +
    (if thread.ended = true then 0 else 1)

/-- Steps the main thread has still to make. -/
def MainPhase.rank : MainPhase → Nat
  | .joiningStdout => 4
  | .joiningStderr => 3
  | .waiting => 2
  | .exiting => 1
  | .returned => 0

/-- Steps left, at most. -/
def rank (exec : PipedExec) : Nat :=
  OutputThread.rank (exec.thread .stdout) + OutputThread.rank (exec.thread .stderr) +
    MainPhase.rank exec.main

theorem rank_setThread {exec : PipedExec} {stream : ChildStream} {thread : OutputThread}
    (lower : OutputThread.rank thread < OutputThread.rank (exec.thread stream)) :
    rank (exec.setThread stream thread) < rank exec := by
  cases stream <;> simp only [rank, PipedExec.setThread, Function.update_self] <;>
    simp only [ne_eq, reduceCtorEq, not_false_eq_true, Function.update_of_ne] <;> omega

theorem rank_step {before after : PipedExec} {action : PipedAction}
    (stepped : before.step action = some after) : rank after < rank before := by
  rcases step_cases stepped with ⟨stream, running, empty, drained, rfl⟩ |
    ⟨stream, chunk, rest, running, empty, unread, nonempty, -, rfl⟩ | ⟨stream, holding, rfl⟩ |
    ⟨phase, -, rfl⟩ | ⟨phase, -, rfl⟩ | ⟨phase, rfl⟩ | ⟨phase, rfl⟩
  · refine rank_setThread ?_
    simp [OutputThread.rank, running, empty, drained]
  · refine rank_setThread ?_
    have some_read : 0 < chunk.length := List.length_pos_iff.mpr nonempty
    simp only [OutputThread.rank, running, empty, unread, nonempty, List.length_append, if_true,
      if_false]
    omega
  · change rank (before.setThread stream _) < rank before
    refine rank_setThread ?_
    simp [OutputThread.rank, holding]
  all_goals simp [rank, MainPhase.rank, phase]

/-- Until the main thread has returned, some thread can make a step. -/
theorem exists_step {exec : PipedExec} (running : exec.main ≠ .returned) :
    ∃ action, (exec.step action).isSome = true := by
  have thread_steps (stream : ChildStream) (going : (exec.thread stream).ended = false) :
      ∃ action, (exec.step action).isSome = true := by
    by_cases holding : (exec.thread stream).buffer = []
    · refine ⟨.read stream 0, ?_⟩
      by_cases drained : (exec.thread stream).unread = [] <;>
        simp [PipedExec.step, going, holding, drained]
    · exact ⟨.send stream, by simp [PipedExec.step, holding]⟩
  cases phase : exec.main with
  | joiningStdout =>
      cases ended : (exec.thread .stdout).ended with
      | true => exact ⟨.main, by simp [PipedExec.step, phase, ended]⟩
      | false => exact thread_steps .stdout ended
  | joiningStderr =>
      cases ended : (exec.thread .stderr).ended with
      | true => exact ⟨.main, by simp [PipedExec.step, phase, ended]⟩
      | false => exact thread_steps .stderr ended
  | waiting => exact ⟨.main, by simp [PipedExec.step, phase]⟩
  | exiting => exact ⟨.main, by simp [PipedExec.step, phase]⟩
  | returned => exact absurd phase running

/-- Every schedule of the three threads ends, and then the host, however it reads the connection,
has written exactly the child's output and returns its exit code; the exit frame is the last one on
the wire and the only one. -/
theorem piped_output_relayed (output : ChildStream → List UInt8) (status : Option Int32)
    {actions : List PipedAction} {final : PipedExec}
    (execution : run step actions (start output status) = some final) :
    actions.length ≤ rank (start output status) ∧
    (final.main ≠ .returned → ∃ action, (final.step action).isSome = true) ∧
    (final.main = .returned → ∀ pieces : Pieces UInt8, contents pieces = final.wire →
      ∃ frames, Receives Host.recvFrame pieces frames .unexpectedEof ∧
        readGuestFrames frames =
          { stdout := output .stdout, stderr := output .stderr, code := status.getD (-1) } ∧
        ∃ data, frames = data ++ [exitFrame status] ∧ ∀ frame ∈ data, frame.type ≠ frameExit) := by
  have relays : Relays output status final :=
    invariant_of_run (fun relays stepped => relays.step stepped) (relays_start output status)
      execution
  refine ⟨length_le_of_rank rank rank_step execution, exists_step, ?_⟩
  intro returned pieces stream
  obtain ⟨data, all_data, sent_eq⟩ := relays.exit_last
  rw [if_pos returned] at sent_eq
  have output_eq (stream : ChildStream) : carried stream data = output stream := by
    have ended : (final.thread stream).ended = true := by
      by_contra running
      exact relays.not_returned (by simpa using running) returned
    obtain ⟨buffer_eq, unread_eq⟩ := relays.drained stream ended
    rw [← relays.relayed stream, buffer_eq, unread_eq, sent_eq, carried_append, carried_exit]
    simp
  refine ⟨final.sent, receives_all ?_ stream, ?_, data, sent_eq, ?_⟩
  · intro frame member
    rw [sent_eq] at member
    rcases List.mem_append.mp member with earlier | last
    · exact (all_data frame earlier).1
    · obtain rfl := List.mem_singleton.mp last
      simp [Frame.Fits, exitFrame, i32ToBytes]
  · rw [sent_eq, readGuestFrames_data all_data, output_eq, output_eq]
  · intro frame member
    obtain ⟨-, stream, type_eq⟩ := all_data frame member
    rw [type_eq]
    cases stream <;> decide

/-- A child that writes to both pipes and exits with code 3. -/
def twoStreams : ChildStream → List UInt8
  | .stdout => [104, 105]
  | .stderr => [33]

theorem two_streams_relayed :
    ∃ final, run step
        [.read .stdout 0, .read .stderr 9, .send .stderr, .send .stdout, .read .stdout 0,
          .read .stderr 0, .send .stdout, .read .stdout 0, .main, .main, .main, .main]
        (start twoStreams (some 3)) = some final ∧
      ∀ pieces : Pieces UInt8, contents pieces = final.wire →
        ∃ frames, Receives Host.recvFrame pieces frames .unexpectedEof ∧
          readGuestFrames frames = { stdout := [104, 105], stderr := [33], code := 3 } := by
  obtain ⟨final, execution, returned⟩ : ∃ final, run step
      [.read .stdout 0, .read .stderr 9, .send .stderr, .send .stdout, .read .stdout 0,
        .read .stderr 0, .send .stdout, .read .stdout 0, .main, .main, .main, .main]
      (start twoStreams (some 3)) = some final ∧ final.main = .returned := ⟨_, rfl, rfl⟩
  refine ⟨final, execution, fun pieces stream => ?_⟩
  obtain ⟨frames, received, output, -⟩ :=
    (piped_output_relayed twoStreams (some 3) execution).2.2 returned pieces stream
  exact ⟨frames, received, output⟩

end PipedExec

end Pelagos.Wire
