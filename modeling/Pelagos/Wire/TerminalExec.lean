import Pelagos.Wire.PipedInput
import Pelagos.Wire.PipedOutput

/-!
# An exec on a terminal

The guest's input thread passes the host's bytes and window sizes on to the master of a
pseudo-terminal; its output thread copies what the terminal delivers into frames.  The main thread
waits for the child before it closes the master, so a client that goes away does not hang up the
child.  The end of the host's input reaches the master as a write of no bytes.
-/

namespace Pelagos.Wire

open ByteStream Execution Frames

/-- What the child's terminal is told. -/
inductive TerminalEvent where
  | typed (bytes : List UInt8)
  | resized (rows columns : UInt16)
  deriving DecidableEq

/-- `u16::from_be_bytes`. -/
def u16OfBytes (bytes : List UInt8) : UInt16 := UInt16.ofNat (ofBigEndian bytes)

/-- What a `write` to the master returns. -/
inductive WriteResult where
  | failed
  /-- All but the last `missing` bytes were accepted. -/
  | accepted (missing : Nat)
  deriving DecidableEq

/-- Where the main thread of `handle_exec_tty` is. -/
inductive TtyPhase where
  | waiting
  | closing
  | joining
  | exiting
  | returned
  deriving DecidableEq

/-- `handle_exec_tty` after the spawn, with its child and the connection. -/
structure TerminalExec where
  /-- The frames `recv_frame` has not returned yet. -/
  arriving : List Frame
  inputRunning : Bool
  /-- The bytes the input thread is writing; it holds the lock of the master meanwhile. -/
  writing : Option (List UInt8)
  /-- What the input thread has told the terminal. -/
  terminal : List TerminalEvent
  masterOpen : Bool
  /-- Some process, the child or another, has the terminal open. -/
  slaveOpen : Bool
  /-- The child's status once it has exited; no exit code when a signal killed it. -/
  exited : Option (Option Int32)
  /-- Everything printed on the terminal. -/
  printed : List UInt8
  output : OutputThread
  /-- Writes to the connection succeed. -/
  connected : Bool
  main : TtyPhase
  sent : List Frame

/-- One step of a thread of the guest, of the processes on the terminal or of the connection. -/
inductive TerminalAction where
  | receive
  | receiveFails
  | finishWrite (result : WriteResult)
  | print (bytes : List UInt8)
  | exit (status : Option Int32)
  | release
  | disconnect
  /-- A read that returns at most `size + 1` bytes. -/
  | read (size : Fin 4096)
  | send
  | main
  deriving DecidableEq

namespace TerminalExec

/-- The child has been spawned on the slave, and these frames will arrive. -/
def start (frames : List Frame) : TerminalExec where
  arriving := frames
  inputRunning := true
  writing := none
  terminal := []
  masterOpen := true
  slaveOpen := true
  exited := none
  printed := []
  output := { unread := [], buffer := [], ended := false }
  connected := true
  main := .waiting
  sent := []

/-- What the input thread does with a frame: it locks the master for a write, or sets the window
size, or ends. -/
def takeFrame (exec : TerminalExec) (frame : Frame) : TerminalExec :=
  if frame.type = frameStdin then { exec with writing := some frame.payload }
  else if frame.type = frameResize ∧ frame.payload.length = 4 then
    if exec.masterOpen then
      let rows := u16OfBytes (frame.payload.take 2)
      let columns := u16OfBytes (frame.payload.drop 2)
      { exec with terminal := exec.terminal ++ [.resized rows columns] }
    else exec
  else { exec with inputRunning := false }

/-- The write returns.  Once the master is closed, its number may belong to another file, and bytes
that are accepted go there. -/
def finishWrite (exec : TerminalExec) (bytes : List UInt8) : WriteResult → TerminalExec
  | .failed => { exec with writing := none, inputRunning := false }
  | .accepted missing =>
      if exec.masterOpen then
        { exec with
          writing := none
          terminal := exec.terminal ++ [.typed (bytes.take (bytes.length - missing))] }
      else { exec with writing := none }

/-- One read of the master by the output thread; it blocks while the terminal is open and silent. -/
def readMaster (exec : TerminalExec) (size : Nat) : Option TerminalExec :=
  if exec.output.ended ∨ exec.output.buffer ≠ [] then none
  else if exec.output.unread = [] then
    if exec.slaveOpen then none
    else some { exec with output := { exec.output with ended := true } }
  else
    some { exec with
      output :=
        { exec.output with
          buffer := exec.output.unread.take (size + 1)
          unread := exec.output.unread.drop (size + 1) } }

/-- The frame for what the output thread holds. -/
def outputFrame (exec : TerminalExec) : Frame :=
  { type := frameStdout, payload := exec.output.buffer }

/-- The output thread sends what it holds; a failure ends it. -/
def sendOutput (exec : TerminalExec) : Option TerminalExec :=
  if exec.output.buffer = [] then none
  else if exec.connected then
    some { exec with
      output := { exec.output with buffer := [] }, sent := exec.sent ++ [exec.outputFrame] }
  else some { exec with output := { exec.output with buffer := [], ended := true } }

/-- One step of the main thread; closing the master takes its lock. -/
def mainStep (exec : TerminalExec) : Option TerminalExec :=
  match exec.main with
  | .waiting => if exec.exited.isSome then some { exec with main := .closing } else none
  | .closing =>
      if exec.writing = none then some { exec with masterOpen := false, main := .joining } else none
  | .joining => if exec.output.ended then some { exec with main := .exiting } else none
  | .exiting =>
      let frame := PipedExec.exitFrame (exec.exited.getD none)
      let sent := if exec.connected then exec.sent ++ [frame] else exec.sent
      some { exec with main := .returned, sent }
  | .returned => none

/-- One step; `none` when it is not possible. -/
def step (exec : TerminalExec) : TerminalAction → Option TerminalExec
  | .receive =>
      match exec.inputRunning, exec.writing, exec.arriving with
      | true, none, frame :: frames => some ({ exec with arriving := frames }.takeFrame frame)
      | _, _, _ => none
  | .receiveFails =>
      match exec.inputRunning, exec.writing, exec.arriving with
      | true, none, [] => some { exec with inputRunning := false }
      | _, _, _ => none
  | .finishWrite result =>
      match exec.writing with
      | some bytes => some (exec.finishWrite bytes result)
      | none => none
  | .print bytes =>
      if exec.slaveOpen then
        some { exec with
          printed := exec.printed ++ bytes
          output := { exec.output with unread := exec.output.unread ++ bytes } }
      else none
  | .exit status => if exec.exited = none then some { exec with exited := some status } else none
  | .release => if exec.slaveOpen then some { exec with slaveOpen := false } else none
  | .disconnect => if exec.connected then some { exec with connected := false } else none
  | .read size => exec.readMaster size
  | .send => exec.sendOutput
  | .main => exec.mainStep

/-- The bytes on the connection. -/
def wire (exec : TerminalExec) : List UInt8 := exec.sent.flatMap Guest.sendFrame

end TerminalExec

/-! ## What one step does -/

namespace TerminalExec

/-- The possible transitions. -/
inductive Stepped (before : TerminalExec) : TerminalAction → TerminalExec → Prop where
  | typing {frame frames} (running : before.inputRunning = true) (idle : before.writing = none)
      (arrived : before.arriving = frame :: frames) (input : frame.type = frameStdin) :
      Stepped before .receive { before with arriving := frames, writing := some frame.payload }
  | resizing {frame frames} (running : before.inputRunning = true) (idle : before.writing = none)
      (arrived : before.arriving = frame :: frames) (resize : frame.type = frameResize)
      (length : frame.payload.length = 4) (opened : before.masterOpen = true) :
      Stepped before .receive
        { before with
          arriving := frames
          terminal := before.terminal ++
            [.resized (u16OfBytes (frame.payload.take 2)) (u16OfBytes (frame.payload.drop 2))] }
  | ignoring {frame frames} (running : before.inputRunning = true) (idle : before.writing = none)
      (arrived : before.arriving = frame :: frames) (closed : before.masterOpen = false) :
      Stepped before .receive { before with arriving := frames }
  | stopping {frame frames} (running : before.inputRunning = true) (idle : before.writing = none)
      (arrived : before.arriving = frame :: frames) :
      Stepped before .receive { before with arriving := frames, inputRunning := false }
  | endOfFrames (running : before.inputRunning = true) (idle : before.writing = none)
      (arrived : before.arriving = []) :
      Stepped before .receiveFails { before with inputRunning := false }
  | typed {bytes} (missing : Nat) (writing : before.writing = some bytes)
      (opened : before.masterOpen = true) :
      Stepped before (.finishWrite (.accepted missing))
        { before with
          writing := none
          terminal := before.terminal ++ [.typed (bytes.take (bytes.length - missing))] }
  | typedElsewhere {bytes} (missing : Nat) (writing : before.writing = some bytes)
      (closed : before.masterOpen = false) :
      Stepped before (.finishWrite (.accepted missing)) { before with writing := none }
  | writeFailed {bytes} (writing : before.writing = some bytes) :
      Stepped before (.finishWrite .failed) { before with writing := none, inputRunning := false }
  | print (bytes : List UInt8) (held : before.slaveOpen = true) :
      Stepped before (.print bytes)
        { before with
          printed := before.printed ++ bytes
          output := { before.output with unread := before.output.unread ++ bytes } }
  | exit (status : Option Int32) (alive : before.exited = none) :
      Stepped before (.exit status) { before with exited := some status }
  | release (held : before.slaveOpen = true) :
      Stepped before .release { before with slaveOpen := false }
  | disconnect (connected : before.connected = true) :
      Stepped before .disconnect { before with connected := false }
  | outputEnds (size : Fin 4096) (going : before.output.ended = false)
      (empty : before.output.buffer = []) (drained : before.output.unread = [])
      (released : before.slaveOpen = false) :
      Stepped before (.read size) { before with output := { before.output with ended := true } }
  | reads {chunk rest} (size : Fin 4096) (going : before.output.ended = false)
      (empty : before.output.buffer = []) (unread : before.output.unread = chunk ++ rest)
      (nonempty : chunk ≠ []) (small : chunk.length ≤ 4096) :
      Stepped before (.read size)
        { before with output := { before.output with buffer := chunk, unread := rest } }
  | sends (holding : before.output.buffer ≠ []) (connected : before.connected = true) :
      Stepped before .send
        { before with
          output := { before.output with buffer := [] }
          sent := before.sent ++ [before.outputFrame] }
  | drops (holding : before.output.buffer ≠ []) (gone : before.connected = false) :
      Stepped before .send
        { before with output := { before.output with buffer := [], ended := true } }
  | waited {status} (phase : before.main = .waiting) (exited : before.exited = some status) :
      Stepped before .main { before with main := .closing }
  | closed (phase : before.main = .closing) (unlocked : before.writing = none) :
      Stepped before .main { before with masterOpen := false, main := .joining }
  | joined (phase : before.main = .joining) (ended : before.output.ended = true) :
      Stepped before .main { before with main := .exiting }
  | answered (phase : before.main = .exiting) :
      Stepped before .main
        { before with
          main := .returned
          sent := if before.connected then
              before.sent ++ [PipedExec.exitFrame (before.exited.getD none)]
            else before.sent }

theorem stepped_receive {before after : TerminalExec}
    (stepped : before.step .receive = some after) : Stepped before .receive after := by
  simp only [step] at stepped
  split at stepped
  · rename_i frame frames running idle arrived
    obtain rfl := Option.some.inj stepped
    by_cases input : frame.type = frameStdin
    · rw [takeFrame, if_pos input]
      exact .typing running idle arrived input
    · rw [takeFrame, if_neg input]
      split
      · rename_i resize
        split
        · rename_i opened
          exact .resizing running idle arrived resize.1 resize.2 opened
        · rename_i closed
          exact .ignoring running idle arrived (by simpa using closed)
      · exact .stopping running idle arrived
  · cases stepped

theorem stepped_finishWrite {before after : TerminalExec} {result : WriteResult}
    (stepped : before.step (.finishWrite result) = some after) :
    Stepped before (.finishWrite result) after := by
  simp only [step] at stepped
  split at stepped
  · rename_i bytes writing
    obtain rfl := Option.some.inj stepped
    cases result with
    | failed => exact .writeFailed writing
    | accepted missing =>
        rw [finishWrite]
        split
        · rename_i opened
          exact .typed missing writing opened
        · rename_i closed
          exact .typedElsewhere missing writing (by simpa using closed)
  · cases stepped

theorem stepped_read {before after : TerminalExec} {size : Fin 4096}
    (stepped : before.readMaster size = some after) : Stepped before (.read size) after := by
  rw [readMaster] at stepped
  split at stepped
  · cases stepped
  · rename_i running
    simp only [not_or, Bool.not_eq_true, not_not] at running
    split at stepped
    · rename_i drained
      split at stepped
      · cases stepped
      · rename_i released
        obtain rfl := Option.some.inj stepped
        exact .outputEnds size running.1 running.2 drained (by simpa using released)
    · rename_i more
      obtain rfl := Option.some.inj stepped
      refine .reads size running.1 running.2 (List.take_append_drop _ _).symm
        (by simpa using more) ?_
      have bound := size.isLt
      rw [List.length_take]
      omega

theorem stepped_main {before after : TerminalExec} (stepped : before.mainStep = some after) :
    Stepped before .main after := by
  rw [mainStep] at stepped
  split at stepped
  · rename_i phase
    split at stepped
    · rename_i exited
      obtain ⟨status, exited⟩ := Option.isSome_iff_exists.mp exited
      exact Option.some.inj stepped ▸ .waited phase exited
    · cases stepped
  · rename_i phase
    split at stepped
    · rename_i unlocked
      exact Option.some.inj stepped ▸ .closed phase unlocked
    · cases stepped
  · rename_i phase
    split at stepped
    · rename_i ended
      exact Option.some.inj stepped ▸ .joined phase ended
    · cases stepped
  · rename_i phase
    exact Option.some.inj stepped ▸ .answered phase
  · cases stepped

theorem stepped_of_step {before after : TerminalExec} {action : TerminalAction}
    (stepped : before.step action = some after) : Stepped before action after := by
  cases action with
  | receive => exact stepped_receive stepped
  | receiveFails =>
      simp only [step] at stepped
      split at stepped
      · rename_i running idle arrived
        exact Option.some.inj stepped ▸ .endOfFrames running idle arrived
      · cases stepped
  | finishWrite result => exact stepped_finishWrite stepped
  | print bytes =>
      simp only [step] at stepped
      split at stepped
      · rename_i held
        exact Option.some.inj stepped ▸ .print bytes held
      · cases stepped
  | exit status =>
      simp only [step] at stepped
      split at stepped
      · rename_i alive
        exact Option.some.inj stepped ▸ .exit status alive
      · cases stepped
  | release =>
      simp only [step] at stepped
      split at stepped
      · rename_i held
        exact Option.some.inj stepped ▸ .release held
      · cases stepped
  | disconnect =>
      simp only [step] at stepped
      split at stepped
      · rename_i connected
        exact Option.some.inj stepped ▸ .disconnect connected
      · cases stepped
  | read size => exact stepped_read stepped
  | send =>
      simp only [step, sendOutput] at stepped
      split at stepped
      · cases stepped
      · rename_i holding
        split at stepped
        · rename_i connected
          exact Option.some.inj stepped ▸ .sends holding connected
        · rename_i gone
          exact Option.some.inj stepped ▸ .drops holding (by simpa using gone)
  | main => exact stepped_main stepped

end TerminalExec

/-! ## Input -/

/-- What the guest makes of a frame of the host; `none` ends its input thread. -/
def terminalEvent (frame : Frame) : Option TerminalEvent :=
  if frame.type = frameStdin then some (.typed frame.payload)
  else if frame.type = frameResize ∧ frame.payload.length = 4 then
    some (.resized (u16OfBytes (frame.payload.take 2)) (u16OfBytes (frame.payload.drop 2)))
  else none

/-- What the guest makes of the frames up to the first that ends its input thread. -/
def terminalEvents : List Frame → List TerminalEvent
  | [] => []
  | frame :: frames =>
      match terminalEvent frame with
      | some event => event :: terminalEvents frames
      | none => []

/-- The bytes among the events. -/
def typedBytes (events : List TerminalEvent) : List UInt8 :=
  events.flatMap fun
    | .typed bytes => bytes
    | .resized _ _ => []

/-- The window sizes among the events. -/
def windowSizes (events : List TerminalEvent) : List (UInt16 × UInt16) :=
  events.filterMap fun
    | .typed _ => none
    | .resized rows columns => some (rows, columns)

/-- The write, if it is one, accepts all its bytes or fails. -/
def TerminalAction.Whole : TerminalAction → Prop
  | .finishWrite (.accepted missing) => missing = 0
  | _ => True

namespace TerminalExec

/-- The invariant of the input: the terminal has been told a front of what the frames say, and while
the master is open and the thread runs the rest is being written or still arriving. -/
structure Types (frames : List Frame) (exec : TerminalExec) : Prop where
  front : exec.terminal <+: terminalEvents frames
  all : exec.inputRunning = true → exec.masterOpen = true →
    exec.terminal ++ (exec.writing.toList.map .typed ++ terminalEvents exec.arriving) =
      terminalEvents frames
  idle : exec.inputRunning = false → exec.writing = none

theorem types_start (frames : List Frame) : Types frames (start frames) where
  front := List.nil_prefix
  all _ _ := rfl
  idle running := by cases running

/-- A step that leaves the input side alone. -/
theorem Types.of_same {frames : List Frame} {before after : TerminalExec}
    (types : Types frames before) (arriving : after.arriving = before.arriving)
    (inputRunning : after.inputRunning = before.inputRunning)
    (writing : after.writing = before.writing) (terminal : after.terminal = before.terminal)
    (masterOpen : after.masterOpen = true → before.masterOpen = true) : Types frames after where
  front := terminal ▸ types.front
  all running opened := by
    rw [terminal, writing, arriving]
    exact types.all (inputRunning ▸ running) (masterOpen opened)
  idle stopped := writing ▸ types.idle (inputRunning ▸ stopped)

/-- A step after which the input thread has ended. -/
theorem Types.of_stopped {frames : List Frame} {before after : TerminalExec}
    (types : Types frames before) (stopped : after.inputRunning = false)
    (writing : after.writing = none) (terminal : after.terminal = before.terminal) :
    Types frames after where
  front := terminal ▸ types.front
  all running := by
    rw [stopped] at running
    cases running
  idle _ := writing

theorem Types.step {frames : List Frame} {before after : TerminalExec} {action : TerminalAction}
    (types : Types frames before) (whole : action.Whole)
    (stepped : before.step action = some after) : Types frames after := by
  cases stepped_of_step stepped with
  | @typing frame rest running idle arrived input =>
      refine ⟨types.front, fun _ opened => ?_, fun stopped => ?_⟩
      · have event : terminalEvents (frame :: rest) =
            .typed frame.payload :: terminalEvents rest := by
          rw [terminalEvents, terminalEvent, if_pos input]
        rw [← types.all running opened, idle, arrived, event]
        rfl
      · exact absurd (running.symm.trans stopped) (by decide)
  | @resizing frame rest running idle arrived resize length opened =>
      have event : terminalEvents (frame :: rest) =
          .resized (u16OfBytes (frame.payload.take 2)) (u16OfBytes (frame.payload.drop 2)) ::
            terminalEvents rest := by
        have other : frame.type ≠ frameStdin := by
          rw [resize]
          decide
        rw [terminalEvents, terminalEvent, if_neg other, if_pos ⟨resize, length⟩]
      have told := types.all running opened
      rw [idle, arrived, event] at told
      refine ⟨⟨terminalEvents rest, ?_⟩, fun _ _ => ?_, fun _ => idle⟩
      · rw [List.append_assoc]
        exact told
      · rw [← told]
        simp [idle]
  | ignoring running idle arrived closed =>
      refine ⟨types.front, fun _ opened => ?_, fun _ => idle⟩
      exact absurd (opened.symm.trans closed) (by decide)
  | stopping running idle arrived => exact types.of_stopped rfl idle rfl
  | endOfFrames running idle arrived => exact types.of_stopped rfl idle rfl
  | @typed bytes missing writing opened =>
      obtain rfl : missing = 0 := whole
      have running : before.inputRunning = true := by
        by_contra stopped
        rw [types.idle (by simpa using stopped)] at writing
        cases writing
      have told := types.all running opened
      rw [writing] at told
      refine ⟨⟨terminalEvents before.arriving, ?_⟩, fun _ _ => ?_, fun _ => rfl⟩
      · rw [Nat.sub_zero, List.take_length, List.append_assoc]
        exact told
      · rw [← told]
        simp
  | typedElsewhere missing writing closed =>
      refine ⟨types.front, fun _ opened => ?_, fun _ => rfl⟩
      exact absurd (opened.symm.trans closed) (by decide)
  | writeFailed writing => exact types.of_stopped rfl rfl rfl
  | print | exit | release | disconnect | outputEnds | reads | sends | drops | waited | joined
  | answered =>
      exact types.of_same rfl rfl rfl rfl id
  | closed phase unlocked => exact types.of_same rfl rfl rfl rfl (by simp)

theorem types_of_run {frames : List Frame} {actions : List TerminalAction} {final : TerminalExec}
    (execution : run step actions (start frames) = some final)
    (whole : ∀ action ∈ actions, action.Whole) : Types frames final :=
  invariant_of_guarded (fun types permitted stepped => Types.step types permitted stepped)
    (types_start frames) (guarded_of_forall (fun action member _ => whole action member) _)
    execution

end TerminalExec

@[simp]
theorem typedBytes_append (earlier later : List TerminalEvent) :
    typedBytes (earlier ++ later) = typedBytes earlier ++ typedBytes later := by
  simp [typedBytes]

@[simp]
theorem windowSizes_append (earlier later : List TerminalEvent) :
    windowSizes (earlier ++ later) = windowSizes earlier ++ windowSizes later := by
  simp [windowSizes]

theorem terminalEvents_append {earlier : List Frame}
    (events : ∀ frame ∈ earlier, (terminalEvent frame).isSome) (later : List Frame) :
    terminalEvents (earlier ++ later) = terminalEvents earlier ++ terminalEvents later := by
  induction earlier with
  | nil => rfl
  | cons frame earlier ih =>
      obtain ⟨event, told⟩ := Option.isSome_iff_exists.mp (events frame List.mem_cons_self)
      have rest := ih fun other member => events other (List.mem_cons_of_mem _ member)
      rw [List.cons_append, terminalEvents, terminalEvents, told, rest]
      rfl

/-- Fewer frames say a front of what all of them say. -/
theorem terminalEvents_front {front frames : List Frame} (isFront : front <+: frames) :
    terminalEvents front <+: terminalEvents frames := by
  induction front generalizing frames with
  | nil => exact List.nil_prefix
  | cons frame front ih =>
      obtain ⟨rest, rfl⟩ := isFront
      rw [List.cons_append, terminalEvents, terminalEvents]
      cases terminalEvent frame with
      | none => exact List.prefix_rfl
      | some event => exact List.cons_prefix_cons.mpr ⟨rfl, ih (List.prefix_append front rest)⟩

theorem typedBytes_front {front events : List TerminalEvent} (isFront : front <+: events) :
    typedBytes front <+: typedBytes events := by
  obtain ⟨rest, rfl⟩ := isFront
  exact typedBytes_append front rest ▸ List.prefix_append _ _

theorem windowSizes_prefix {front events : List TerminalEvent} (isFront : front <+: events) :
    windowSizes front <+: windowSizes events := by
  obtain ⟨rest, rfl⟩ := isFront
  exact windowSizes_append front rest ▸ List.prefix_append _ _

/-- The guest reads the window size that the host wrote. -/
theorem terminalEvent_resize (winsize : UInt16 × UInt16) :
    terminalEvent { type := frameResize, payload := winsizePayload winsize } =
      some (.resized winsize.1 winsize.2) := by
  have round_trip (value : UInt16) : u16OfBytes (toBigEndian 2 value.toNat) = value := by
    have small : value.toNat < 256 ^ 2 := value.toNat_lt
    rw [u16OfBytes, ofBigEndian_toBigEndian, Nat.mod_eq_of_lt small, UInt16.ofNat_toNat]
  have other : frameResize ≠ frameStdin := by decide
  have length : (winsizePayload winsize).length = 4 := by simp [winsizePayload]
  have rows : (winsizePayload winsize).take 2 = toBigEndian 2 winsize.1.toNat := by
    rw [winsizePayload, List.take_left' (length_toBigEndian 2 _)]
  have columns : (winsizePayload winsize).drop 2 = toBigEndian 2 winsize.2.toNat := by
    rw [winsizePayload, List.drop_left' (length_toBigEndian 2 _)]
  rw [terminalEvent, if_neg other, if_pos ⟨rfl, length⟩, rows, columns, round_trip, round_trip]

theorem terminalEvent_input (bytes : List UInt8) :
    terminalEvent { type := frameStdin, payload := bytes } = some (.typed bytes) := rfl

/-- The window sizes the host's thread is told to send. -/
def resizes (rounds : List PollRound) : List (UInt16 × UInt16) :=
  rounds.filterMap fun round =>
    match round.poll with
    | .ready _ true => round.winsize
    | _ => none

/-- What the host's thread has sent: its frames all say something, and they say these sizes and all
that the thread has read. -/
structure Tells (stdin : List UInt8) (sizes : List (UInt16 × UInt16)) (thread : InputThread) :
    Prop where
  events : ∀ frame ∈ thread.sent, frame.Fits ∧ (terminalEvent frame).isSome
  typed : typedBytes (terminalEvents thread.sent) ++ thread.unread = stdin
  resized : windowSizes (terminalEvents thread.sent) = sizes

theorem tells_start (stdin : List UInt8) : Tells stdin [] (InputThread.start stdin) where
  events := by simp [InputThread.start]
  typed := rfl
  resized := rfl

/-- One more frame. -/
theorem Tells.send {stdin : List UInt8} {sizes : List (UInt16 × UInt16)}
    {before after : InputThread} (tells : Tells stdin sizes before) {frame : Frame}
    {event : TerminalEvent} (fits : frame.Fits) (told : terminalEvent frame = some event)
    (sent : after.sent = before.sent ++ [frame])
    (read : typedBytes [event] ++ after.unread = before.unread) :
    Tells stdin (sizes ++ windowSizes [event]) after := by
  have all_events : ∀ earlier ∈ before.sent, (terminalEvent earlier).isSome :=
    fun earlier member => (tells.events earlier member).2
  have appended : terminalEvents after.sent = terminalEvents before.sent ++ [event] := by
    rw [sent, terminalEvents_append all_events, terminalEvents, told]
    rfl
  refine ⟨fun other member => ?_, ?_, ?_⟩
  · rw [sent] at member
    rcases List.mem_append.mp member with earlier | last
    · exact tells.events other earlier
    · obtain rfl := List.mem_singleton.mp last
      exact ⟨fits, by rw [told]; rfl⟩
  · rw [appended, typedBytes_append, List.append_assoc, read, tells.typed]
  · rw [appended, windowSizes_append, tells.resized]

theorem Tells.sendEnd {stdin : List UInt8} {sizes : List (UInt16 × UInt16)} {thread : InputThread}
    (tells : Tells stdin sizes thread) : Tells stdin sizes thread.sendEnd := by
  have fits : endOfInput.Fits := by simp [Frame.Fits, endOfInput]
  simpa [windowSizes] using
    @Tells.send _ _ _ thread.sendEnd tells _ _ fits (terminalEvent_input []) rfl rfl

theorem Tells.sendResize {stdin : List UInt8} {sizes : List (UInt16 × UInt16)}
    {thread : InputThread} (tells : Tells stdin sizes thread) (winsize : Option (UInt16 × UInt16)) :
    Tells stdin (sizes ++ winsize.toList) (thread.sendResize winsize) := by
  cases winsize with
  | none => exact (List.append_nil sizes).symm ▸ tells
  | some winsize =>
      exact tells.send (isInput_resize winsize).1 (terminalEvent_resize winsize) rfl rfl

theorem Tells.forwardRead {stdin : List UInt8} {sizes : List (UInt16 × UInt16)}
    {thread : InputThread} (tells : Tells stdin sizes thread) (read : ReadResult) :
    Tells stdin sizes (thread.forwardRead read) := by
  cases read with
  | interrupted => exact tells
  | failed => exact tells.sendEnd
  | taken size =>
      rw [InputThread.forwardRead]
      split
      · exact tells.sendEnd
      · rename_i left
        have split : typedBytes [.typed (thread.unread.take (size + 1))] ++
            thread.unread.drop (size + 1) = thread.unread := by
          simp [typedBytes]
        simpa [windowSizes] using @Tells.send _ _ _ { thread with
          unread := thread.unread.drop (size + 1)
          sent := thread.sent ++
            [{ type := frameStdin, payload := thread.unread.take (size + 1) }] }
          tells _ _ (isInput_chunk left size).1 (terminalEvent_input _) rfl split

/-- One round of the host's loop, whatever goes wrong in it. -/
theorem Tells.round {stdin : List UInt8} {sizes : List (UInt16 × UInt16)} {thread : InputThread}
    (tells : Tells stdin sizes thread) (round : PollRound) :
    Tells stdin (sizes ++ resizes [round]) (thread.round round) := by
  obtain ⟨poll, winsize, read⟩ := round
  cases poll with
  | failed =>
      exact ⟨tells.events, tells.typed, by simpa [resizes, InputThread.round] using tells.resized⟩
  | ready revents resize =>
      have resized : Tells stdin (sizes ++ resizes [⟨.ready revents resize, winsize, read⟩])
          (if resize then thread.sendResize winsize else thread) := by
        cases resize with
        | false => simpa [resizes] using tells
        | true =>
            have asked : resizes [⟨.ready revents true, winsize, read⟩] = winsize.toList := by
              cases winsize <;> rfl
            rw [if_pos rfl, asked]
            exact tells.sendResize winsize
      have forwarded : Tells stdin (sizes ++ resizes [⟨.ready revents resize, winsize, read⟩])
          (if revents.pollin || revents.pollhup then
            (if resize then thread.sendResize winsize else thread).forwardRead read
          else if resize then thread.sendResize winsize else thread) := by
        split
        · exact resized.forwardRead read
        · exact resized
      have ended (next : InputThread)
          (told : Tells stdin (sizes ++ resizes [⟨.ready revents resize, winsize, read⟩]) next) :
          Tells stdin (sizes ++ resizes [⟨.ready revents resize, winsize, read⟩])
            (if next.running && revents.pollerr then next.sendEnd else next) := by
        split
        · exact told.sendEnd
        · exact told
      exact ended _ forwarded

theorem tells_run {stdin : List UInt8} {rounds : List PollRound} {sizes : List (UInt16 × UInt16)}
    {thread final : InputThread} (tells : Tells stdin sizes thread)
    (execution : run InputThread.step rounds thread = some final) :
    Tells stdin (sizes ++ resizes rounds) final := by
  induction rounds generalizing sizes thread with
  | nil =>
      obtain rfl : thread = final := Option.some.inj execution
      simpa [resizes] using tells
  | cons round rounds ih =>
      obtain ⟨next, enabled, later⟩ := run_cons_eq_some.mp execution
      have stepped : thread.round round = next := by
        rw [InputThread.step] at enabled
        split at enabled
        · exact Option.some.inj enabled
        · cases enabled
      have split : resizes (round :: rounds) = resizes [round] ++ resizes rounds := by
        rw [resizes, resizes, resizes, ← List.filterMap_append, List.singleton_append]
      rw [split, ← List.append_assoc]
      exact ih (stepped ▸ tells.round round) later

/-- The input of an exec on a terminal, from the host's standard input to the terminal: however the
host's polls and reads turn out, wherever the connection is cut, whatever its pieces and however the
guest's threads, the child and the connection are scheduled, while no write to the terminal is short
the terminal is told a front of what the host sent, in order: a front of the standard input and a
front of the window sizes.  As long as the master is open and the input thread runs, which a write
that fails or the end of the connection stops, it has been told all of them once everything has
arrived, every frame has been received and no write is under way. -/
theorem terminal_input_forwarded (stdin : List UInt8) {rounds : List PollRound}
    {host : InputThread}
    (host_ran : run InputThread.step rounds (InputThread.start stdin) = some host)
    {pieces : Pieces UInt8} (cut : contents pieces <+: host.sent.flatMap Host.sendFrame)
    {frames : List Frame} {error : ReadError}
    (received : Receives Guest.recvFrame pieces frames error)
    {actions : List TerminalAction} {final : TerminalExec}
    (guest_ran : run TerminalExec.step actions (TerminalExec.start frames) = some final)
    (whole : ∀ action ∈ actions, action.Whole) :
    final.terminal <+: terminalEvents host.sent ∧
    typedBytes final.terminal <+: stdin ∧ windowSizes final.terminal <+: resizes rounds ∧
    (contents pieces = host.sent.flatMap Host.sendFrame → final.inputRunning = true →
      final.masterOpen = true → final.writing = none → final.arriving = [] →
      typedBytes final.terminal ++ host.unread = stdin ∧
        windowSizes final.terminal = resizes rounds) := by
  have tells : Tells stdin (resizes rounds) host := tells_run (tells_start stdin) host_ran
  have fits : ∀ frame ∈ host.sent, frame.Fits := fun frame member => (tells.events frame member).1
  obtain ⟨rfl, -⟩ := received.unique (receives_of_front fits cut)
  have isFront : wholeFrames (contents pieces).length host.sent <+: host.sent :=
    (prefix_wholeFrames_iff.mp List.prefix_rfl).1
  have types := TerminalExec.types_of_run guest_ran whole
  have told := types.front.trans (terminalEvents_front isFront)
  refine ⟨told, ?_, ?_, fun arrived running opened idle empty => ?_⟩
  · exact (typedBytes_front told).trans ⟨host.unread, tells.typed⟩
  · exact tells.resized ▸ windowSizes_prefix told
  · have all := types.all running opened
    have complete : wholeFrames (contents pieces).length host.sent = host.sent :=
      wholeFrames_all (Nat.le_of_eq (congrArg List.length arrived).symm)
    rw [idle, empty, complete] at all
    have told_all : final.terminal = terminalEvents host.sent := by
      simpa [terminalEvents] using all
    exact ⟨told_all ▸ tells.typed, told_all ▸ tells.resized⟩

/-- Four frames are received; three of them are written to the master. -/
def resizedActions : List TerminalAction :=
  [.receive, .receive, .finishWrite (.accepted 0), .receive, .finishWrite (.accepted 0),
    .receive, .finishWrite (.accepted 0)]

/-- The window is resized and two bytes are typed; the end of the input is one more write. -/
theorem resized_terminal_told :
    ∃ host final, run InputThread.step resizedRounds (InputThread.start [104, 105]) = some host ∧
      run TerminalExec.step resizedActions (TerminalExec.start host.sent) = some final ∧
      final.inputRunning = true ∧ typedBytes final.terminal = [104, 105] ∧
      windowSizes final.terminal = [(24, 80)] := by
  let sent : List Frame :=
    [{ type := frameResize, payload := winsizePayload (24, 80) },
      { type := frameStdin, payload := [104] }, { type := frameStdin, payload := [105] },
      endOfInput]
  let wire : Pieces UInt8 := [⟨sent.flatMap Host.sendFrame, by decide⟩]
  have fits : ∀ frame ∈ sent, frame.Fits := by
    simp [sent, Frame.Fits, winsizePayload, endOfInput]
  have received : Receives Guest.recvFrame wire sent .unexpectedEof := receives_all fits rfl
  have host_ran : run InputThread.step resizedRounds (InputThread.start [104, 105]) =
      some { unread := [], sent, running := false } := rfl
  obtain ⟨final, guest_ran, running, opened, idle, empty⟩ :
      ∃ final, run TerminalExec.step resizedActions (TerminalExec.start sent) = some final ∧
        final.inputRunning = true ∧ final.masterOpen = true ∧ final.writing = none ∧
        final.arriving = [] := ⟨_, rfl, rfl, rfl, rfl, rfl⟩
  have whole : ∀ action ∈ resizedActions, action.Whole := by
    simp [resizedActions, TerminalAction.Whole]
  have stream : contents wire = sent.flatMap Host.sendFrame := List.append_nil _
  obtain ⟨-, -, -, all⟩ := terminal_input_forwarded [104, 105] host_ran
    (stream ▸ List.prefix_rfl) received guest_ran whole
  obtain ⟨typed, resized⟩ := all stream running opened idle empty
  exact ⟨_, final, host_ran, guest_ran, running, by simpa using typed, resized⟩

/-! ## Output -/

namespace TerminalExec

/-- The invariant of the output: while the connection holds, what was sent, read and left unread is
what was printed; an ended thread has sent everything; the master stays open until the child has
exited, and the exit frame comes last. -/
structure Prints (exec : TerminalExec) : Prop where
  waited : exec.main ≠ .waiting → exec.exited.isSome
  opened : exec.main = .waiting → exec.masterOpen = true
  relayed : exec.connected = true →
    carried .stdout exec.sent ++ (exec.output.buffer ++ exec.output.unread) = exec.printed
  front : carried .stdout exec.sent <+: exec.printed
  small : exec.output.buffer.length ≤ 4096
  idle : exec.output.ended = true → exec.output.buffer = []
  drained : exec.connected = true → exec.output.ended = true →
    exec.output.unread = [] ∧ exec.slaveOpen = false
  joined : exec.main = .exiting ∨ exec.main = .returned → exec.output.ended = true
  exit_last : ∃ data, (∀ frame ∈ data, frame.type = frameStdout ∧ frame.Fits) ∧
    (exec.sent = data ∨
      exec.main = .returned ∧
        exec.sent = data ++ [PipedExec.exitFrame (exec.exited.getD none)]) ∧
    (exec.main = .returned → exec.connected = true →
      exec.sent = data ++ [PipedExec.exitFrame (exec.exited.getD none)])

theorem prints_start (frames : List Frame) : Prints (start frames) where
  waited going := absurd rfl going
  opened _ := rfl
  relayed _ := rfl
  front := List.prefix_rfl
  small := Nat.zero_le _
  idle ended := by cases ended
  drained _ ended := by cases ended
  joined phase := by rcases phase with phase | phase <;> cases phase
  exit_last := ⟨[], by simp, .inl rfl, fun phase => by cases phase⟩

/-- Before the main thread has returned, only output has been sent. -/
theorem Prints.only_output {exec : TerminalExec} (prints : Prints exec)
    (going : exec.main ≠ .returned) :
    ∀ frame ∈ exec.sent, frame.type = frameStdout ∧ frame.Fits := by
  obtain ⟨data, output, sent | ⟨returned, -⟩, -⟩ := prints.exit_last
  · exact sent ▸ output
  · exact absurd returned going

/-- While the output thread runs, the main thread has not joined it. -/
theorem Prints.not_returned {exec : TerminalExec} (prints : Prints exec)
    (running : exec.output.ended = false) : exec.main ≠ .returned := fun returned =>
  absurd (running.symm.trans (prints.joined (.inr returned))) (by decide)

theorem Prints.running {exec : TerminalExec} (prints : Prints exec)
    (holding : exec.output.buffer ≠ []) : exec.output.ended = false := by
  by_contra ended
  exact holding (prints.idle (by simpa using ended))

/-- The output thread sends what it holds. -/
theorem Prints.sends {exec : TerminalExec} (prints : Prints exec)
    (holding : exec.output.buffer ≠ []) (connected : exec.connected = true) :
    Prints { exec with
      output := { exec.output with buffer := [] }, sent := exec.sent ++ [exec.outputFrame] } := by
  have running := prints.running holding
  have going := prints.not_returned running
  have carried_eq : carried .stdout (exec.sent ++ [exec.outputFrame]) =
      carried .stdout exec.sent ++ exec.output.buffer := by
    rw [carried_append]
    exact congrArg _ (PipedExec.carried_chunk .stdout .stdout exec.output.buffer)
  have printed := prints.relayed connected
  refine
    { prints with
      relayed := fun _ => ?_
      front := ?_
      small := Nat.zero_le _
      idle := fun _ => rfl
      exit_last := ?_ }
  · rw [carried_eq, List.append_assoc]
    exact printed
  · rw [carried_eq, ← printed, ← List.append_assoc]
    exact List.prefix_append _ _
  · refine ⟨exec.sent ++ [exec.outputFrame], fun frame member => ?_, .inl rfl,
      fun returned => absurd returned going⟩
    rcases List.mem_append.mp member with earlier | last
    · exact prints.only_output going frame earlier
    · obtain rfl := List.mem_singleton.mp last
      exact ⟨rfl, Nat.lt_of_le_of_lt prints.small (by decide)⟩

/-- The main thread sends the exit frame, if the connection still holds. -/
theorem Prints.answered {exec : TerminalExec} (prints : Prints exec)
    (phase : exec.main = .exiting) :
    Prints { exec with
      main := .returned
      sent := if exec.connected then
          exec.sent ++ [PipedExec.exitFrame (exec.exited.getD none)]
        else exec.sent } := by
  have output := prints.only_output (by simp [phase])
  have carried_eq : carried .stdout (if exec.connected then
      exec.sent ++ [PipedExec.exitFrame (exec.exited.getD none)] else exec.sent) =
        carried .stdout exec.sent := by
    split
    · rw [carried_append, PipedExec.carried_exit, List.append_nil]
    · rfl
  refine
    { prints with
      waited := fun _ => prints.waited (by simp [phase])
      opened := fun waiting => by cases waiting
      relayed := fun connected => ?_
      front := ?_
      joined := fun _ => prints.joined (.inl phase)
      exit_last := ?_ }
  · rw [carried_eq]
    exact prints.relayed connected
  · rw [carried_eq]
    exact prints.front
  · refine ⟨exec.sent, output, ?_, fun _ connected => if_pos connected⟩
    by_cases connected : exec.connected = true
    · exact .inr ⟨rfl, if_pos connected⟩
    · exact .inl (if_neg connected)

theorem Prints.step {before after : TerminalExec} {action : TerminalAction}
    (prints : Prints before) (stepped : before.step action = some after) : Prints after := by
  cases stepped_of_step stepped with
  | typing | resizing | ignoring | stopping | endOfFrames | typed | typedElsewhere | writeFailed =>
      exact { prints with }
  | print bytes held =>
      refine
        { prints with
          relayed := fun connected => ?_
          front := prints.front.trans (List.prefix_append _ _)
          drained := fun connected ended => ?_ }
      · have printed := prints.relayed connected
        simp only [← printed, List.append_assoc]
      · exact absurd (held.symm.trans (prints.drained connected ended).2) (by decide)
  | exit status alive =>
      have waiting : before.main = .waiting := by
        by_contra going
        have exited := prints.waited going
        rw [alive] at exited
        cases exited
      have output := prints.only_output (by simp [waiting])
      exact
        { prints with
          waited := fun _ => rfl
          exit_last := ⟨before.sent, output, .inl rfl,
            fun returned => by simp [waiting] at returned⟩ }
  | release held =>
      exact { prints with
        drained := fun connected ended => ⟨(prints.drained connected ended).1, rfl⟩ }
  | disconnect connected =>
      obtain ⟨data, output, sent, -⟩ := prints.exit_last
      exact
        { prints with
          relayed := fun connected => by cases connected
          drained := fun connected => by cases connected
          exit_last := ⟨data, output, sent, fun _ connected => by cases connected⟩ }
  | outputEnds size going empty unread released =>
      exact
        { prints with
          idle := fun _ => empty
          drained := fun _ _ => ⟨unread, released⟩
          joined := fun _ => rfl }
  | @reads chunk rest size going empty unread nonempty small =>
      have moved (connected : before.connected = true) :
          carried .stdout before.sent ++ (chunk ++ rest) = before.printed := by
        rw [← prints.relayed connected, empty, unread, List.nil_append]
      exact
        { prints with
          relayed := moved
          small := small
          idle := fun ended => absurd (going.symm.trans ended) (by decide)
          drained := fun _ ended => absurd (going.symm.trans ended) (by decide) }
  | sends holding connected => exact prints.sends holding connected
  | drops holding gone =>
      exact
        { prints with
          relayed := fun connected => absurd (gone.symm.trans connected) (by decide)
          small := Nat.zero_le _
          idle := fun _ => rfl
          drained := fun connected => absurd (gone.symm.trans connected) (by decide)
          joined := fun _ => rfl }
  | waited phase exited =>
      have output := prints.only_output (by simp [phase])
      exact
        { prints with
          waited := fun _ => by rw [exited]; rfl
          opened := fun waiting => by cases waiting
          joined := fun joined => by rcases joined with joined | joined <;> cases joined
          exit_last := ⟨before.sent, output, .inl rfl, fun returned => by cases returned⟩ }
  | closed phase unlocked =>
      have output := prints.only_output (by simp [phase])
      exact
        { prints with
          waited := fun _ => prints.waited (by simp [phase])
          opened := fun waiting => by cases waiting
          joined := fun joined => by rcases joined with joined | joined <;> cases joined
          exit_last := ⟨before.sent, output, .inl rfl, fun returned => by cases returned⟩ }
  | joined phase ended =>
      have output := prints.only_output (by simp [phase])
      exact
        { prints with
          waited := fun _ => prints.waited (by simp [phase])
          opened := fun waiting => by cases waiting
          joined := fun _ => ended
          exit_last := ⟨before.sent, output, .inl rfl, fun returned => by cases returned⟩ }
  | answered phase => exact prints.answered phase

theorem prints_of_run {frames : List Frame} {actions : List TerminalAction} {final : TerminalExec}
    (execution : run step actions (start frames) = some final) : Prints final :=
  invariant_of_run (fun prints stepped => Prints.step prints stepped) (prints_start frames)
    execution

/-- In every schedule of the guest's threads, of the processes on the terminal and of the
connection, the master is closed only after the child has exited, gone client or not, and the frames
carry a front of what was printed.  When the handler has returned and the connection holds, the
host, however it reads it, has written exactly what was printed and returns the child's exit
code. -/
theorem terminal_output_relayed {frames : List Frame} {actions : List TerminalAction}
    {final : TerminalExec} (execution : run step actions (start frames) = some final) :
    (final.masterOpen = false → final.exited.isSome) ∧
    carried .stdout final.sent <+: final.printed ∧
    (final.main = .returned → final.connected = true →
      ∃ status, final.exited = some status ∧
        ∀ pieces : Pieces UInt8, contents pieces = final.wire →
          ∃ received, Receives Host.recvFrame pieces received .unexpectedEof ∧
            readGuestFrames received =
              { stdout := final.printed, stderr := [], code := status.getD (-1) }) := by
  have prints := prints_of_run execution
  refine ⟨fun closed => prints.waited fun waiting => ?_, prints.front, fun returned connected => ?_⟩
  · exact absurd (closed.symm.trans (prints.opened waiting)) (by decide)
  obtain ⟨status, exited⟩ := Option.isSome_iff_exists.mp (prints.waited (by simp [returned]))
  refine ⟨status, exited, fun pieces stream => ?_⟩
  obtain ⟨data, output, -, answered⟩ := prints.exit_last
  have sent := answered returned connected
  rw [exited, Option.getD_some] at sent
  have ended := prints.joined (.inr returned)
  have printed := prints.relayed connected
  rw [prints.idle ended, (prints.drained connected ended).1, sent, carried_append,
    PipedExec.carried_exit, List.append_nil, List.append_nil, List.append_nil] at printed
  have silent : carried .stderr data = [] := by
    rw [carried, List.flatMap_eq_nil_iff]
    intro frame member
    obtain ⟨member, type_eq⟩ := List.mem_filter.mp member
    have stdout := (output frame member).1
    rw [stdout] at type_eq
    exact absurd type_eq (by decide)
  have all_data : ∀ frame ∈ data, IsData frame := fun frame member =>
    ⟨(output frame member).2, .stdout, (output frame member).1⟩
  refine ⟨final.sent, receives_all (fun frame member => ?_) stream, ?_⟩
  · rw [sent] at member
    rcases List.mem_append.mp member with earlier | last
    · exact (output frame earlier).2
    · obtain rfl := List.mem_singleton.mp last
      simp [Frame.Fits, PipedExec.exitFrame, i32ToBytes]
  · rw [sent, readGuestFrames_data all_data, printed, silent]

/-- A child that prints and exits while its client stays. -/
theorem printed_exec_relayed :
    ∃ final, run step [.print [104, 105], .read 0, .send, .exit none, .release, .main, .main,
        .read 7, .send, .read 7, .main, .main] (start []) = some final ∧
      ∃ status, final.exited = some status ∧
        ∀ pieces : Pieces UInt8, contents pieces = final.wire →
          ∃ received, Receives Host.recvFrame pieces received .unexpectedEof ∧
            readGuestFrames received =
              { stdout := final.printed, stderr := [], code := status.getD (-1) } := by
  have reached : ∃ final, run step [.print [104, 105], .read 0, .send, .exit none, .release, .main,
      .main, .read 7, .send, .read 7, .main, .main] (start []) = some final ∧
      final.main = .returned ∧ final.connected = true := ⟨_, rfl, rfl, rfl⟩
  obtain ⟨final, execution, returned, connected⟩ := reached
  exact ⟨final, execution, (terminal_output_relayed execution).2.2 returned connected⟩

/-! ## Every schedule ends -/

/-- The child has exited and no process has the terminal open any more. -/
def Settled (exec : TerminalExec) : Prop := exec.slaveOpen = false ∧ exec.exited.isSome

/-- Steps the main thread has still to make. -/
def TtyPhase.rank : TtyPhase → Nat
  | .waiting => 4
  | .closing => 3
  | .joining => 2
  | .exiting => 1
  | .returned => 0

/-- Steps left, at most, once the terminal is settled. -/
def rank (exec : TerminalExec) : Nat :=
  3 * exec.arriving.length + (if exec.inputRunning then 1 else 0) +
    (if exec.writing.isSome then 2 else 0) + PipedExec.OutputThread.rank exec.output +
    (if exec.connected then 1 else 0) + TtyPhase.rank exec.main

theorem Settled.step {before after : TerminalExec} {action : TerminalAction}
    (settled : Settled before) (stepped : before.step action = some after) :
    Settled after ∧ rank after < rank before := by
  obtain ⟨released, exited⟩ := settled
  cases stepped_of_step stepped with
  | typing running idle arrived input =>
      refine ⟨⟨released, exited⟩, ?_⟩
      simp only [rank, arrived, idle, List.length_cons, Option.isSome_some, Option.isSome_none,
        if_true, Bool.false_eq_true, if_false]
      omega
  | resizing running idle arrived | ignoring running idle arrived =>
      refine ⟨⟨released, exited⟩, ?_⟩
      simp only [rank, arrived, List.length_cons]
      omega
  | stopping running idle arrived =>
      refine ⟨⟨released, exited⟩, ?_⟩
      simp only [rank, arrived, running, List.length_cons, if_true, Bool.false_eq_true, if_false]
      omega
  | endOfFrames running idle arrived =>
      refine ⟨⟨released, exited⟩, ?_⟩
      simp [rank, running]
  | typed missing writing | typedElsewhere missing writing =>
      refine ⟨⟨released, exited⟩, ?_⟩
      simp [rank, writing]
  | writeFailed writing =>
      refine ⟨⟨released, exited⟩, ?_⟩
      simp only [rank, writing, Option.isSome_some, Option.isSome_none, if_true, Bool.false_eq_true,
        if_false]
      omega
  | print bytes held => exact absurd (held.symm.trans released) (by decide)
  | exit status alive =>
      rw [alive] at exited
      cases exited
  | release held => exact absurd (held.symm.trans released) (by decide)
  | disconnect connected =>
      refine ⟨⟨released, exited⟩, ?_⟩
      simp [rank, connected]
  | outputEnds size going empty drained =>
      refine ⟨⟨released, exited⟩, ?_⟩
      simp [rank, PipedExec.OutputThread.rank, going]
  | reads size going empty unread nonempty small =>
      refine ⟨⟨released, exited⟩, ?_⟩
      have some_read := List.length_pos_iff.mpr nonempty
      simp only [rank, PipedExec.OutputThread.rank, going, empty, unread, nonempty,
        List.length_append, if_true, if_false]
      omega
  | sends holding connected =>
      refine ⟨⟨released, exited⟩, ?_⟩
      simp [rank, PipedExec.OutputThread.rank, holding]
  | drops holding gone =>
      refine ⟨⟨released, exited⟩, ?_⟩
      simp only [rank, PipedExec.OutputThread.rank, holding, if_true, if_false]
      omega
  | waited phase | closed phase | joined phase | answered phase =>
      refine ⟨⟨released, exited⟩, ?_⟩
      simp [rank, TtyPhase.rank, phase]

/-- A thread of the guest can make a step until the main thread has returned. -/
theorem Settled.exists_step {exec : TerminalExec} (settled : Settled exec)
    (going : exec.main ≠ .returned) :
    ∃ action, action ≠ .disconnect ∧ (exec.step action).isSome := by
  cases phase : exec.main with
  | waiting => exact ⟨.main, by simp, by simp [TerminalExec.step, mainStep, phase, settled.2]⟩
  | closing =>
      cases writing : exec.writing with
      | none => exact ⟨.main, by simp, by simp [TerminalExec.step, mainStep, phase, writing]⟩
      | some bytes =>
          exact ⟨.finishWrite .failed, by simp, by simp [TerminalExec.step, writing]⟩
  | joining =>
      by_cases ended : exec.output.ended = true
      · exact ⟨.main, by simp, by simp [TerminalExec.step, mainStep, phase, ended]⟩
      · by_cases holding : exec.output.buffer = []
        · refine ⟨.read 0, by simp, ?_⟩
          by_cases drained : exec.output.unread = [] <;>
            simp [TerminalExec.step, readMaster, ended, holding, drained, settled.1]
        · refine ⟨.send, by simp, ?_⟩
          by_cases connected : exec.connected = true <;>
            simp [TerminalExec.step, sendOutput, holding, connected]
  | exiting => exact ⟨.main, by simp, by simp [TerminalExec.step, mainStep, phase]⟩
  | returned => exact absurd phase going

/-- Once the child has exited and the terminal is released, every schedule ends, and it ends with
the handler's return, wherever the threads were and even when the connection is gone. -/
theorem terminal_exec_ends {exec final : TerminalExec} {actions : List TerminalAction}
    (settled : Settled exec) (execution : run step actions exec = some final) :
    actions.length ≤ rank exec ∧
      (final.main ≠ .returned → ∃ action, action ≠ .disconnect ∧ (final.step action).isSome) := by
  have bounded : actions.length + rank final ≤ rank exec ∧ Settled final := by
    induction actions generalizing exec with
    | nil =>
        obtain rfl : exec = final := Option.some.inj execution
        exact ⟨by simp, settled⟩
    | cons action actions ih =>
        obtain ⟨next, enabled, later⟩ := run_cons_eq_some.mp execution
        obtain ⟨next_settled, lower⟩ := settled.step enabled
        have rest := ih next_settled later
        rw [List.length_cons]
        exact ⟨by omega, rest.2⟩
  exact ⟨by omega, bounded.2.exists_step⟩

/-- A run in which a client types, resizes its window and goes away; the child prints, exits and
leaves the terminal. -/
def abandonedActions : List TerminalAction :=
  [.receive, .finishWrite (.accepted 0), .receive, .print [104, 105], .read (Fin.last 4095), .send,
    .disconnect, .receiveFails, .exit (some 3), .main, .main, .release, .read (Fin.last 4095),
    .main, .main]

def abandonedFrames : List Frame :=
  [{ type := frameStdin, payload := [108, 115] },
    { type := frameResize, payload := winsizePayload (24, 80) }]

theorem abandoned_exec_ends :
    ∃ middle final, run step (abandonedActions.take 12) (start abandonedFrames) = some middle ∧
      run step (abandonedActions.drop 12) middle = some final ∧ final.main = .returned ∧
      (abandonedActions.drop 12).length ≤ rank middle := by
  have reached : ∃ middle, run step (abandonedActions.take 12) (start abandonedFrames) =
      some middle ∧ Settled middle ∧
        ∃ final, run step (abandonedActions.drop 12) middle = some final ∧
          final.main = .returned :=
    ⟨_, rfl, ⟨rfl, rfl⟩, _, rfl, rfl⟩
  obtain ⟨middle, execution, settled, final, later, returned⟩ := reached
  exact ⟨middle, final, execution, later, returned, (terminal_exec_ends settled later).1⟩

end TerminalExec

end Pelagos.Wire
