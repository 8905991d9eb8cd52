import Mathlib.Logic.Function.Basic
import Pelagos.Library.LineText
import Pelagos.Wire.Handshake

/-!
# Streamed output of a command

`spawn_and_stream` starts two threads that read the child's output line by line and send each line
through one channel; the main thread writes a response for each until both threads are done, waits
for the child and writes the exit response.  The host prints the data of the responses until it
reads the exit.
-/

namespace Pelagos.Wire

open Execution Lines
open Wire.Guest (StreamKind)

/-- What the threads of `spawn_and_stream` send. -/
inductive Chunk where
  /-- `Chunk::Out` or `Chunk::Err`. -/
  | data (stream : StreamKind) (data : String)
  | done
  deriving DecidableEq

/-- A thread that reads the lines of one pipe. -/
structure LineThread where
  /-- What the child writes to the pipe and the thread has not read. -/
  unread : List UInt8
  reader : LineReader UInt8
  done : Bool

/-- Where the main thread of `spawn_and_stream` is. -/
inductive StreamPhase where
  /-- Receiving, with the given `done_count`. -/
  | receiving (count : Nat)
  | waiting
  | exiting
  | returned
  deriving DecidableEq

/-- `spawn_and_stream` after the spawn. -/
structure StreamedExec where
  thread : StreamKind → LineThread
  channel : List Chunk
  main : StreamPhase
  /-- The child's exit code; `none` when a signal kills it. -/
  status : Option Int32
  /-- The responses written so far. -/
  sent : List Guest.GuestResponse

/-- A step of a reader thread or of the main thread. -/
inductive StreamedAction where
  /-- A read that returns at most `size + 1` bytes. -/
  | fill (stream : StreamKind) (size : Nat)
  | scan (stream : StreamKind)
  /-- The thread reads the end of its pipe. -/
  | lineEnds (stream : StreamKind)
  | main
  deriving DecidableEq

namespace StreamedExec

/-- The child has been spawned and will write `output`. -/
def start (output : StreamKind → List UInt8) (status : Option Int32) : StreamedExec :=
  { thread := fun stream => { unread := output stream, reader := .fresh, done := false },
    channel := [], main := .receiving 0, status, sent := [] }

/-- Replace one thread. -/
def setThread (exec : StreamedExec) (stream : StreamKind) (thread : LineThread) : StreamedExec :=
  { exec with thread := Function.update exec.thread stream thread }

/-- The thread leaves its loop. -/
def finish (exec : StreamedExec) (stream : StreamKind) (thread : LineThread) : StreamedExec :=
  { exec.setThread stream { thread with done := true } with channel := exec.channel ++ [.done] }

/-- The thread has read a line; it stops at the first that is no text. -/
def sendLine (exec : StreamedExec) (stream : StreamKind) (thread : LineThread)
    (line : List UInt8) : StreamedExec :=
  match Utf8.decode line with
  | some text =>
      { exec.setThread stream thread with
        channel := exec.channel ++
          [.data stream (String.ofList (LineText.terminated text.toList))] }
  | none => exec.finish stream thread

/-- The main thread receives a chunk. -/
def receive (exec : StreamedExec) (count : Nat) : Chunk → StreamedExec
  | .data stream data => { exec with sent := exec.sent ++ [.stream stream data] }
  | .done => { exec with main := if count + 1 < 2 then .receiving (count + 1) else .waiting }

/-- One step; `none` when the thread is blocked or has ended. -/
def step (exec : StreamedExec) : StreamedAction → Option StreamedExec
  | .fill stream size =>
      let thread := exec.thread stream
      if thread.done = true ∨ thread.reader.buffer ≠ [] ∨ thread.unread = [] then none
      else
        some (exec.setThread stream
          { thread with
            unread := thread.unread.drop (size + 1)
            reader := thread.reader.fill (thread.unread.take (size + 1)) })
  | .scan stream =>
      let thread := exec.thread stream
      if thread.done = true ∨ thread.reader.buffer = [] then none
      else
        match thread.reader.scan Json.newline with
        | (none, reader) => some (exec.setThread stream { thread with reader })
        | (some line, reader) => some (exec.sendLine stream { thread with reader } line)
  | .lineEnds stream =>
      let thread := exec.thread stream
      if thread.done = true ∨ thread.reader.buffer ≠ [] ∨ thread.unread ≠ [] then none
      else if thread.reader.started = [] then some (exec.finish stream thread)
      else some (exec.sendLine stream { thread with reader := .fresh } thread.reader.started)
  | .main =>
      match exec.main with
      | .receiving count =>
          match exec.channel with
          | [] => none
          | chunk :: channel => some ({ exec with channel }.receive count chunk)
      | .waiting => some { exec with main := .exiting }
      | .exiting =>
          some { exec with
            main := .returned, sent := exec.sent ++ [.exit (exec.status.getD (-1))] }
      | .returned => none

/-- The bytes on the connection. -/
def wire (exec : StreamedExec) : List UInt8 :=
  exec.sent.flatMap fun response => Utf8.encode (Guest.sendResponse response)

end StreamedExec

/-- `passthrough_command` after it has sent the command. -/
structure Passthrough where
  reader : LineReader UInt8
  /-- What it has printed to each stream. -/
  printed : StreamKind → String
  /-- The exit code it has returned. -/
  returned : Option Int32

namespace Passthrough

def start : Passthrough := { reader := .fresh, printed := fun _ => "", returned := none }

/-- Print to standard error what is marked so, everything else to standard output. -/
def print (host : Passthrough) (stream data : String) : Passthrough :=
  let kind := if stream = "stderr" then StreamKind.stderr else .stdout
  { host with printed := Function.update host.printed kind (host.printed kind ++ data) }

/-- What `passthrough_command` does with a line. -/
def handleLine (host : Passthrough) (line : List UInt8) : Passthrough :=
  match Utf8.decode line with
  | none => { host with returned := some 1 }
  | some text =>
      let trimmed := Text.trimEnd text
      if trimmed = "" then host
      else
        match Host.GuestResponse.ofLine trimmed with
        | .ok (.stream stream data) => host.print stream data
        | .ok (.exit exit) => { host with returned := some exit }
        | .ok (.error _) => { host with returned := some 1 }
        | .ok _ => host
        | .error _ => { host with returned := some 1 }

end Passthrough

/-- The guest's handler and the host's, with the connection between them. -/
structure StreamedSession where
  exec : StreamedExec
  host : Passthrough
  /-- What the host has read from the connection. -/
  taken : List UInt8

/-- A step of the guest, or the host fills its buffer or takes a line from it. -/
inductive SessionAction where
  | guest (action : StreamedAction)
  | fill (size : Nat)
  | scan
  deriving DecidableEq

namespace StreamedSession

def start (output : StreamKind → List UInt8) (status : Option Int32) : StreamedSession :=
  { exec := .start output status, host := .start, taken := [] }

/-- What is on its way to the host. -/
def inFlight (session : StreamedSession) : List UInt8 :=
  session.exec.wire.drop session.taken.length

/-- A read of the host that returns at most `size + 1` bytes. -/
def fill (session : StreamedSession) (size : Nat) : StreamedSession :=
  { session with
    host := { session.host with
      reader := session.host.reader.fill (session.inFlight.take (size + 1)) }
    taken := session.taken ++ session.inFlight.take (size + 1) }

/-- One step of either side. -/
def step (session : StreamedSession) : SessionAction → Option StreamedSession
  | .guest action => (session.exec.step action).map fun exec => { session with exec }
  | .fill size =>
      if session.host.returned ≠ none ∨ session.host.reader.buffer ≠ [] ∨ session.inFlight = [] then
        none
      else some (session.fill size)
  | .scan =>
      if session.host.returned ≠ none ∨ session.host.reader.buffer = [] then none
      else
        match session.host.reader.scan Json.newline with
        | (none, reader) => some { session with host := { session.host with reader } }
        | (some line, reader) =>
            some { session with host := { session.host with reader }.handleLine line }

end StreamedSession

/-! ## The threads -/

/-- The data that chunks carry for a stream. -/
def carriedBy (stream : StreamKind) (chunks : List Chunk) : List String :=
  chunks.filterMap fun
    | .data kind data => if kind = stream then some data else none
    | .done => none

theorem carriedBy_append (stream : StreamKind) (earlier later : List Chunk) :
    carriedBy stream (earlier ++ later) = carriedBy stream earlier ++ carriedBy stream later :=
  List.filterMap_append

theorem carriedBy_cons (stream : StreamKind) (chunk : Chunk) (chunks : List Chunk) :
    carriedBy stream (chunk :: chunks) = carriedBy stream [chunk] ++ carriedBy stream chunks :=
  carriedBy_append stream [chunk] chunks

theorem carriedBy_data (stream kind : StreamKind) (data : String) :
    carriedBy stream [.data kind data] = if kind = stream then [data] else [] := by
  by_cases same : kind = stream <;> simp [carriedBy, same]

theorem carriedBy_done (stream : StreamKind) : carriedBy stream [.done] = [] := rfl

namespace LineThread

/-- What the thread has of its pipe. -/
def pending (thread : LineThread) : List UInt8 :=
  thread.reader.started ++ thread.reader.buffer ++ thread.unread

/-- What the thread has still to send. -/
def ahead (thread : LineThread) : List String :=
  if thread.done then [] else LineText.linesAgain (linesOf Json.newline thread.pending)

/-- Steps the thread has still to make, at most, with two more for each chunk it sends. -/
def rank (thread : LineThread) : Nat :=
  if thread.done then 0
  else 5 * thread.unread.length + 4 * thread.reader.buffer.length +
    3 * thread.reader.started.length + 3

/-- One step of a thread, which sends `added`. -/
structure Emits (stream : StreamKind) (before after : LineThread) (added : List Chunk) : Prop where
  running : before.done = false
  chunks : (after.done = false ∧ (added = [] ∨ ∃ data, added = [.data stream data])) ∨
    (after.done = true ∧ added = [.done])
  ahead_eq : Json.newline ∉ before.reader.started →
    before.ahead = carriedBy stream added ++ after.ahead
  started_free : Json.newline ∉ before.reader.started → Json.newline ∉ after.reader.started
  rank_lt : after.rank + 2 * added.length < before.rank

/-- The thread reads or consumes bytes without completing a line. -/
theorem emits_nothing {stream : StreamKind} {before after : LineThread}
    (running : before.done = false) (still_running : after.done = false)
    (pending_eq : after.pending = before.pending)
    (started_free : Json.newline ∉ before.reader.started → Json.newline ∉ after.reader.started)
    (rank_lt : after.rank < before.rank) : Emits stream before after [] where
  running := running
  chunks := Or.inl ⟨still_running, Or.inl rfl⟩
  ahead_eq _ := by simp [ahead, running, still_running, pending_eq, carriedBy]
  started_free := started_free
  rank_lt := rank_lt

theorem rank_of_running {thread : LineThread} (running : thread.done = false) :
    thread.rank = 5 * thread.unread.length + 4 * thread.reader.buffer.length +
      3 * thread.reader.started.length + 3 := by
  simp [rank, running]

/-- A running thread makes progress when it has less of its pipe, or what it has is further on. -/
theorem rank_add_lt {before after : LineThread} {sent : Nat} (running : before.done = false)
    (still_running : after.done = false)
    (less : 5 * after.unread.length + 4 * after.reader.buffer.length +
        3 * after.reader.started.length + sent <
      5 * before.unread.length + 4 * before.reader.buffer.length +
        3 * before.reader.started.length) : after.rank + sent < before.rank := by
  rw [rank_of_running running, rank_of_running still_running]
  omega

theorem rank_lt {before after : LineThread} (running : before.done = false)
    (still_running : after.done = false)
    (less : 5 * after.unread.length + 4 * after.reader.buffer.length +
        3 * after.reader.started.length <
      5 * before.unread.length + 4 * before.reader.buffer.length +
        3 * before.reader.started.length) : after.rank < before.rank := by
  have none_sent : after.rank + 0 < before.rank := rank_add_lt running still_running less
  exact none_sent

theorem ahead_of_running {thread : LineThread} (running : thread.done = false) :
    thread.ahead = LineText.linesAgain (linesOf Json.newline thread.pending) := by
  simp [ahead, running]

end LineThread

namespace StreamedExec

open LineThread (Emits)

/-- A step of one thread. -/
def Progresses (before after : StreamedExec) : Prop :=
  ∃ stream thread added, Emits stream (before.thread stream) thread added ∧
    after = { before.setThread stream thread with channel := before.channel ++ added }

/-- The thread has completed a line and goes on behind it. -/
theorem progresses_sendLine {exec : StreamedExec} {stream : StreamKind} {thread : LineThread}
    {line : List UInt8} (running : (exec.thread stream).done = false)
    (still_running : thread.done = false) (started_eq : thread.reader.started = [])
    (lines_eq : Json.newline ∉ (exec.thread stream).reader.started →
      linesOf Json.newline (exec.thread stream).pending =
        line :: linesOf Json.newline thread.pending)
    (rank_lt : thread.rank + 2 < (exec.thread stream).rank) :
    exec.Progresses (exec.sendLine stream thread line) := by
  have free : Json.newline ∉ thread.reader.started := by simp [started_eq]
  cases decoded : Utf8.decode line with
  | some text =>
      refine ⟨stream, thread, _, ⟨running, Or.inl ⟨still_running, Or.inr ⟨_, rfl⟩⟩,
        fun before_free => ?_, fun _ => free, rank_lt⟩, by rw [sendLine, decoded]⟩
      rw [LineThread.ahead_of_running running, LineThread.ahead_of_running still_running,
        lines_eq before_free, LineText.linesAgain, decoded, carriedBy_data, if_pos rfl]
      rfl
  | none =>
      refine ⟨stream, { thread with done := true }, [.done], ⟨running, Or.inr ⟨rfl, rfl⟩,
        fun before_free => ?_, fun _ => free, ?_⟩, by rw [sendLine, decoded, finish]⟩
      · rw [LineThread.ahead_of_running running, lines_eq before_free, LineText.linesAgain, decoded]
        rfl
      · have gone : LineThread.rank { thread with done := true } = 0 := rfl
        rw [gone, List.length_singleton]
        omega

/-- The thread goes on without sending anything. -/
theorem progresses_setThread {exec : StreamedExec} {stream : StreamKind} {thread : LineThread}
    (emits : Emits stream (exec.thread stream) thread []) :
    exec.Progresses (exec.setThread stream thread) :=
  ⟨stream, thread, [], emits, by simp [setThread]⟩

theorem progresses_fill {before after : StreamedExec} {stream : StreamKind} {size : Nat}
    (stepped : before.step (.fill stream size) = some after) : before.Progresses after := by
  simp only [step] at stepped
  split at stepped
  · cases stepped
  · rename_i enabled
    simp only [not_or, Bool.not_eq_true, not_not] at enabled
    obtain ⟨running, empty, more⟩ := enabled
    obtain rfl := Option.some.inj stepped
    refine progresses_setThread (LineThread.emits_nothing running running ?_ (fun free => free) ?_)
    · simp [LineThread.pending, LineReader.fill, empty]
    · have some_read : 0 < (before.thread stream).unread.length := List.length_pos_iff.mpr more
      refine LineThread.rank_lt running running ?_
      simp only [LineReader.fill, empty, List.nil_append, List.length_take, List.length_drop,
        List.length_nil]
      omega

theorem progresses_scan {before after : StreamedExec} {stream : StreamKind}
    (stepped : before.step (.scan stream) = some after) : before.Progresses after := by
  simp only [step] at stepped
  split at stepped
  · cases stepped
  · rename_i enabled
    simp only [not_or, Bool.not_eq_true] at enabled
    obtain ⟨running, more⟩ := enabled
    have some_buffered : 0 < (before.thread stream).reader.buffer.length :=
      List.length_pos_iff.mpr more
    cases split : takeThrough Json.newline (before.thread stream).reader.buffer with
    | none =>
        rw [LineReader.scan, split] at stepped
        obtain rfl := Option.some.inj stepped
        refine progresses_setThread (LineThread.emits_nothing running running ?_ ?_ ?_)
        · simp [LineThread.pending]
        · intro free
          simp [free, takeThrough_eq_none.mp split]
        · refine LineThread.rank_lt running running ?_
          simp only [List.length_append, List.length_nil]
          omega
    | some parts =>
        obtain ⟨front, rest⟩ := parts
        rw [LineReader.scan, split] at stepped
        obtain rfl := Option.some.inj stepped
        obtain ⟨⟨body, rfl, body_free⟩, buffer_eq⟩ := takeThrough_eq_some split
        refine progresses_sendLine running running rfl (fun free => ?_) ?_
        · have is_line : IsLine Json.newline
              ((before.thread stream).reader.started ++ (body ++ [Json.newline])) :=
            ⟨(before.thread stream).reader.started ++ body, by simp, by simp [free, body_free]⟩
          rw [← linesOf_append is_line]
          simp [LineThread.pending, buffer_eq]
        · refine LineThread.rank_add_lt running running ?_
          rw [buffer_eq]
          simp only [List.length_append, List.length_nil, List.length_singleton]
          omega

theorem progresses_lineEnds {before after : StreamedExec} {stream : StreamKind}
    (stepped : before.step (.lineEnds stream) = some after) : before.Progresses after := by
  simp only [step] at stepped
  split at stepped
  · cases stepped
  · rename_i enabled
    simp only [not_or, Bool.not_eq_true, not_not] at enabled
    obtain ⟨running, empty, drained⟩ := enabled
    have pending_eq : (before.thread stream).pending = (before.thread stream).reader.started := by
      simp [LineThread.pending, empty, drained]
    split at stepped
    · rename_i nothing
      obtain rfl := Option.some.inj stepped
      refine ⟨stream, { before.thread stream with done := true }, [.done],
        ⟨running, Or.inr ⟨rfl, rfl⟩, fun _ => ?_, fun free => free, ?_⟩, rfl⟩
      · rw [LineThread.ahead_of_running running, pending_eq, nothing]
        rfl
      · rw [LineThread.rank_of_running running]
        have gone : LineThread.rank { before.thread stream with done := true } = 0 := rfl
        rw [gone, List.length_singleton]
        omega
    · rename_i begun
      obtain rfl := Option.some.inj stepped
      have some_started : 0 < (before.thread stream).reader.started.length :=
        List.length_pos_iff.mpr begun
      refine progresses_sendLine running running rfl (fun free => ?_) ?_
      · rw [pending_eq, linesOf_of_free free begun]
        simp [LineThread.pending, LineReader.fresh, drained]
      · refine LineThread.rank_add_lt running running ?_
        simp only [LineReader.fresh, List.length_nil, drained, empty]
        omega

/-- What one step can do. -/
theorem step_cases {before after : StreamedExec} {action : StreamedAction}
    (stepped : before.step action = some after) :
    before.Progresses after ∨
    (∃ count stream data rest, before.main = .receiving count ∧
      before.channel = .data stream data :: rest ∧
      after = { before with channel := rest, sent := before.sent ++ [.stream stream data] }) ∨
    (∃ count rest, before.main = .receiving count ∧ before.channel = .done :: rest ∧
      after = { before with
        channel := rest
        main := if count + 1 < 2 then .receiving (count + 1) else .waiting }) ∨
    (before.main = .waiting ∧ after = { before with main := .exiting }) ∨
    (before.main = .exiting ∧
      after = { before with
        main := .returned, sent := before.sent ++ [.exit (before.status.getD (-1))] }) := by
  cases action with
  | fill stream size => exact Or.inl (progresses_fill stepped)
  | scan stream => exact Or.inl (progresses_scan stepped)
  | lineEnds stream => exact Or.inl (progresses_lineEnds stepped)
  | main =>
      simp only [step] at stepped
      split at stepped
      · rename_i count phase
        split at stepped
        · cases stepped
        · rename_i chunk rest channel_eq
          obtain rfl := Option.some.inj stepped
          cases chunk with
          | data stream data =>
              exact .inr (.inl ⟨count, stream, data, rest, phase, channel_eq, rfl⟩)
          | done => exact .inr (.inr (.inl ⟨count, rest, phase, channel_eq, rfl⟩))
      · rename_i phase
        exact .inr (.inr (.inr (.inl ⟨phase, (Option.some.inj stepped).symm⟩)))
      · rename_i phase
        exact .inr (.inr (.inr (.inr ⟨phase, (Option.some.inj stepped).symm⟩)))
      · cases stepped

/-! ## What the guest writes -/

end StreamedExec

/-- The data that responses show for a stream. -/
def shownBy (stream : StreamKind) (responses : List Guest.GuestResponse) : List String :=
  responses.filterMap fun
    | .stream kind data => if kind = stream then some data else none
    | _ => none

theorem shownBy_append (stream : StreamKind) (earlier later : List Guest.GuestResponse) :
    shownBy stream (earlier ++ later) = shownBy stream earlier ++ shownBy stream later :=
  List.filterMap_append

theorem shownBy_stream (stream kind : StreamKind) (data : String) :
    shownBy stream [.stream kind data] = if kind = stream then [data] else [] := by
  by_cases same : kind = stream <;> simp [shownBy, same]

theorem shownBy_exit (stream : StreamKind) (code : Int32) : shownBy stream [.exit code] = [] := rfl

/-- A response that shows a piece of output. -/
def IsStream (response : Guest.GuestResponse) : Prop := ∃ kind data, response = .stream kind data

/-- The threads that are known to be done. -/
def StreamPhase.count : StreamPhase → Nat
  | .receiving count => count
  | _ => 2

namespace StreamedExec

open LineThread (Emits)

def doneThreads (exec : StreamedExec) : Nat :=
  (exec.thread .stdout).done.toNat + (exec.thread .stderr).done.toNat

/-- The invariant: what was sent, queued and is still to be read of each pipe is the child's output;
every thread announces its end once, as its last chunk; the exit response is written last. -/
structure Forwards (output : StreamKind → List UInt8) (status : Option Int32)
    (exec : StreamedExec) : Prop where
  status_eq : exec.status = status
  forwarded : ∀ stream, shownBy stream exec.sent ++ carriedBy stream exec.channel ++
    (exec.thread stream).ahead = LineText.linesAgain (linesOf Json.newline (output stream))
  started_free : ∀ stream, Json.newline ∉ (exec.thread stream).reader.started
  counted : exec.main.count + exec.channel.count .done = exec.doneThreads
  receives : ∀ count, exec.main = .receiving count → count < 2
  done_last : exec.doneThreads = 2 → exec.main.count < 2 → exec.channel.getLast? = some .done
  emptied : exec.main.count = 2 → exec.channel = []
  exit_last : ∃ data, (∀ response ∈ data, IsStream response) ∧
    exec.sent = data ++ if exec.main = .returned then [.exit (status.getD (-1))] else []

theorem forwards_start (output : StreamKind → List UInt8) (status : Option Int32) :
    Forwards output status (start output status) where
  status_eq := rfl
  forwarded stream := by
    simp [start, shownBy, carriedBy, LineThread.ahead, LineThread.pending, LineReader.fresh]
  started_free stream := by simp [start, LineReader.fresh]
  counted := rfl
  receives count phase := by
    obtain rfl : 0 = count := StreamPhase.receiving.inj phase
    exact Nat.zero_lt_two
  done_last all_done := by simp [start, doneThreads] at all_done
  emptied counted := by simp [start, StreamPhase.count] at counted
  exit_last := ⟨[], by simp, rfl⟩

theorem doneThreads_eq_two {exec : StreamedExec} :
    exec.doneThreads = 2 ↔ ∀ stream, (exec.thread stream).done = true := by
  rw [doneThreads]
  constructor
  · intro both stream
    cases out : (exec.thread .stdout).done <;> cases err : (exec.thread .stderr).done <;>
      simp [out, err] at both
    cases stream <;> assumption
  · intro all
    simp [all]

/-- A thread that goes on changes the number of ended threads by its own end. -/
theorem doneThreads_setThread {exec : StreamedExec} {stream : StreamKind} {thread : LineThread}
    (running : (exec.thread stream).done = false) :
    (exec.setThread stream thread).doneThreads = exec.doneThreads + thread.done.toNat := by
  cases stream <;> simp [doneThreads, setThread, running, Nat.add_comm]

/-- While a thread is running, the main thread is receiving. -/
theorem Forwards.receiving {output : StreamKind → List UInt8} {status : Option Int32}
    {exec : StreamedExec} (forwards : Forwards output status exec) {stream : StreamKind}
    (running : (exec.thread stream).done = false) : exec.main.count ≠ 2 := by
  intro counted
  have all_done : exec.doneThreads = 2 := by
    rw [← forwards.counted, counted, forwards.emptied counted]
    rfl
  rw [doneThreads_eq_two.mp all_done stream] at running
  cases running

theorem Forwards.progress {output : StreamKind → List UInt8} {status : Option Int32}
    {before after : StreamedExec} (forwards : Forwards output status before)
    (progresses : before.Progresses after) : Forwards output status after := by
  obtain ⟨stream, thread, added, emits, rfl⟩ := progresses
  have receiving := forwards.receiving emits.running
  have counted_added : added.count .done = thread.done.toNat := by
    rcases emits.chunks with ⟨running, rfl | ⟨data, rfl⟩⟩ | ⟨ended, rfl⟩ <;> simp [*]
  refine
    { status_eq := forwards.status_eq
      forwarded := fun other => ?_
      started_free := fun other => ?_
      counted := ?_
      receives := forwards.receives
      done_last := ?_
      emptied := fun counted => absurd counted receiving
      exit_last := forwards.exit_last }
  · rw [← forwards.forwarded other, carriedBy_append]
    by_cases here : other = stream
    · subst here
      rw [emits.ahead_eq (forwards.started_free other)]
      simp [setThread]
    · have nothing : carriedBy other added = [] := by
        rcases emits.chunks with ⟨-, rfl | ⟨data, rfl⟩⟩ | ⟨-, rfl⟩
        · rfl
        · rw [carriedBy_data, if_neg (Ne.symm here)]
        · rfl
      simp [setThread, Function.update_of_ne here, nothing]
  · by_cases here : other = stream
    · subst here
      simpa [setThread] using emits.started_free (forwards.started_free other)
    · simpa [setThread, Function.update_of_ne here] using forwards.started_free other
  · have threads : (before.setThread stream thread).doneThreads = _ :=
      doneThreads_setThread emits.running
    change before.main.count + (before.channel ++ added).count .done =
      (before.setThread stream thread).doneThreads
    rw [threads, List.count_append, counted_added, ← forwards.counted, Nat.add_assoc]
  · intro all_done _
    rcases emits.chunks with ⟨running, -⟩ | ⟨-, rfl⟩
    · have ended := doneThreads_eq_two.mp all_done stream
      simp [setThread, running] at ended
    · simp

theorem doneThreads_le (exec : StreamedExec) : exec.doneThreads ≤ 2 := by
  rw [doneThreads]
  cases (exec.thread .stdout).done <;> cases (exec.thread .stderr).done <;> simp

/-- What the main thread has received of both threads, after one more chunk that is an end. -/
theorem count_next {count : Nat} (receives : count < 2) :
    (if count + 1 < 2 then StreamPhase.receiving (count + 1) else .waiting).count = count + 1 := by
  split
  · rfl
  · have count_eq : StreamPhase.waiting.count = 2 := rfl
    omega

theorem getLast?_of_cons {chunk : Chunk} {rest : List Chunk}
    (last : (chunk :: rest).getLast? = some .done) (more : chunk = .done → rest ≠ []) :
    rest.getLast? = some .done := by
  cases rest with
  | nil =>
      have only : chunk = .done := by simpa using last
      exact absurd rfl (more only)
  | cons next rest => rwa [List.getLast?_cons_cons] at last

theorem Forwards.receiveData {output : StreamKind → List UInt8} {status : Option Int32}
    {exec : StreamedExec} (forwards : Forwards output status exec) {count : Nat}
    {stream : StreamKind} {data : String} {rest : List Chunk}
    (phase : exec.main = .receiving count) (channel_eq : exec.channel = .data stream data :: rest) :
    Forwards output status
      { exec with channel := rest, sent := exec.sent ++ [.stream stream data] } := by
  have receives := forwards.receives count phase
  have main_count : exec.main.count = count := by rw [phase, StreamPhase.count]
  refine
    { status_eq := forwards.status_eq
      forwarded := fun other => ?_
      started_free := forwards.started_free
      counted := ?_
      receives := forwards.receives
      done_last := fun all_done more => ?_
      emptied := fun counted => ?_
      exit_last := ?_ }
  · rw [← forwards.forwarded other, shownBy_append, shownBy_stream, channel_eq, carriedBy_cons,
      carriedBy_data, List.append_assoc (shownBy other exec.sent)]
  · have counted := forwards.counted
    rw [channel_eq, List.count_cons_of_ne (by simp)] at counted
    exact counted
  · have last := forwards.done_last all_done more
    rw [channel_eq] at last
    exact getLast?_of_cons last (by simp)
  · exact absurd (main_count.symm.trans counted) (Nat.ne_of_lt receives)
  · obtain ⟨earlier, all_data, sent_eq⟩ := forwards.exit_last
    rw [phase, if_neg (by simp), List.append_nil] at sent_eq
    refine ⟨earlier ++ [.stream stream data], fun response member => ?_, by simp [sent_eq, phase]⟩
    rcases List.mem_append.mp member with before | last
    · exact all_data response before
    · exact ⟨stream, data, List.mem_singleton.mp last⟩

theorem Forwards.receiveDone {output : StreamKind → List UInt8} {status : Option Int32}
    {exec : StreamedExec} (forwards : Forwards output status exec) {count : Nat}
    {rest : List Chunk} (phase : exec.main = .receiving count)
    (channel_eq : exec.channel = .done :: rest) :
    Forwards output status
      { exec with
        channel := rest
        main := if count + 1 < 2 then .receiving (count + 1) else .waiting } := by
  have receives := forwards.receives count phase
  have main_count := count_next receives
  have counted : count + 1 + rest.count .done = exec.doneThreads := by
    rw [← forwards.counted, phase, channel_eq, List.count_cons_self, StreamPhase.count]
    omega
  have not_returned : (if count + 1 < 2 then StreamPhase.receiving (count + 1) else .waiting) ≠
      .returned := by
    split <;> simp
  refine
    { status_eq := forwards.status_eq
      forwarded := fun other => ?_
      started_free := forwards.started_free
      counted := (congrArg (· + rest.count .done) main_count).trans counted
      receives := fun next received => ?_
      done_last := fun all_done more => ?_
      emptied := fun all_counted => ?_
      exit_last := ?_ }
  · rw [← forwards.forwarded other, channel_eq, carriedBy_cons, carriedBy_done, List.nil_append]
  · change (if count + 1 < 2 then StreamPhase.receiving (count + 1) else .waiting) =
      .receiving next at received
    split at received
    · rename_i fewer
      obtain rfl := StreamPhase.receiving.inj received
      exact fewer
    · cases received
  · have last := forwards.done_last all_done (by rw [phase]; exact receives)
    rw [channel_eq] at last
    refine getLast?_of_cons last fun _ empty => ?_
    have fewer : count + 1 < 2 := lt_of_eq_of_lt main_count.symm more
    have both : exec.doneThreads = 2 := all_done
    have nothing : rest.count .done = 0 := by
      rw [show rest = [] from empty, List.count_nil]
    omega
  · have received_all : count + 1 = 2 := main_count.symm.trans all_counted
    have bound := doneThreads_le exec
    have none_left : rest.count .done = 0 := by omega
    have last := forwards.done_last (by omega) (by rw [phase]; exact receives)
    by_contra more
    rw [channel_eq] at last
    have ends := getLast?_of_cons last fun _ => more
    exact absurd (List.mem_of_getLast? ends) (List.count_eq_zero.mp none_left)
  · obtain ⟨earlier, all_data, sent_eq⟩ := forwards.exit_last
    rw [phase, if_neg (by simp)] at sent_eq
    exact ⟨earlier, all_data, by rw [if_neg not_returned]; exact sent_eq⟩

theorem Forwards.step {output : StreamKind → List UInt8} {status : Option Int32}
    {before after : StreamedExec} {action : StreamedAction}
    (forwards : Forwards output status before) (stepped : before.step action = some after) :
    Forwards output status after := by
  rcases step_cases stepped with progresses | ⟨count, stream, data, rest, phase, channel_eq, rfl⟩ |
    ⟨count, rest, phase, channel_eq, rfl⟩ | ⟨phase, rfl⟩ | ⟨phase, rfl⟩
  · exact forwards.progress progresses
  · exact forwards.receiveData phase channel_eq
  · exact forwards.receiveDone phase channel_eq
  · obtain ⟨earlier, all_data, sent_eq⟩ := forwards.exit_last
    have count_eq : before.main.count = 2 := by rw [phase]; rfl
    exact
      { forwards with
        counted :=
          (congrArg (· + before.channel.count .done) count_eq.symm).trans forwards.counted
        receives := fun _ received => nomatch received
        done_last := fun _ more => absurd more (by simp [StreamPhase.count])
        emptied := fun _ => forwards.emptied count_eq
        exit_last := ⟨earlier, all_data, by simpa [phase] using sent_eq⟩ }
  · obtain ⟨earlier, all_data, sent_eq⟩ := forwards.exit_last
    have count_eq : before.main.count = 2 := by rw [phase]; rfl
    exact
      { forwards with
        forwarded := by
          intro stream
          rw [← forwards.forwarded stream, shownBy_append, shownBy_exit, List.append_nil]
        counted :=
          (congrArg (· + before.channel.count .done) count_eq.symm).trans forwards.counted
        receives := fun _ received => nomatch received
        done_last := fun _ more => absurd more (by simp [StreamPhase.count])
        emptied := fun _ => forwards.emptied count_eq
        exit_last := ⟨earlier, all_data, by simp [sent_eq, phase, forwards.status_eq]⟩ }

/-- Once the main thread has received both ends, everything was sent. -/
theorem Forwards.shown_eq {output : StreamKind → List UInt8} {status : Option Int32}
    {exec : StreamedExec} (forwards : Forwards output status exec) (counted : exec.main.count = 2)
    (stream : StreamKind) :
    shownBy stream exec.sent = LineText.linesAgain (linesOf Json.newline (output stream)) := by
  have channel_eq := forwards.emptied counted
  have all_done : exec.doneThreads = 2 := by
    rw [← forwards.counted, counted, channel_eq]
    rfl
  rw [← forwards.forwarded stream, channel_eq, LineThread.ahead,
    if_pos (doneThreads_eq_two.mp all_done stream)]
  simp [carriedBy]

/-- Every response that was sent is a piece of a stream, or the exit, as the last one. -/
theorem Forwards.sent_cases {output : StreamKind → List UInt8} {status : Option Int32}
    {exec : StreamedExec} (forwards : Forwards output status exec)
    {read rest : List Guest.GuestResponse} {response : Guest.GuestResponse}
    (split : exec.sent = (read ++ [response]) ++ rest) :
    IsStream response ∨
      response = .exit (status.getD (-1)) ∧ rest = [] ∧ exec.main = .returned := by
  obtain ⟨data, all_data, sent_eq⟩ := forwards.exit_last
  by_cases last : exec.main = .returned
  · rw [if_pos last] at sent_eq
    have same := split.symm.trans sent_eq
    rcases List.eq_nil_or_concat' rest with rfl | ⟨middle, final, rfl⟩
    · rw [List.append_nil] at same
      have response_eq := List.singleton_inj.mp (List.append_inj' same rfl).2
      exact Or.inr ⟨response_eq, rfl, last⟩
    · rw [← List.append_assoc] at same
      refine Or.inl (all_data response ?_)
      rw [← (List.append_inj' same rfl).1]
      simp
  · rw [if_neg last, List.append_nil] at sent_eq
    refine Or.inl (all_data response ?_)
    rw [← sent_eq, split]
    simp

/-- A step adds to what was sent, and none is enabled that would add to it after the exit. -/
theorem Forwards.sent_step {output : StreamKind → List UInt8} {status : Option Int32}
    {before after : StreamedExec} {action : StreamedAction}
    (forwards : Forwards output status before) (stepped : before.step action = some after) :
    before.main ≠ .returned ∧ ∃ later, after.sent = before.sent ++ later := by
  rcases step_cases stepped with ⟨stream, thread, added, emits, rfl⟩ |
    ⟨count, stream, data, rest, phase, -, rfl⟩ | ⟨count, rest, phase, -, rfl⟩ | ⟨phase, rfl⟩ |
    ⟨phase, rfl⟩
  · refine ⟨fun returned => forwards.receiving emits.running (by rw [returned]; rfl), [], ?_⟩
    simp [setThread]
  · exact ⟨by simp [phase], _, rfl⟩
  · exact ⟨by simp [phase], [], by simp⟩
  · exact ⟨by simp [phase], [], by simp⟩
  · exact ⟨by simp [phase], _, rfl⟩

/-! ## The handler ends -/

end StreamedExec

/-- Steps the main thread has still to make between two chunks. -/
def StreamPhase.rank : StreamPhase → Nat
  | .receiving _ => 3
  | .waiting => 2
  | .exiting => 1
  | .returned => 0

namespace StreamedExec

/-- Steps left, at most. -/
def rank (exec : StreamedExec) : Nat :=
  (exec.thread .stdout).rank + (exec.thread .stderr).rank + 2 * exec.channel.length +
    exec.main.rank

theorem rank_step {before after : StreamedExec} {action : StreamedAction}
    (stepped : before.step action = some after) : after.rank < before.rank := by
  rcases step_cases stepped with ⟨stream, thread, added, emits, rfl⟩ |
    ⟨count, stream, data, rest, phase, channel_eq, rfl⟩ | ⟨count, rest, phase, channel_eq, rfl⟩ |
    ⟨phase, rfl⟩ | ⟨phase, rfl⟩
  · have less := emits.rank_lt
    cases stream <;>
      simp only [rank, setThread, Function.update_self, ne_eq, reduceCtorEq, not_false_eq_true,
        Function.update_of_ne, List.length_append] <;> omega
  · simp only [rank, channel_eq, List.length_cons]
    omega
  · have next_rank : (if count + 1 < 2 then StreamPhase.receiving (count + 1) else .waiting).rank ≤
        StreamPhase.rank (.receiving count) := by
      split <;> simp [StreamPhase.rank]
    simp only [rank, channel_eq, phase, List.length_cons]
    omega
  · simp [rank, phase, StreamPhase.rank]
  · simp [rank, phase, StreamPhase.rank]

theorem exists_thread_step {exec : StreamedExec} {stream : StreamKind}
    (running : (exec.thread stream).done = false) :
    ∃ action, (exec.step action).isSome = true := by
  by_cases buffered : (exec.thread stream).reader.buffer = []
  · by_cases drained : (exec.thread stream).unread = []
    · refine ⟨.lineEnds stream, ?_⟩
      simp only [step]
      rw [if_neg (by simp [running, buffered, drained])]
      split <;> rfl
    · exact ⟨.fill stream 0, by simp [step, running, buffered, drained]⟩
  · refine ⟨.scan stream, ?_⟩
    simp only [step]
    rw [if_neg (by simp [running, buffered])]
    split <;> rfl

/-- Until the main thread has returned, some thread can make a step. -/
theorem Forwards.exists_step {output : StreamKind → List UInt8} {status : Option Int32}
    {exec : StreamedExec} (forwards : Forwards output status exec) (going : exec.main ≠ .returned) :
    ∃ action, (exec.step action).isSome = true := by
  cases phase : exec.main with
  | receiving count =>
      cases channel_eq : exec.channel with
      | nil =>
          have more := forwards.receives count phase
          have still_running : ∃ stream, (exec.thread stream).done = false := by
            by_contra all_done
            simp only [not_exists, Bool.not_eq_false] at all_done
            have last :=
              forwards.done_last (doneThreads_eq_two.mpr all_done) (by rw [phase]; exact more)
            simp [channel_eq] at last
          obtain ⟨stream, running⟩ := still_running
          exact exists_thread_step running
      | cons chunk rest => exact ⟨.main, by simp [StreamedExec.step, phase, channel_eq]⟩
  | waiting => exact ⟨.main, by simp [StreamedExec.step, phase]⟩
  | exiting => exact ⟨.main, by simp [StreamedExec.step, phase]⟩
  | returned => exact absurd phase going

end StreamedExec

/-! ## The host -/

/-- The bytes of responses on the connection. -/
def wireOf (responses : List Guest.GuestResponse) : List UInt8 :=
  responses.flatMap fun response => Utf8.encode (Guest.sendResponse response)

theorem wireOf_append (earlier later : List Guest.GuestResponse) :
    wireOf (earlier ++ later) = wireOf earlier ++ wireOf later := List.flatMap_append

theorem newline_mem_wireOf {responses : List Guest.GuestResponse} (more : responses ≠ []) :
    Json.newline ∈ wireOf responses := by
  obtain ⟨response, rest, rfl⟩ := List.exists_cons_of_ne_nil more
  exact List.mem_append_left _ (isLine_response response).stop_mem

theorem variant_eq_stderr (kind : StreamKind) :
    (if kind.variant = "stderr" then StreamKind.stderr else .stdout) = kind := by
  cases kind <;> rfl

namespace Passthrough

theorem handleLine_stream (host : Passthrough) (kind : StreamKind) (data : String) :
    host.handleLine (Utf8.encode (Guest.sendResponse (.stream kind data))) =
      { host with printed := Function.update host.printed kind (host.printed kind ++ data) } := by
  simp only [handleLine, Utf8.decode_encode, trimEnd_sendResponse,
    if_neg (toText_response_ne_empty _), ofLine_response, mirrorResponse, print, variant_eq_stderr]

theorem reader_handleLine (host : Passthrough) (line : List UInt8) :
    (host.handleLine line).reader = host.reader := by
  rw [handleLine]
  split
  · rfl
  · dsimp only
    split
    · rfl
    · split <;> rfl

theorem handleLine_exit (host : Passthrough) (code : Int32) :
    host.handleLine (Utf8.encode (Guest.sendResponse (.exit code))) =
      { host with returned := some code } := by
  simp only [handleLine, Utf8.decode_encode, trimEnd_sendResponse,
    if_neg (toText_response_ne_empty _), ofLine_response, mirrorResponse]

theorem handleLine_error (host : Passthrough) (error : String) :
    host.handleLine (Utf8.encode (Guest.sendResponse (.error error))) =
      { host with returned := some 1 } := by
  simp only [handleLine, Utf8.decode_encode, trimEnd_sendResponse,
    if_neg (toText_response_ne_empty _), ofLine_response, mirrorResponse]

end Passthrough

namespace StreamedSession

/-- The invariant: the host has printed the responses it has read, in full lines, and has the bytes
of the others before it; it returns when it has read the last one. -/
structure Shows (output : StreamKind → List UInt8) (status : Option Int32)
    (session : StreamedSession) : Prop where
  forwards : StreamedExec.Forwards output status session.exec
  taken_first : session.taken <+: session.exec.wire
  started_free : Json.newline ∉ session.host.reader.started
  shown : ∃ read rest, session.exec.sent = read ++ rest ∧
    session.host.reader.started ++ session.host.reader.buffer ++ session.inFlight = wireOf rest ∧
    (∀ kind, session.host.printed kind = String.join (shownBy kind read)) ∧
    (session.host.returned = none → ∀ response ∈ read, IsStream response) ∧
    ∀ code, session.host.returned = some code →
      code = status.getD (-1) ∧ rest = [] ∧ session.exec.main = .returned

theorem shows_start (output : StreamKind → List UInt8) (status : Option Int32) :
    Shows output status (start output status) where
  forwards := StreamedExec.forwards_start output status
  taken_first := List.nil_prefix
  started_free := by simp [start, Passthrough.start, LineReader.fresh]
  shown := ⟨[], [], rfl, rfl, fun _ => rfl, by simp, by simp [start, Passthrough.start]⟩

theorem inFlight_append {session : StreamedSession} {exec : StreamedExec}
    {later : List Guest.GuestResponse} (taken_first : session.taken <+: session.exec.wire)
    (sent_eq : exec.sent = session.exec.sent ++ later) :
    ({ session with exec } : StreamedSession).inFlight = session.inFlight ++ wireOf later := by
  have wire_eq : exec.wire = session.exec.wire ++ wireOf later := by
    rw [StreamedExec.wire, sent_eq]
    exact wireOf_append _ _
  change exec.wire.drop session.taken.length = session.exec.wire.drop session.taken.length ++ _
  rw [wire_eq, List.drop_append_of_le_length taken_first.length_le]

theorem Shows.guestStep {output : StreamKind → List UInt8} {status : Option Int32}
    {session : StreamedSession} {action : StreamedAction} {exec : StreamedExec}
    (shows : Shows output status session) (stepped : session.exec.step action = some exec) :
    Shows output status { session with exec } := by
  obtain ⟨going, later, sent_eq⟩ := shows.forwards.sent_step stepped
  obtain ⟨read, rest, split, ahead, printed, streams, code⟩ := shows.shown
  have not_returned : session.host.returned = none := by
    cases returned : session.host.returned with
    | none => rfl
    | some value => exact absurd (code value returned).2.2 going
  refine
    { forwards := shows.forwards.step stepped
      taken_first := ?_
      started_free := shows.started_free
      shown := ⟨read, rest ++ later, ?_, ?_, printed, streams, ?_⟩ }
  · have wire_eq : exec.wire = session.exec.wire ++ wireOf later := by
      rw [StreamedExec.wire, sent_eq]
      exact wireOf_append _ _
    exact shows.taken_first.trans (wire_eq ▸ List.prefix_append _ _)
  · rw [sent_eq, split, List.append_assoc]
  · rw [inFlight_append shows.taken_first sent_eq, ← List.append_assoc, ahead, wireOf_append]
  · simp [not_returned]

theorem inFlight_fill (session : StreamedSession) (size : Nat) :
    (session.fill size).inFlight = session.inFlight.drop (size + 1) := by
  have dropped : (session.fill size).inFlight =
      session.inFlight.drop (session.inFlight.take (size + 1)).length := by
    rw [inFlight, fill, List.length_append, ← List.drop_drop]
    rfl
  rw [dropped, List.length_take]
  rcases Nat.le_total (size + 1) session.inFlight.length with some_left | all_taken
  · rw [Nat.min_eq_left some_left]
  · rw [Nat.min_eq_right all_taken, List.drop_length, List.drop_eq_nil_of_le all_taken]

/-- A read moves bytes from the connection to the host's buffer. -/
theorem Shows.fill {output : StreamKind → List UInt8} {status : Option Int32}
    {session : StreamedSession} (shows : Shows output status session) (size : Nat)
    (empty : session.host.reader.buffer = []) : Shows output status (session.fill size) := by
  obtain ⟨read, rest, split, ahead, printed, streams, code⟩ := shows.shown
  obtain ⟨behind, wire_eq⟩ := shows.taken_first
  have flight_eq : session.inFlight = behind := by
    rw [inFlight, ← wire_eq, List.drop_left]
  refine
    { forwards := shows.forwards
      taken_first := ⟨behind.drop (size + 1), ?_⟩
      started_free := shows.started_free
      shown := ⟨read, rest, split, ?_, printed, streams, code⟩ }
  · change session.taken ++ session.inFlight.take (size + 1) ++ behind.drop (size + 1) =
      session.exec.wire
    rw [flight_eq, List.append_assoc, List.take_append_drop, wire_eq]
  · rw [inFlight_fill, ← ahead]
    simp [StreamedSession.fill, LineReader.fill, empty]

/-- A line that is read is that of the first response that was not read before. -/
theorem Shows.nextResponse {output : StreamKind → List UInt8} {status : Option Int32}
    {session : StreamedSession} {reader : LineReader UInt8} {line : List UInt8}
    {rest : List Guest.GuestResponse} (shows : Shows output status session)
    (scanned : session.host.reader.scan Json.newline = (some line, reader))
    (ahead : session.host.reader.started ++ session.host.reader.buffer ++ session.inFlight =
      wireOf rest) :
    ∃ response later, rest = response :: later ∧
      line = Utf8.encode (Guest.sendResponse response) ∧ reader.started = [] ∧
        reader.buffer ++ session.inFlight = wireOf later := by
  have holds : session.host.reader.Holds Json.newline
      (session.host.reader.started ++ session.host.reader.buffer) [] :=
    ⟨by simp, shows.started_free⟩
  obtain ⟨is_line, started_eq, after⟩ := holds.scan_some scanned
  have line_eq : line ++ (reader.buffer ++ session.inFlight) = wireOf rest := by
    have delivered := after.delivered_eq
    rw [← ahead, delivered]
    simp [started_eq]
  have more : rest ≠ [] := by
    rintro rfl
    exact is_line.ne_nil (List.append_eq_nil_iff.mp line_eq).1
  obtain ⟨response, later, rfl⟩ := List.exists_cons_of_ne_nil more
  obtain ⟨line_is, rest_eq⟩ := is_line.append_inj (isLine_response response) line_eq
  exact ⟨response, later, rfl, line_is, started_eq, rest_eq⟩

/-- The host prints the response of a line, or returns. -/
theorem Shows.readLine {output : StreamKind → List UInt8} {status : Option Int32}
    {session : StreamedSession} {reader : LineReader UInt8} {line : List UInt8}
    (shows : Shows output status session) (running : session.host.returned = none)
    (scanned : session.host.reader.scan Json.newline = (some line, reader)) :
    Shows output status
      { session with host := { session.host with reader }.handleLine line } := by
  obtain ⟨read, unread, split, ahead, printed, streams, -⟩ := shows.shown
  obtain ⟨response, rest, rfl, rfl, started_eq, rest_eq⟩ := shows.nextResponse scanned ahead
  have ahead' : reader.started ++ reader.buffer ++ session.inFlight = wireOf rest := by
    rw [started_eq, List.nil_append]
    exact rest_eq
  have split' : session.exec.sent = (read ++ [response]) ++ rest := by
    rw [split, List.append_assoc, List.singleton_append]
  have all_streams := streams running
  rcases shows.forwards.sent_cases split' with ⟨kind, data, rfl⟩ | ⟨rfl, rfl, last⟩
  · rw [Passthrough.handleLine_stream]
    refine
      { forwards := shows.forwards
        taken_first := shows.taken_first
        started_free := by simp [started_eq]
        shown := ⟨read ++ [.stream kind data], rest, split', ahead', fun other => ?_,
          fun _ response member => ?_, fun code returned => ?_⟩ }
    · rw [shownBy_append, shownBy_stream, String.join_append, ← printed other]
      by_cases here : other = kind
      · subst here
        simp
      · simp [Function.update_of_ne here, Ne.symm here]
    · rcases List.mem_append.mp member with earlier | now
      · exact all_streams response earlier
      · exact ⟨kind, data, List.mem_singleton.mp now⟩
    · have contradictory : session.host.returned = some code := returned
      rw [running] at contradictory
      cases contradictory
  · rw [Passthrough.handleLine_exit]
    refine
      { forwards := shows.forwards
        taken_first := shows.taken_first
        started_free := by simp [started_eq]
        shown := ⟨read ++ [.exit (status.getD (-1))], [], split', ahead', fun other => ?_,
          fun going => ?_, fun code returned => ?_⟩ }
    · rw [shownBy_append, shownBy_exit, List.append_nil]
      exact printed other
    · cases going
    · exact ⟨(Option.some.inj returned).symm, rfl, last⟩

theorem Shows.step {output : StreamKind → List UInt8} {status : Option Int32}
    {before after : StreamedSession} {action : SessionAction}
    (shows : Shows output status before) (stepped : before.step action = some after) :
    Shows output status after := by
  cases action with
  | guest action =>
      obtain ⟨exec, exec_step, rfl⟩ := Option.map_eq_some_iff.mp stepped
      exact shows.guestStep exec_step
  | fill size =>
      simp only [StreamedSession.step] at stepped
      split at stepped
      · cases stepped
      · rename_i enabled
        simp only [not_or, not_not] at enabled
        obtain rfl := Option.some.inj stepped
        exact shows.fill size enabled.2.1
  | scan =>
      simp only [StreamedSession.step] at stepped
      split at stepped
      · cases stepped
      · rename_i enabled
        simp only [not_or, not_not] at enabled
        split at stepped
        · rename_i reader scanned
          obtain rfl := Option.some.inj stepped
          have holds : before.host.reader.Holds Json.newline
              (before.host.reader.started ++ before.host.reader.buffer) [] :=
            ⟨by simp, shows.started_free⟩
          obtain ⟨read, rest, split, ahead, others⟩ := shows.shown
          have next := holds.scan_none scanned
          refine
            { forwards := shows.forwards
              taken_first := shows.taken_first
              started_free := next.started_free
              shown := ⟨read, rest, split, ?_, others⟩ }
          rw [← ahead, next.delivered_eq]
          rfl
        · rename_i line reader scanned
          obtain rfl := Option.some.inj stepped
          exact shows.readLine enabled.1 scanned

/-! ## Every run ends -/

/-- Steps of the host that need no more bytes, at most. -/
def hostRank (session : StreamedSession) : Nat :=
  3 * session.inFlight.length + 2 * session.host.reader.buffer.length

/-- A step of the guest lowers its rank, a step of the host leaves that and lowers its own. -/
theorem rank_step {before after : StreamedSession} {action : SessionAction}
    (stepped : before.step action = some after) :
    Prod.Lex (· < ·) (· < ·) (after.exec.rank, after.hostRank)
      (before.exec.rank, before.hostRank) := by
  cases action with
  | guest action =>
      obtain ⟨exec, exec_step, rfl⟩ := Option.map_eq_some_iff.mp stepped
      exact Prod.Lex.left _ _ (StreamedExec.rank_step exec_step)
  | fill size =>
      simp only [StreamedSession.step] at stepped
      split at stepped
      · cases stepped
      · rename_i enabled
        simp only [not_or, not_not] at enabled
        obtain ⟨-, empty, more⟩ := enabled
        obtain rfl := Option.some.inj stepped
        refine Prod.Lex.right _ ?_
        have some_left : 0 < before.inFlight.length := List.length_pos_iff.mpr more
        rw [hostRank, hostRank, inFlight_fill]
        simp only [StreamedSession.fill, LineReader.fill, empty, List.nil_append, List.length_drop,
          List.length_take, List.length_nil]
        omega
  | scan =>
      simp only [StreamedSession.step] at stepped
      split at stepped
      · cases stepped
      · rename_i enabled
        simp only [not_or, not_not] at enabled
        have shorter := LineReader.length_scan_lt Json.newline enabled.2
        split at stepped
        · rename_i reader scanned
          obtain rfl := Option.some.inj stepped
          rw [scanned] at shorter
          refine Prod.Lex.right _ ?_
          exact Nat.add_lt_add_left (Nat.mul_lt_mul_of_pos_left shorter (by decide)) _
        · rename_i line reader scanned
          obtain rfl := Option.some.inj stepped
          rw [scanned] at shorter
          refine Prod.Lex.right _ ?_
          rw [hostRank, Passthrough.reader_handleLine]
          exact Nat.add_lt_add_left (Nat.mul_lt_mul_of_pos_left shorter (by decide)) _

/-- Until the host has returned, one side can make a step. -/
theorem Shows.exists_step {output : StreamKind → List UInt8} {status : Option Int32}
    {session : StreamedSession} (shows : Shows output status session)
    (going : session.host.returned = none) :
    ∃ action, (session.step action).isSome = true := by
  by_cases buffered : session.host.reader.buffer = []
  · by_cases arriving : session.inFlight = []
    · by_cases last : session.exec.main = .returned
      · exfalso
        obtain ⟨read, rest, split, ahead, -, streams, -⟩ := shows.shown
        rw [buffered, arriving, List.append_nil, List.append_nil] at ahead
        have all_read : rest = [] := by
          by_contra more
          exact shows.started_free (ahead ▸ newline_mem_wireOf more)
        obtain ⟨data, -, sent_eq⟩ := shows.forwards.exit_last
        have exit_read : Guest.GuestResponse.exit (status.getD (-1)) ∈ read := by
          rw [all_read, List.append_nil, sent_eq, if_pos last] at split
          simp [← split]
        obtain ⟨kind, data, contradictory⟩ := streams going _ exit_read
        cases contradictory
      · obtain ⟨action, enabled⟩ := shows.forwards.exists_step last
        exact ⟨.guest action, by simpa [StreamedSession.step] using enabled⟩
    · exact ⟨.fill 0, by simp [StreamedSession.step, going, buffered, arriving]⟩
  · refine ⟨.scan, ?_⟩
    simp only [StreamedSession.step]
    rw [if_neg (by simp [going, buffered])]
    split <;> rfl

/-- What the host has printed when it returns. -/
theorem Shows.printed_eq {texts : StreamKind → String} {status : Option Int32}
    {session : StreamedSession}
    (shows : Shows (fun stream => Utf8.encode (texts stream)) status session) {code : Int32}
    (returned : session.host.returned = some code) (stream : StreamKind) :
    session.host.printed stream = String.ofList (LineText.rewritten (texts stream).toList) := by
  obtain ⟨read, rest, split, -, printed, -, ends⟩ := shows.shown
  obtain ⟨-, rfl, last⟩ := ends code returned
  rw [List.append_nil] at split
  rw [printed, ← split, shows.forwards.shown_eq (by rw [last]; rfl)]
  exact LineText.join_linesAgain_encode (texts stream)

/-- Some run ends with the host's return. -/
theorem exists_returned (output : StreamKind → List UInt8) (status : Option Int32) :
    ∃ actions final code, run step actions (start output status) = some final ∧
      final.host.returned = some code ∧ Shows output status final := by
  have progress (session : StreamedSession)
      (short : ¬(Shows output status session → ∃ code, session.host.returned = some code)) :
      ∃ action next, True ∧ session.step action = some next ∧
        Prod.Lex (· < ·) (· < ·) (next.exec.rank, next.hostRank)
          (session.exec.rank, session.hostRank) := by
    obtain ⟨shows, going⟩ := Classical.not_imp.mp short
    have not_returned : session.host.returned = none := by
      simpa [Option.eq_none_iff_forall_ne_some] using going
    obtain ⟨action, enabled⟩ := shows.exists_step not_returned
    obtain ⟨next, stepped⟩ := Option.isSome_iff_exists.mp enabled
    exact ⟨action, next, trivial, stepped, rank_step stepped⟩
  obtain ⟨actions, final, -, execution, arrived⟩ :=
    exists_run_of_rank (fun session : StreamedSession => (session.exec.rank, session.hostRank))
      progress (start output status)
  have shows : Shows output status final :=
    invariant_of_run (fun shows stepped => shows.step stepped) (shows_start _ _) execution
  obtain ⟨code, returned⟩ := arrived shows
  exact ⟨actions, final, code, execution, returned, shows⟩

/-- Every run of the two handlers ends, and the host returns the child's exit code.  By then it has
printed the child's output of a stream if and only if every line of that is terminated, and by a
newline only. -/
theorem streamed_output_exact_iff (texts : StreamKind → String) (status : Option Int32) :
    (WellFounded fun after before : StreamedSession =>
      ∃ action, before.step action = some after) ∧
    ∀ actions final,
      run step actions (start (fun stream => Utf8.encode (texts stream)) status) = some final →
        (final.host.returned = none → ∃ action, (final.step action).isSome = true) ∧
        ∀ code, final.host.returned = some code →
          code = status.getD (-1) ∧
          ∀ stream, final.host.printed stream = texts stream ↔
            LineText.Unchanged (texts stream).toList := by
  refine ⟨?_, fun actions final execution => ?_⟩
  · refine Subrelation.wf (fun {after before} stepped => ?_)
      (InvImage.wf (fun session : StreamedSession => (session.exec.rank, session.hostRank))
        (WellFounded.prod_lex Nat.lt_wfRel.wf Nat.lt_wfRel.wf))
    obtain ⟨action, stepped⟩ := stepped
    exact rank_step stepped
  · have shows : Shows _ status final :=
      invariant_of_run (fun shows stepped => shows.step stepped) (shows_start _ status) execution
    refine ⟨shows.exists_step, fun code returned => ⟨?_, fun stream => ?_⟩⟩
    · obtain ⟨read, rest, -, -, -, -, ends⟩ := shows.shown
      exact (ends code returned).1
    · rw [shows.printed_eq returned stream, ← LineText.rewritten_eq_iff]
      constructor
      · intro same
        have chars := congrArg String.toList same
        rwa [String.toList_ofList] at chars
      · intro same
        rw [same, String.ofList_toList]

/-- The output of a child that prints one line to each pipe. -/
def greeting : StreamKind → String
  | .stdout => "hello\n"
  | .stderr => "done\n"

theorem greeting_printed :
    ∃ actions final,
      run step actions (start (fun stream => Utf8.encode (greeting stream)) (some 3)) =
        some final ∧
      final.host.returned = some 3 ∧ ∀ stream, final.host.printed stream = greeting stream := by
  obtain ⟨actions, final, code, execution, returned, -⟩ :=
    exists_returned (fun stream => Utf8.encode (greeting stream)) (some 3)
  obtain ⟨code_eq, exact_output⟩ :=
    ((streamed_output_exact_iff greeting (some 3)).2 actions final execution).2 code returned
  refine ⟨actions, final, execution, by rw [returned, code_eq]; rfl, fun stream => ?_⟩
  refine (exact_output stream).mpr ?_
  cases stream <;> exact ⟨Or.inr rfl, by decide⟩

/-- The output of a child that does not end its last line. -/
def prompt : StreamKind → String
  | .stdout => "name? "
  | .stderr => ""

/-- The host ends the line that the child left open. -/
theorem prompt_gets_newline :
    ∃ actions final,
      run step actions (start (fun stream => Utf8.encode (prompt stream)) (some 0)) = some final ∧
      final.host.returned ≠ none ∧ final.host.printed .stdout = "name? \n" ∧
        final.host.printed .stdout ≠ prompt .stdout := by
  obtain ⟨actions, final, code, execution, returned, shows⟩ :=
    exists_returned (fun stream => Utf8.encode (prompt stream)) (some 0)
  have printed : final.host.printed .stdout = "name? \n" := by
    rw [shows.printed_eq returned]
    rfl
  exact ⟨actions, final, execution, by simp [returned], printed, by rw [printed]; decide⟩

end StreamedSession

end Pelagos.Wire
