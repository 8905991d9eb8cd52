import Pelagos.Wire.Handshake

/-!
# The first frame byte

The host sends nothing between its command and the ready line, and the guest sends nothing but lines
before it.  So the guest's buffered reader is empty when it is abandoned, and the host's reader
stands behind the ready line when it reads its first frame, whatever the daemon in between does.
-/

namespace Pelagos.Wire

open Execution Frames Lines Serde

namespace Connection

variable {line : List UInt8} {before after : Connection}

/-- No line will be written towards the host any more. -/
def Settled (connection : Connection) : Prop :=
  connection.guest.phase = .framed ∨ connection.guest.phase = .closed ∨
    connection.guest.phase = .unconnected ∧ connection.daemon = .closed

/-- The daemon has not connected to the guest. -/
def Unconnected (connection : Connection) : Prop :=
  connection.daemon = .readingLine ∨ connection.daemon = .lineRead

/-- The bytes of the frames the host has sent. -/
def hostBytes (connection : Connection) : List UInt8 :=
  connection.host.sentFrames.flatMap Host.sendFrame

/-- The bytes of the frames the guest has sent. -/
def guestBytes (connection : Connection) : List UInt8 :=
  connection.guest.sentFrames.flatMap Guest.sendFrame

/-! ## The invariant -/

/-- The host writes its command, then nothing until it has heard something, then frames. -/
structure HostWrites (line : List UInt8) (connection : Connection) : Prop where
  sent : connection.up.sent =
    (if connection.host.phase = .starting then [] else line) ++ connection.hostBytes
  unsent : connection.host.phase = .starting → connection.host.sentFrames = []
  heard : connection.host.phase = .framed ∨ connection.host.sentFrames ≠ [] →
    connection.down.delivered ≠ []

/-- Lines are written towards the host, the ready line last, and then frames. -/
structure GuestWrites (connection : Connection) : Prop where
  sent : connection.down.sent = connection.lines.flatten ++ connection.guestBytes
  are_lines : ∀ line ∈ connection.lines, IsLine Json.newline line
  ready_last : ∀ line ∈ connection.lines.dropLast, Host.afterLine line ≠ .framed
  ready_settles : (∃ line ∈ connection.lines, Host.afterLine line = .framed) → connection.Settled
  frames_after : connection.guest.phase = .framed ∨ connection.guest.sentFrames ≠ [] →
    ∃ line ∈ connection.lines, Host.afterLine line = .framed
  silent : connection.guest.phase = .unconnected → connection.daemon ≠ .closed →
    connection.lines = [] ∧ connection.guest.sentFrames = []

/-- What the guest's two readers have got of the host's stream. -/
inductive GuestReads (line : List UInt8) (connection : Connection) : Prop
  | unconnected (phase : connection.guest.phase = .unconnected)
      (nothing : connection.up.delivered = []) (fresh : connection.guest.reader = .fresh)
      (unused : connection.guest.received = [])
  | reading (phase : connection.guest.phase = .readingLine) (silent : connection.down.sent = [])
      (unused : connection.guest.received = [])
      (holds : connection.guest.reader.Holds Json.newline connection.up.delivered [])
  | switched (phase : connection.guest.phase = .pulling ∨ connection.guest.phase = .framed)
      (empty : connection.guest.reader.buffer = [])
      (delivered : connection.up.delivered = line ++ connection.guest.received)
  | cutOff (cut : connection.up.CutOff) (connected : connection.guest.phase ≠ .unconnected)
      (fresh : connection.guest.reader = .fresh) (unused : connection.guest.received = [])
  | closed (phase : connection.guest.phase = .closed)

/-- What the host's reader has got of the guest's stream. -/
inductive HostReads (connection : Connection) : Prop
  | starting (phase : connection.host.phase = .starting)
      (nothing : connection.down.delivered = []) (fresh : connection.host.reader = .fresh)
      (unused : connection.host.received = [])
  | awaiting (heard : List (List UInt8)) (phase : connection.host.phase = .awaitingReady)
      (front : heard <+: connection.lines)
      (unready : ∀ line ∈ heard, Host.afterLine line ≠ .framed)
      (holds : connection.host.reader.Holds Json.newline connection.down.delivered heard)
      (unused : connection.host.received = [])
  | switched (phase : connection.host.phase = .framed) (settled : connection.Settled)
      (delivered : connection.down.delivered =
        connection.lines.flatten ++ (connection.host.received ++ connection.host.reader.buffer))
  | cutOff (cut : connection.down.CutOff) (started : connection.host.phase ≠ .starting)
      (fresh : connection.host.reader = .fresh) (unused : connection.host.received = [])
  | exited (phase : connection.host.phase = .exited)

/-- What holds of both writers and of the host's reader. -/
structure Conversation (line : List UInt8) (connection : Connection) : Prop where
  host_writes : connection.HostWrites line
  guest_writes : connection.GuestWrites
  host_reads : connection.HostReads
  unconnected : connection.Unconnected → connection.guest.phase = .unconnected

/-- The invariant of a connection that carries the given command line. -/
structure Invariant (line : List UInt8) (connection : Connection) : Prop
    extends connection.Conversation line where
  guest_reads : connection.GuestReads line

theorem invariant_start (line : List UInt8) : start.Invariant line where
  host_writes := ⟨rfl, fun _ => rfl, by simp [start]⟩
  guest_writes := ⟨rfl, by simp [start], by simp [start], by simp [start], by simp [start],
    fun _ _ => ⟨rfl, rfl⟩⟩
  guest_reads := .unconnected rfl rfl rfl rfl
  host_reads := .starting rfl rfl rfl rfl
  unconnected _ := rfl

/-! ## Steps of the other parties -/

theorem HostWrites.congr (writes : before.HostWrites line) (host : after.host = before.host)
    (sent : after.up.sent = before.up.sent)
    (heard : before.down.delivered ≠ [] → after.down.delivered ≠ []) : after.HostWrites line where
  sent := by rw [sent, writes.sent, hostBytes, hostBytes, host]
  unsent := by
    rw [host]
    exact writes.unsent
  heard := by
    rw [host]
    exact fun sends => heard (writes.heard sends)

theorem GuestWrites.congr (writes : before.GuestWrites)
    (phase : after.guest.phase = before.guest.phase)
    (frames : after.guest.sentFrames = before.guest.sentFrames)
    (lines : after.lines = before.lines) (sent : after.down.sent = before.down.sent)
    (closed : before.daemon = .closed → after.daemon = .closed) : after.GuestWrites where
  sent := by rw [sent, writes.sent, guestBytes, guestBytes, frames, lines]
  are_lines := by
    rw [lines]
    exact writes.are_lines
  ready_last := by
    rw [lines]
    exact writes.ready_last
  ready_settles ready := by
    rw [lines] at ready
    rw [Settled, phase]
    exact (writes.ready_settles ready).imp_right (Or.imp_right (And.imp_right closed))
  frames_after := by
    rw [lines, phase, frames]
    exact writes.frames_after
  silent := by
    rw [lines, phase, frames]
    exact fun unconnected running => writes.silent unconnected fun was => running (closed was)

theorem GuestReads.congr (reads : before.GuestReads line) (guest : after.guest = before.guest)
    (delivered : after.up.delivered = before.up.delivered)
    (cut_off : before.up.CutOff → after.up.CutOff)
    (silent : before.down.sent = [] → after.down.sent = []) : after.GuestReads line := by
  cases reads with
  | unconnected phase nothing fresh unused =>
      rw [← guest] at phase fresh unused
      exact .unconnected phase (delivered.trans nothing) fresh unused
  | reading phase unsent unused holds =>
      rw [← guest] at phase unused holds
      exact .reading phase (silent unsent) unused (delivered ▸ holds)
  | switched phase empty delivered_eq =>
      rw [← guest] at phase empty delivered_eq
      exact .switched phase empty (delivered.trans delivered_eq)
  | cutOff cut connected fresh unused =>
      rw [← guest] at connected fresh unused
      exact .cutOff (cut_off cut) connected fresh unused
  | closed phase => exact .closed (guest ▸ phase)

theorem HostReads.congr (reads : before.HostReads) (host : after.host = before.host)
    (delivered : after.down.delivered = before.down.delivered)
    (front : before.lines <+: after.lines)
    (settled : before.Settled → after.Settled ∧ after.lines = before.lines)
    (cut_off : before.down.CutOff → after.down.CutOff) : after.HostReads := by
  cases reads with
  | starting phase nothing fresh unused =>
      rw [← host] at phase fresh unused
      exact .starting phase (delivered.trans nothing) fresh unused
  | awaiting heard phase is_front unready holds unused =>
      rw [← host] at phase holds unused
      exact .awaiting heard phase (is_front.trans front) unready (delivered ▸ holds) unused
  | switched phase was_settled delivered_eq =>
      obtain ⟨still, lines⟩ := settled was_settled
      rw [← host, ← lines] at delivered_eq
      exact .switched (host ▸ phase) still (delivered.trans delivered_eq)
  | cutOff cut started fresh unused =>
      rw [← host] at started fresh unused
      exact .cutOff (cut_off cut) started fresh unused
  | exited phase => exact .exited (host ▸ phase)

/-- The guest has not read anything before it is connected. -/
theorem GuestReads.of_unconnected (reads : before.GuestReads line)
    (phase : before.guest.phase = .unconnected) :
    before.up.delivered = [] ∧ before.guest.reader = .fresh ∧ before.guest.received = [] := by
  cases reads with
  | unconnected _ nothing fresh unused => exact ⟨nothing, fresh, unused⟩
  | reading reading => simp [reading] at phase
  | switched switched => simp [phase] at switched
  | cutOff _ connected => exact absurd phase connected
  | closed closed => simp [closed] at phase

/-- A guest that reads lines reads the first one, or its stream was cut off in the command line. -/
theorem GuestReads.of_readingLine (reads : before.GuestReads line)
    (phase : before.guest.phase = .readingLine) :
    (before.down.sent = [] ∧ before.guest.received = [] ∧
      before.guest.reader.Holds Json.newline before.up.delivered []) ∨
    (before.up.CutOff ∧ before.guest.reader = .fresh ∧ before.guest.received = []) := by
  cases reads with
  | unconnected unconnected => simp [unconnected] at phase
  | reading _ silent unused holds => exact .inl ⟨silent, unused, holds⟩
  | switched switched => simp [phase] at switched
  | cutOff cut _ fresh unused => exact .inr ⟨cut, fresh, unused⟩
  | closed closed => simp [closed] at phase

/-- A guest that has switched has read the command line, or its stream was cut off in it. -/
theorem GuestReads.of_switched (reads : before.GuestReads line)
    (phase : before.guest.phase = .pulling ∨ before.guest.phase = .framed) :
    (before.guest.reader.buffer = [] ∧ before.up.delivered = line ++ before.guest.received) ∨
    (before.up.CutOff ∧ before.guest.reader = .fresh ∧ before.guest.received = []) := by
  cases reads with
  | unconnected unconnected => simp [unconnected] at phase
  | reading reading => simp [reading] at phase
  | switched _ empty delivered => exact .inl ⟨empty, delivered⟩
  | cutOff cut _ fresh unused => exact .inr ⟨cut, fresh, unused⟩
  | closed closed => simp [closed] at phase

/-- Another command is only handled when the command line was cut off. -/
theorem GuestReads.of_serving (reads : before.GuestReads line)
    (phase : before.guest.phase = .serving) :
    before.up.CutOff ∧ before.guest.reader = .fresh ∧ before.guest.received = [] := by
  cases reads with
  | unconnected unconnected => simp [unconnected] at phase
  | reading reading => simp [reading] at phase
  | switched switched => simp [phase] at switched
  | cutOff cut _ fresh unused => exact ⟨cut, fresh, unused⟩
  | closed closed => simp [closed] at phase

/-- A waiting host has heard some lines, none of them ready, or its stream was cut off in one. -/
theorem HostReads.of_awaiting (reads : before.HostReads)
    (phase : before.host.phase = .awaitingReady) :
    (∃ heard, heard <+: before.lines ∧ (∀ line ∈ heard, Host.afterLine line ≠ .framed) ∧
      before.host.reader.Holds Json.newline before.down.delivered heard ∧
      before.host.received = []) ∨
    (before.down.CutOff ∧ before.host.reader = .fresh ∧ before.host.received = []) := by
  cases reads with
  | starting starting => simp [starting] at phase
  | awaiting heard _ front unready holds unused => exact .inl ⟨heard, front, unready, holds, unused⟩
  | switched framed => simp [framed] at phase
  | cutOff cut _ fresh unused => exact .inr ⟨cut, fresh, unused⟩
  | exited exited => simp [exited] at phase

/-- A host that has switched stands behind all lines, or its stream was cut off in one. -/
theorem HostReads.of_framed (reads : before.HostReads) (phase : before.host.phase = .framed) :
    (before.Settled ∧ before.down.delivered =
      before.lines.flatten ++ (before.host.received ++ before.host.reader.buffer)) ∨
    (before.down.CutOff ∧ before.host.reader = .fresh ∧ before.host.received = []) := by
  cases reads with
  | starting starting => simp [starting] at phase
  | awaiting _ awaiting => simp [awaiting] at phase
  | switched _ settled delivered => exact .inl ⟨settled, delivered⟩
  | cutOff cut _ fresh unused => exact .inr ⟨cut, fresh, unused⟩
  | exited exited => simp [exited] at phase

/-! ## What the readers get -/

theorem HostWrites.quiet (writes : before.HostWrites line) (silent : before.down.sent = []) :
    before.host.sentFrames = [] := by
  by_contra sends
  exact writes.heard (.inr sends) (RelayedStream.delivered_of_unsent silent)

/-- Before anything is written towards the host, its stream is the command line alone. -/
theorem HostWrites.command_line (writes : before.HostWrites line)
    (silent : before.down.sent = []) (arrived : before.up.delivered ≠ []) :
    before.up.sent = line := by
  have sent := writes.sent
  rw [hostBytes, writes.quiet silent, List.flatMap_nil, List.append_nil] at sent
  split at sent
  · exact absurd (RelayedStream.delivered_of_unsent sent) arrived
  · exact sent

/-- The first line the guest completes is the command line, and nothing is left in its buffer. -/
theorem HostWrites.scan_line {reader : LineReader UInt8} {scanned : List UInt8}
    (writes : before.HostWrites line) (is_line : IsLine Json.newline line)
    (silent : before.down.sent = [])
    (holds : before.guest.reader.Holds Json.newline before.up.delivered [])
    (completed : before.guest.reader.scan Json.newline = (some scanned, reader)) :
    scanned = line ∧ reader.buffer = [] ∧ before.up.delivered = line := by
  obtain ⟨scanned_line, started, later⟩ := holds.scan_some completed
  have delivered : before.up.delivered = scanned ++ reader.buffer := by
    rw [later.delivered_eq, started]
    simp
  have arrived : before.up.delivered ≠ [] := by
    rw [delivered]
    simp [scanned_line.ne_nil]
  have stream : before.up.delivered ++ (before.up.onTheWay ++ before.up.lost) =
      ([] : List (List UInt8)).flatten ++ (line ++ []) := by
    rw [before.up.delivered_onTheWay_lost, writes.command_line silent arrived]
    simp
  obtain ⟨rfl, nothing⟩ := holds.line_eq completed is_line stream
  have empty := (List.append_eq_nil_iff.mp nothing).1
  exact ⟨rfl, empty, by rw [delivered, empty, List.append_nil]⟩

/-- The guest's stream ends in the middle of the command line. -/
theorem HostWrites.cut_line (writes : before.HostWrites line) (is_line : IsLine Json.newline line)
    (silent : before.down.sent = [])
    (holds : before.guest.reader.Holds Json.newline before.up.delivered [])
    (empty : before.guest.reader.buffer = []) (started : before.guest.reader.started ≠ [])
    (drained : before.up.Drained) : before.up.CutOff := by
  refine ⟨drained, fun kept => ?_⟩
  have delivered : before.up.delivered = before.guest.reader.started := by
    rw [holds.delivered_eq, empty]
    simp
  have arrived : before.up.delivered ≠ [] := by rwa [delivered]
  have whole := before.up.delivered_onTheWay_lost
  rw [drained.onTheWay, kept, writes.command_line silent arrived, delivered] at whole
  simp only [List.append_nil] at whole
  exact holds.started_free (whole ▸ is_line.stop_mem)

/-- Without a ready line there are no frames. -/
theorem GuestWrites.no_frames (writes : before.GuestWrites)
    (unready : ∀ line ∈ before.lines, Host.afterLine line ≠ .framed) :
    before.guest.sentFrames = [] := by
  by_contra sends
  obtain ⟨line, member, ready⟩ := writes.frames_after (.inr sends)
  exact unready line member ready

/-- What the host has not got of its stream after the lines it has heard. -/
theorem GuestWrites.rest_eq (writes : before.GuestWrites) {heard unheard : List (List UInt8)}
    (lines : heard ++ unheard = before.lines) :
    before.down.delivered ++ (before.down.onTheWay ++ before.down.lost) =
      heard.flatten ++ (unheard.flatten ++ before.guestBytes) := by
  rw [before.down.delivered_onTheWay_lost, writes.sent, ← lines, List.flatten_append,
    List.append_assoc]

/-- Each line the host completes is the next one written towards it. -/
theorem GuestWrites.scan_line (writes : before.GuestWrites) {heard : List (List UInt8)}
    (front : heard <+: before.lines) (unready : ∀ line ∈ heard, Host.afterLine line ≠ .framed)
    (holds : before.host.reader.Holds Json.newline before.down.delivered heard)
    {scanned : List UInt8} {reader : LineReader UInt8}
    (completed : before.host.reader.scan Json.newline = (some scanned, reader)) :
    heard ++ [scanned] <+: before.lines := by
  obtain ⟨unheard, lines⟩ := front
  have stream := writes.rest_eq lines
  cases unheard with
  | nil =>
      rw [List.append_nil] at lines
      obtain ⟨scanned_line, -, later⟩ := holds.scan_some completed
      rw [guestBytes, writes.no_frames (lines ▸ unready), later.delivered_eq] at stream
      simp [scanned_line.ne_nil] at stream
  | cons sent unheard =>
      have sent_line : IsLine Json.newline sent := writes.are_lines sent (by simp [← lines])
      rw [List.flatten_cons, List.append_assoc] at stream
      obtain ⟨rfl, -⟩ := holds.line_eq completed sent_line stream
      exact ⟨unheard, by rw [← lines, List.append_assoc, List.singleton_append]⟩

/-- A ready line is the last line. -/
theorem GuestWrites.ready_eq (writes : before.GuestWrites) {heard : List (List UInt8)}
    {ready : List UInt8} (front : heard ++ [ready] <+: before.lines)
    (is_ready : Host.afterLine ready = .framed) : before.lines = heard ++ [ready] := by
  obtain ⟨later, lines⟩ := front
  cases later with
  | nil => rw [← lines, List.append_nil]
  | cons next later =>
      refine absurd is_ready (writes.ready_last ready ?_)
      rw [← lines, List.dropLast_append_of_ne_nil (List.cons_ne_nil next later)]
      simp

/-- The host's stream ends in the middle of a line. -/
theorem GuestWrites.cut_line (writes : before.GuestWrites) {heard : List (List UInt8)}
    (front : heard <+: before.lines) (unready : ∀ line ∈ heard, Host.afterLine line ≠ .framed)
    (holds : before.host.reader.Holds Json.newline before.down.delivered heard)
    (empty : before.host.reader.buffer = []) (started : before.host.reader.started ≠ [])
    (drained : before.down.Drained) : before.down.CutOff := by
  refine ⟨drained, fun kept => ?_⟩
  obtain ⟨unheard, lines⟩ := front
  have stream := writes.rest_eq lines
  rw [drained.onTheWay, kept, holds.delivered_eq, empty] at stream
  simp only [List.append_nil, List.append_cancel_left_eq] at stream
  cases unheard with
  | nil =>
      rw [List.append_nil] at lines
      rw [guestBytes, writes.no_frames (lines ▸ unready)] at stream
      exact started (by simpa using stream)
  | cons sent unheard =>
      have sent_line : IsLine Json.newline sent := writes.are_lines sent (by simp [← lines])
      refine holds.started_free ?_
      rw [stream]
      simp [sent_line.stop_mem]

/-! ## Steps of the host -/

theorem afterLine_ne_starting (line : List UInt8) : Host.afterLine line ≠ .starting := by
  simp only [Host.afterLine]
  split
  · simp
  · split
    · simp
    · split <;> simp

/-- The host takes a line for what it says. -/
theorem HostReads.after_line (writes : before.GuestWrites) {heard : List (List UInt8)}
    {scanned : List UInt8} {reader : LineReader UInt8}
    (front : heard ++ [scanned] <+: before.lines)
    (unready : ∀ line ∈ heard, Host.afterLine line ≠ .framed)
    (holds : reader.Holds Json.newline before.down.delivered (heard ++ [scanned]))
    (started : reader.started = []) (unused : before.host.received = []) :
    HostReads { before with
      host := { before.host with phase := Host.afterLine scanned, reader } } := by
  cases verdict : Host.afterLine scanned with
  | starting => exact absurd verdict (afterLine_ne_starting scanned)
  | framed =>
      have lines := writes.ready_eq front verdict
      have settled := writes.ready_settles ⟨scanned, by simp [lines], verdict⟩
      refine .switched rfl settled ?_
      simp [holds.delivered_eq, started, unused, lines]
  | awaitingReady =>
      refine .awaiting (heard ++ [scanned]) rfl front ?_ holds unused
      intro line member
      rcases List.mem_append.mp member with earlier | last
      · exact unready line earlier
      · obtain rfl := List.mem_singleton.mp last
        simp [verdict]
  | exited => exact .exited rfl

/-- The host has its turn: the guest, the daemon and what is written towards the host stay. -/
theorem Invariant.host_turn (invariant : before.Invariant line)
    (guest : after.guest = before.guest) (daemon : after.daemon = before.daemon)
    (lines : after.lines = before.lines) (down_sent : after.down.sent = before.down.sent)
    (up_delivered : after.up.delivered = before.up.delivered)
    (up_cut : before.up.CutOff → after.up.CutOff) (writes : after.HostWrites line)
    (reads : after.HostReads) : after.Invariant line where
  host_writes := writes
  guest_writes := invariant.guest_writes.congr (congrArg Guest.Handler.phase guest)
    (congrArg Guest.Handler.sentFrames guest) lines down_sent fun closed => daemon.trans closed
  guest_reads := invariant.guest_reads.congr guest up_delivered up_cut down_sent.trans
  host_reads := reads
  unconnected := by
    rw [Unconnected, daemon, guest]
    exact invariant.unconnected

section HostSteps

variable {order : MapOrder String String} {cmd : Host.GuestCommand}

theorem Invariant.host_sendCommand (invariant : before.Invariant (Host.commandLine order cmd))
    (stepped : before.hostStep order cmd .sendCommand = some after) :
    after.Invariant (Host.commandLine order cmd) := by
  simp only [hostStep, Option.ite_none_right_eq_some, Option.some.injEq] at stepped
  obtain ⟨phase, rfl⟩ := stepped
  have unsent := invariant.host_writes.unsent phase
  have sent := invariant.host_writes.sent
  rw [hostBytes, unsent, if_pos phase] at sent
  refine invariant.host_turn rfl rfl rfl rfl (by simp) (fun cut => cut.send _)
    ⟨?_, by simp, by simp [unsent]⟩ ?_
  · simp [sent, hostBytes, unsent]
  · cases invariant.host_reads with
    | starting _ nothing fresh unused =>
        refine .awaiting [] rfl List.nil_prefix (by simp) ?_ unused
        rw [fresh, nothing]
        exact LineReader.holds_fresh
    | awaiting _ awaiting => simp [awaiting] at phase
    | switched framed => simp [framed] at phase
    | cutOff cut started fresh unused => exact .cutOff cut (by simp) fresh unused
    | exited exited => simp [exited] at phase

theorem Invariant.host_fill {size : Nat}
    (invariant : before.Invariant (Host.commandLine order cmd))
    (stepped : before.hostStep order cmd (.fill size) = some after) :
    after.Invariant (Host.commandLine order cmd) := by
  simp only [hostStep, Option.ite_none_right_eq_some, Option.some.injEq] at stepped
  obtain ⟨⟨phase, empty⟩, rfl⟩ := stepped
  have writes := invariant.host_writes
  refine invariant.host_turn rfl rfl rfl rfl rfl id ⟨writes.sent, writes.unsent, fun sends => ?_⟩ ?_
  · simp [writes.heard sends]
  · cases invariant.host_reads with
    | starting starting => simp [starting] at phase
    | awaiting heard awaiting front unready holds unused =>
        exact .awaiting heard awaiting front unready (holds.fill _) unused
    | switched framed settled delivered =>
        refine .switched framed settled ?_
        simp [delivered, LineReader.fill, List.append_assoc]
    | cutOff cut started fresh unused =>
        refine .cutOff (cut.deliver size) started ?_ unused
        simp [cut.1.2, fresh, LineReader.fill, LineReader.fresh]
    | exited exited => simp [exited] at phase

theorem Invariant.host_scan (invariant : before.Invariant (Host.commandLine order cmd))
    (stepped : before.hostStep order cmd .scan = some after) :
    after.Invariant (Host.commandLine order cmd) := by
  simp only [hostStep, Option.ite_none_right_eq_some] at stepped
  obtain ⟨phase, stepped⟩ := stepped
  have writes := invariant.host_writes
  have sent := writes.sent
  rw [phase, if_neg (by simp)] at sent
  split at stepped
  · rename_i reader scanned
    obtain rfl := Option.some.inj stepped
    refine invariant.host_turn rfl rfl rfl rfl rfl id ⟨writes.sent, writes.unsent, writes.heard⟩ ?_
    rcases invariant.host_reads.of_awaiting phase with
      ⟨heard, front, unready, holds, unused⟩ | ⟨cut, fresh, unused⟩
    · exact .awaiting heard phase front unready (holds.scan_none scanned) unused
    · refine .cutOff cut (by simp [phase]) ?_ unused
      rw [fresh] at scanned
      exact (Prod.mk.inj scanned).2.symm
  · rename_i scanned reader completed
    obtain rfl := Option.some.inj stepped
    rcases invariant.host_reads.of_awaiting phase with
      ⟨heard, front, unready, holds, unused⟩ | ⟨cut, fresh, unused⟩
    · have next := invariant.guest_writes.scan_line front unready holds completed
      obtain ⟨scanned_line, started, later⟩ := holds.scan_some completed
      refine invariant.host_turn rfl rfl rfl rfl rfl id ⟨?_, fun starts => ?_, fun _ => ?_⟩
        (.after_line invariant.guest_writes next unready later started unused)
      · rw [if_neg (afterLine_ne_starting scanned)]
        exact sent
      · exact absurd starts (afterLine_ne_starting scanned)
      · simp [later.delivered_eq, scanned_line.ne_nil]
    · rw [fresh] at completed
      exact nomatch (Prod.mk.inj completed).1

theorem Invariant.host_lineEnds (invariant : before.Invariant (Host.commandLine order cmd))
    (stepped : before.hostStep order cmd .lineEnds = some after) :
    after.Invariant (Host.commandLine order cmd) := by
  simp only [hostStep, Option.ite_none_right_eq_some, Option.some.injEq] at stepped
  obtain ⟨⟨phase, empty, drained⟩, rfl⟩ := stepped
  have writes := invariant.host_writes
  have sent := writes.sent
  rw [phase, if_neg (by simp)] at sent
  have unstarted (line : List UInt8) :
      (if before.host.reader.started = [] then Host.Phase.exited else Host.afterLine line) ≠
        .starting := by
    split
    · simp
    · exact afterLine_ne_starting line
  refine invariant.host_turn rfl rfl rfl rfl rfl id
    ⟨?_, fun starts => absurd starts (unstarted _), fun sends => ?_⟩ ?_
  · rw [if_neg (unstarted _)]
    exact sent
  · rcases invariant.host_reads.of_awaiting phase with ⟨heard, -, -, holds, -⟩ | ⟨-, fresh, -⟩
    · by_cases nothing : before.host.reader.started = []
      · refine writes.heard (.inr ?_)
        simpa [nothing] using sends
      · simp [holds.delivered_eq, nothing]
    · refine writes.heard (.inr ?_)
      simpa [fresh, LineReader.fresh] using sends
  · rcases invariant.host_reads.of_awaiting phase with
      ⟨heard, front, unready, holds, unused⟩ | ⟨cut, -, unused⟩
    · by_cases nothing : before.host.reader.started = []
      · exact .exited (by simp [nothing])
      · have cut := invariant.guest_writes.cut_line front unready holds empty nothing drained
        exact .cutOff cut (unstarted _) rfl unused
    · exact .cutOff cut (unstarted _) rfl unused

theorem Invariant.host_readFrames {size : Nat}
    (invariant : before.Invariant (Host.commandLine order cmd))
    (stepped : before.hostStep order cmd (.readFrames size) = some after) :
    after.Invariant (Host.commandLine order cmd) := by
  simp only [hostStep, Option.ite_none_right_eq_some, Option.some.injEq] at stepped
  obtain ⟨phase, rfl⟩ := stepped
  have writes := invariant.host_writes
  refine invariant.host_turn rfl rfl rfl rfl rfl id ⟨writes.sent, writes.unsent, writes.heard⟩ ?_
  rcases invariant.host_reads.of_framed phase with ⟨settled, delivered⟩ | ⟨cut, fresh, unused⟩
  · refine .switched phase settled ?_
    simp [delivered, List.append_assoc]
  · refine .cutOff cut (by simp [phase]) ?_ ?_
    · simp [fresh, LineReader.fresh]
    · simp [fresh, LineReader.fresh, unused]

theorem Invariant.host_readFramesDirect {size : Nat}
    (invariant : before.Invariant (Host.commandLine order cmd))
    (stepped : before.hostStep order cmd (.readFramesDirect size) = some after) :
    after.Invariant (Host.commandLine order cmd) := by
  simp only [hostStep, Option.ite_none_right_eq_some, Option.some.injEq] at stepped
  obtain ⟨⟨phase, empty⟩, rfl⟩ := stepped
  have writes := invariant.host_writes
  refine invariant.host_turn rfl rfl rfl rfl rfl id ⟨writes.sent, writes.unsent, fun sends => ?_⟩ ?_
  · simp [writes.heard sends]
  · rcases invariant.host_reads.of_framed phase with ⟨settled, delivered⟩ | ⟨cut, fresh, unused⟩
    · refine .switched phase settled ?_
      simp [delivered, empty, List.append_assoc]
    · exact .cutOff (cut.deliver size) (by simp [phase]) fresh (by simp [cut.1.2, unused])

theorem Invariant.host_sendFrame {frame : Frame}
    (invariant : before.Invariant (Host.commandLine order cmd))
    (stepped : before.hostStep order cmd (.sendFrame frame) = some after) :
    after.Invariant (Host.commandLine order cmd) := by
  simp only [hostStep, Option.ite_none_right_eq_some, Option.some.injEq] at stepped
  obtain ⟨phase, rfl⟩ := stepped
  have writes := invariant.host_writes
  refine invariant.host_turn rfl rfl rfl rfl (by simp) (fun cut => cut.send _)
    ⟨?_, by simp [phase], fun _ => writes.heard (.inl phase)⟩ ?_
  · simp [writes.sent, hostBytes, List.append_assoc]
  · rcases invariant.host_reads.of_framed phase with ⟨settled, delivered⟩ | ⟨cut, fresh, unused⟩
    · exact .switched phase settled delivered
    · exact .cutOff cut (by simp [phase]) fresh unused

theorem Invariant.host_exit (invariant : before.Invariant (Host.commandLine order cmd))
    (stepped : before.hostStep order cmd .exit = some after) :
    after.Invariant (Host.commandLine order cmd) := by
  simp only [hostStep] at stepped
  split at stepped
  · cases stepped
  · rename_i phase
    obtain rfl := Option.some.inj stepped
    have writes := invariant.host_writes
    have sent := writes.sent
    rw [if_neg phase] at sent
    refine invariant.host_turn rfl rfl rfl rfl rfl id ⟨?_, by simp, fun sends => ?_⟩ (.exited rfl)
    · rw [if_neg nofun]
      exact sent
    · exact writes.heard (.inr (by simpa using sends))

theorem Invariant.hostStep {action : HostAction}
    (invariant : before.Invariant (Host.commandLine order cmd))
    (stepped : before.hostStep order cmd action = some after) :
    after.Invariant (Host.commandLine order cmd) := by
  cases action with
  | sendCommand => exact invariant.host_sendCommand stepped
  | fill size => exact invariant.host_fill stepped
  | scan => exact invariant.host_scan stepped
  | lineEnds => exact invariant.host_lineEnds stepped
  | readFrames size => exact invariant.host_readFrames stepped
  | readFramesDirect size => exact invariant.host_readFramesDirect stepped
  | sendFrame frame => exact invariant.host_sendFrame stepped
  | exit => exact invariant.host_exit stepped

end HostSteps

/-! ## Steps of the daemon -/

/-- A daemon that still runs does not change whether all lines are written. -/
theorem Settled.of_running (settled : before.Settled) (running : before.daemon ≠ .closed)
    (guest : after.guest = before.guest) : after.Settled := by
  rw [Settled, guest]
  exact settled.imp_right (Or.imp_right fun gone => absurd gone.2 running)

/-- The daemon moves bytes, loses bytes or hangs up. -/
theorem Invariant.relayed (invariant : before.Invariant line) (running : before.daemon ≠ .closed)
    (host : after.host = before.host) (guest : after.guest = before.guest)
    (lines : after.lines = before.lines)
    (up_sent : after.up.sent = before.up.sent) (down_sent : after.down.sent = before.down.sent)
    (up_delivered : after.up.delivered = before.up.delivered)
    (down_delivered : after.down.delivered = before.down.delivered)
    (up_cut : before.up.CutOff → after.up.CutOff)
    (down_cut : before.down.CutOff → after.down.CutOff)
    (unconnected : after.Unconnected → before.Unconnected) : after.Invariant line where
  host_writes := invariant.host_writes.congr host up_sent fun heard => down_delivered ▸ heard
  guest_writes := invariant.guest_writes.congr (congrArg Guest.Handler.phase guest)
    (congrArg Guest.Handler.sentFrames guest) lines down_sent fun closed => absurd closed running
  guest_reads := invariant.guest_reads.congr guest up_delivered up_cut fun silent =>
    down_sent.trans silent
  host_reads := invariant.host_reads.congr host down_delivered (lines ▸ List.prefix_rfl)
    (fun settled => ⟨settled.of_running running guest, lines⟩) down_cut
  unconnected still := guest ▸ invariant.unconnected (unconnected still)

theorem Invariant.hangUp (invariant : before.Invariant line) (running : before.daemon ≠ .closed) :
    before.hangUp.Invariant line :=
  invariant.relayed running rfl rfl rfl rfl rfl rfl rfl RelayedStream.CutOff.finish
    RelayedStream.CutOff.finish (by simp [Unconnected, Connection.hangUp])

@[simp]
theorem writeBack_down_sent (connection : Connection) (text : String) :
    (connection.writeBack text).down.sent = connection.down.sent ++ Utf8.encode text := by
  simp [writeBack, hangUp, answer]

@[simp]
theorem writeBack_down_delivered (connection : Connection) (text : String) :
    (connection.writeBack text).down.delivered = connection.down.delivered := by
  simp [writeBack, hangUp, answer]

@[simp]
theorem writeBack_lines (connection : Connection) (text : String) :
    (connection.writeBack text).lines = connection.lines ++ [Utf8.encode text] := rfl

@[simp]
theorem writeBack_guest (connection : Connection) (text : String) :
    (connection.writeBack text).guest = connection.guest := rfl

/-- The daemon answers a client it has not connected to the guest. -/
theorem Invariant.writeBack (invariant : before.Invariant line)
    (daemon : before.daemon = .lineRead) {text : String}
    (is_line : IsLine Json.newline (Utf8.encode text)) :
    (before.writeBack text).Invariant line := by
  have writes := invariant.guest_writes
  have unconnected := invariant.unconnected (.inr daemon)
  obtain ⟨no_lines, no_frames⟩ := writes.silent unconnected (by simp [daemon])
  have unsettled : ¬before.Settled := by simp [Settled, unconnected, daemon]
  refine ⟨⟨invariant.host_writes.congr rfl rfl (by simp),
    ⟨?_, ?_, ?_, fun _ => .inr (.inr ⟨unconnected, rfl⟩), ?_, ?_⟩, ?_, fun _ => unconnected⟩, ?_⟩
  · simp [writes.sent, no_lines, no_frames, guestBytes]
  · simpa [no_lines] using is_line
  · simp [no_lines]
  · simp [unconnected, no_frames]
  · exact fun _ running => absurd rfl running
  · refine invariant.host_reads.congr rfl (by simp) (List.prefix_append _ _)
      (fun settled => absurd settled unsettled) fun cut => ?_
    exact ((cut.send _).flush).finish
  · obtain ⟨nothing, fresh, unused⟩ := invariant.guest_reads.of_unconnected unconnected
    exact .unconnected unconnected nothing fresh unused

/-- The guest accepts the connection. -/
theorem Invariant.connect (invariant : before.Invariant line)
    (daemon : before.daemon = .lineRead) :
    Invariant line { before with
      daemon := .replaying
      guest := { before.guest with phase := .readingLine } } := by
  have writes := invariant.guest_writes
  have unconnected := invariant.unconnected (.inr daemon)
  obtain ⟨no_lines, no_frames⟩ := writes.silent unconnected (by simp [daemon])
  have unsettled : ¬before.Settled := by simp [Settled, unconnected, daemon]
  refine ⟨⟨invariant.host_writes.congr rfl rfl id,
    ⟨writes.sent, writes.are_lines, writes.ready_last, ?_, ?_, by simp⟩,
    invariant.host_reads.congr rfl rfl List.prefix_rfl (fun settled => absurd settled unsettled) id,
    by simp [Unconnected]⟩, ?_⟩
  · simp [no_lines]
  · simp [no_frames]
  · obtain ⟨nothing, fresh, unused⟩ := invariant.guest_reads.of_unconnected unconnected
    refine .reading rfl ?_ unused ?_
    · simp [writes.sent, no_lines, guestBytes, no_frames]
    · rw [nothing]
      exact fresh ▸ LineReader.holds_fresh

/-- A thread of the proxy moves or drops bytes. -/
theorem Invariant.modify (invariant : before.Invariant line) (running : before.daemon ≠ .closed)
    (direction : Direction) {change : RelayedStream UInt8 → RelayedStream UInt8}
    (sent : ∀ stream, (change stream).sent = stream.sent)
    (delivered : ∀ stream, (change stream).delivered = stream.delivered)
    (cut : ∀ stream, stream.CutOff → (change stream).CutOff) :
    (before.modify direction change).Invariant line := by
  cases direction with
  | up => exact invariant.relayed running rfl rfl rfl (sent _) rfl (delivered _) rfl (cut _) id id
  | down => exact invariant.relayed running rfl rfl rfl rfl (sent _) rfl (delivered _) id (cut _) id

theorem Invariant.daemonStep {action : DaemonAction} (invariant : before.Invariant line)
    (stepped : before.daemonStep action = some after) : after.Invariant line := by
  cases action with
  | readByte =>
      simp only [Connection.daemonStep, Option.ite_none_right_eq_some] at stepped
      obtain ⟨daemon, stepped⟩ := stepped
      have running : before.daemon ≠ .closed := by simp [daemon]
      have read : Invariant line { before with up := before.up.takeIn 1 } :=
        invariant.relayed running rfl rfl rfl rfl rfl rfl rfl (fun cut => cut.takeIn 1) id id
      split at stepped
      · cases stepped
      · split at stepped
        · obtain rfl := Option.some.inj stepped
          exact read.relayed running rfl rfl rfl rfl rfl rfl rfl id id fun _ => .inl daemon
        · split at stepped
          · obtain rfl := Option.some.inj stepped
            exact read.hangUp running
          · obtain rfl := Option.some.inj stepped
            exact read
  | handleDaemonCmd response =>
      simp only [Connection.daemonStep, Option.ite_none_right_eq_some, Option.some.injEq] at stepped
      obtain ⟨⟨daemon, -⟩, rfl⟩ := stepped
      exact invariant.writeBack daemon (isLine_daemonResponse response)
  | connect =>
      simp only [Connection.daemonStep, Option.ite_none_right_eq_some, Option.some.injEq] at stepped
      obtain ⟨⟨daemon, -⟩, rfl⟩ := stepped
      exact invariant.connect daemon
  | connectFails message =>
      simp only [Connection.daemonStep, Option.ite_none_right_eq_some, Option.some.injEq] at stepped
      obtain ⟨⟨daemon, -⟩, rfl⟩ := stepped
      exact invariant.writeBack daemon (isLine_connectFailed message)
  | replay size =>
      simp only [Connection.daemonStep, Option.ite_none_right_eq_some, Option.some.injEq] at stepped
      obtain ⟨daemon, rfl⟩ := stepped
      refine invariant.relayed (by simp [daemon]) rfl rfl rfl rfl rfl rfl rfl
        (fun cut => cut.passOn size) id ?_
      simp only [Unconnected]
      split <;> simp
  | hangUp =>
      simp only [Connection.daemonStep] at stepped
      split at stepped
      · cases stepped
      · rename_i running
        obtain rfl := Option.some.inj stepped
        exact invariant.hangUp running
  | copyRead direction size =>
      simp only [Connection.daemonStep, Option.ite_none_right_eq_some, Option.some.injEq] at stepped
      obtain ⟨daemon, rfl⟩ := stepped
      exact invariant.modify (by simp [daemon]) direction (fun _ => rfl) (fun _ => rfl)
        fun _ cut => cut.takeIn size
  | copyWrite direction size =>
      simp only [Connection.daemonStep, Option.ite_none_right_eq_some, Option.some.injEq] at stepped
      obtain ⟨daemon, rfl⟩ := stepped
      exact invariant.modify (by simp [daemon]) direction (fun _ => rfl) (fun _ => rfl)
        fun _ cut => cut.passOn size
  | copyEnds direction =>
      simp only [Connection.daemonStep, Option.ite_none_right_eq_some, Option.some.injEq] at stepped
      obtain ⟨daemon, rfl⟩ := stepped
      exact invariant.modify (by simp [daemon]) direction (fun _ => rfl) (fun _ => rfl)
        fun _ cut => cut.finish

/-! ## Steps of the guest -/

theorem settled_of_ready (writes : before.GuestWrites) (unsettled : ¬before.Settled) :
    ∀ line ∈ before.lines, Host.afterLine line ≠ .framed :=
  fun line member ready => unsettled (writes.ready_settles ⟨line, member, ready⟩)

/-- The guest goes on to a phase in which it sends no frames. -/
theorem Conversation.enter (conversation : before.Conversation line) {phase : Guest.Phase}
    (connected : before.guest.phase ≠ .unconnected) (unframed : phase ≠ .framed)
    (goes_on : phase ≠ .unconnected) (settles : before.Settled → phase = .closed)
    (reads : (before.enter phase).GuestReads line) : (before.enter phase).Invariant line where
  host_writes := conversation.host_writes.congr rfl rfl id
  guest_writes := by
    have writes := conversation.guest_writes
    refine ⟨writes.sent, writes.are_lines, writes.ready_last, fun ready => ?_, fun sends => ?_,
      fun unconnected => absurd unconnected goes_on⟩
    · exact .inr (.inl (settles (writes.ready_settles ready)))
    · exact writes.frames_after (.inr (sends.resolve_left unframed))
  guest_reads := reads
  host_reads := conversation.host_reads.congr rfl rfl List.prefix_rfl
    (fun settled => ⟨.inr (.inl (settles settled)), rfl⟩) id
  unconnected still := absurd (conversation.unconnected still) connected

/-- The guest answers with a line and goes on; it sends frames exactly after the ready line. -/
theorem Conversation.answer (conversation : before.Conversation line)
    {response : Guest.GuestResponse} {phase : Guest.Phase}
    (connected : before.guest.phase ≠ .unconnected)
    (unsettled : ¬before.Settled) (goes_on : phase ≠ .unconnected)
    (frames_iff : response = .ready true ↔ phase = .framed)
    (reads : ((before.answer (Guest.sendResponse response)).enter phase).GuestReads line) :
    ((before.answer (Guest.sendResponse response)).enter phase).Invariant line where
  host_writes := conversation.host_writes.congr rfl rfl
    (by simp [Connection.answer, Connection.enter])
  guest_writes := by
    have writes := conversation.guest_writes
    have unready := settled_of_ready writes unsettled
    have no_frames := writes.no_frames unready
    refine ⟨?_, ?_, ?_, ?_, ?_, fun unconnected => absurd unconnected goes_on⟩
    · simp [Connection.answer, Connection.enter, writes.sent, guestBytes, no_frames]
    · intro line member
      rcases List.mem_append.mp member with earlier | last
      · exact writes.are_lines line earlier
      · obtain rfl := List.mem_singleton.mp last
        exact isLine_response response
    · simpa [Connection.answer, Connection.enter] using unready
    · rintro ⟨line, member, ready⟩
      rcases List.mem_append.mp member with earlier | last
      · exact absurd ready (unready line earlier)
      · obtain rfl := List.mem_singleton.mp last
        exact .inl (frames_iff.mp (afterLine_response_eq_framed.mp ready))
    · rintro (framed | sends)
      · refine ⟨_, List.mem_append_right _ (List.mem_singleton.mpr rfl), ?_⟩
        exact afterLine_response_eq_framed.mpr (frames_iff.mpr framed)
      · exact absurd no_frames sends
  guest_reads := reads
  host_reads := conversation.host_reads.congr rfl (by simp [Connection.answer, Connection.enter])
    (List.prefix_append _ _) (fun settled => absurd settled unsettled) fun cut => cut.send _
  unconnected still := absurd (conversation.unconnected still) connected

/-- The guest answers and stays where it is; it has not sent the ready line. -/
theorem Conversation.respond (conversation : before.Conversation line)
    {response : Guest.GuestResponse} (connected : before.guest.phase ≠ .unconnected)
    (unframed : before.guest.phase ≠ .framed) (unsettled : ¬before.Settled)
    (not_ready : response ≠ .ready true)
    (reads : (before.answer (Guest.sendResponse response)).GuestReads line) :
    (before.answer (Guest.sendResponse response)).Invariant line := by
  have stays : ((before.answer (Guest.sendResponse response)).enter before.guest.phase).Invariant
      line :=
    conversation.answer connected unsettled connected (iff_of_false not_ready unframed) reads
  exact stays

/-- The guest's handler has the command: its reader has consumed all there was. -/
def HasCommand (line : List UInt8) (connection : Connection) : Prop :=
  connection.guest.reader.buffer = [] ∧
    connection.up.delivered = line ++ connection.guest.received ∨
  connection.up.CutOff ∧ connection.guest.reader = .fresh ∧ connection.guest.received = []

theorem HasCommand.reads (has : before.HasCommand line)
    (phase : after.guest.phase = .pulling ∨ after.guest.phase = .framed)
    (reader : after.guest.reader = before.guest.reader)
    (received : after.guest.received = before.guest.received) (up : after.up = before.up) :
    after.GuestReads line := by
  rcases has with ⟨empty, delivered⟩ | ⟨cut, fresh, unused⟩
  · exact .switched phase (reader ▸ empty) (by rw [up, received, delivered])
  · refine .cutOff (up ▸ cut) ?_ (reader.trans fresh) (received.trans unused)
    rcases phase with phase | phase <;> simp [phase]

theorem Conversation.sendReady (conversation : before.Conversation line)
    (connected : before.guest.phase ≠ .unconnected) (unsettled : ¬before.Settled)
    (has : before.HasCommand line) : before.sendReady.Invariant line :=
  conversation.answer connected unsettled (by simp) (by simp)
    (has.reads (.inr rfl) rfl rfl rfl)

/-- The three ways a command that switches to frames begins: a pull, the ready line, or an error. -/
inductive Switches (before : Connection) : Connection → Prop
  | pulling : Switches before (before.enter .pulling)
  | ready : Switches before before.sendReady
  | error (message : String) : Switches before
      ((before.answer (Guest.sendResponse (.error message))).enter .closed)

theorem handleCommand_begins {cmd : Host.GuestCommand} (switches : cmd.switchesToFrames = true)
    (has_args : ∀ container env tty workdir, cmd ≠ .execInto container [] env tty workdir)
    (connection : Connection) :
    connection.handleCommand (mirror cmd) = connection.enter .pulling ∨
      connection.handleCommand (mirror cmd) = connection.sendReady := by
  cases cmd with
  | exec => exact .inl rfl
  | execInto container args env tty workdir =>
      have given : args ≠ [] := by
        rintro rfl
        exact has_args container env tty workdir rfl
      rw [mirror, Connection.handleCommand, if_neg given]
      exact .inr rfl
  | shell => exact .inr rfl
  | start name interactive cmdOverride =>
      have is_interactive : interactive = true := switches
      rw [mirror, Connection.handleCommand, if_pos is_interactive]
      exact .inr rfl
  | _ => exact absurd switches Bool.false_ne_true

theorem handleCommand_switches {cmd : Host.GuestCommand} (switches : cmd.switchesToFrames = true)
    (connection : Connection) : connection.Switches (connection.handleCommand (mirror cmd)) := by
  by_cases no_args : ∃ container env tty workdir, cmd = .execInto container [] env tty workdir
  · obtain ⟨container, env, tty, workdir, rfl⟩ := no_args
    exact .error _
  · have has_args container env tty workdir : cmd ≠ .execInto container [] env tty workdir :=
      fun same => no_args ⟨container, env, tty, workdir, same⟩
    rcases handleCommand_begins switches has_args connection with begins | begins
    · rw [begins]
      exact .pulling
    · rw [begins]
      exact .ready

theorem handleCommand_cases (cmd : Guest.GuestCommand) (connection : Connection) :
    connection.Switches (connection.handleCommand cmd) ∨
      connection.handleCommand cmd = connection.enter .serving := by
  rw [Connection.handleCommand.eq_def]
  split
  · exact .inl .pulling
  · split
    · exact .inl (.error _)
    · exact .inl .ready
  · exact .inl .ready
  · split
    · exact .inl .ready
    · exact .inr rfl
  · exact .inr rfl

theorem unsettled_of_readingLine (phase : before.guest.phase = .readingLine) : ¬before.Settled := by
  simp [Settled, phase]

/-- The guest has the command line and begins with the command. -/
theorem Conversation.switches (conversation : before.Conversation line)
    (phase : before.guest.phase = .readingLine) (has : before.HasCommand line)
    (switches : before.Switches after) : after.Invariant line := by
  have connected : before.guest.phase ≠ .unconnected := by simp [phase]
  have unsettled := unsettled_of_readingLine phase
  cases switches with
  | pulling =>
      exact conversation.enter connected (by simp) (by simp)
        (fun settled => absurd settled unsettled) (has.reads (.inl rfl) rfl rfl rfl)
  | ready => exact conversation.sendReady connected unsettled has
  | error message =>
      exact conversation.answer connected unsettled (by simp) (by simp) (.closed rfl)

/-- Whatever the beginning of a line is taken for, nothing follows it. -/
theorem Invariant.handleLine (invariant : before.Invariant line)
    (errorText : DecodeError → String) (phase : before.guest.phase = .readingLine)
    (cut : before.up.CutOff) (fresh : before.guest.reader = .fresh)
    (unused : before.guest.received = []) (started : List UInt8) :
    (before.handleLine errorText started).Invariant line := by
  have connected : before.guest.phase ≠ .unconnected := by simp [phase]
  have unsettled := unsettled_of_readingLine phase
  simp only [Connection.handleLine]
  split
  · exact invariant.enter connected (by simp) (by simp) (fun _ => rfl) (.closed rfl)
  · split
    · exact invariant
    · split
      · exact invariant.respond connected (by simp [phase]) unsettled (by simp)
          (.cutOff cut connected fresh unused)
      · rename_i cmd _
        rcases handleCommand_cases cmd before with switches | serves
        · exact invariant.switches phase (.inr ⟨cut, fresh, unused⟩) switches
        · rw [serves]
          exact invariant.enter connected (by simp) (by simp)
            (fun settled => absurd settled unsettled)
            (.cutOff cut (by simp [Connection.enter]) fresh unused)

section GuestSteps

variable {order : MapOrder String String} {cmd : Host.GuestCommand}
  {errorText : DecodeError → String}

/-- The guest reads: only its readers and the stream to it change. -/
theorem Conversation.guest_turn (conversation : before.Conversation line)
    (host : after.host = before.host) (daemon : after.daemon = before.daemon)
    (phase : after.guest.phase = before.guest.phase)
    (frames : after.guest.sentFrames = before.guest.sentFrames)
    (lines : after.lines = before.lines) (up_sent : after.up.sent = before.up.sent)
    (down : after.down = before.down) : after.Conversation line where
  host_writes := conversation.host_writes.congr host up_sent (by rw [down]; exact id)
  guest_writes := conversation.guest_writes.congr phase frames lines (by rw [down]) daemon.trans
  host_reads := by
    refine conversation.host_reads.congr host (by rw [down]) (by rw [lines]) (fun settled => ?_)
      (by rw [down]; exact id)
    rw [Settled, phase, daemon]
    exact ⟨settled, lines⟩
  unconnected := by
    rw [Unconnected, daemon, phase]
    exact conversation.unconnected

theorem Invariant.guest_fill {size : Nat} (invariant : before.Invariant line)
    (stepped : before.guestStep errorText (.fill size) = some after) : after.Invariant line := by
  simp only [guestStep, Option.ite_none_right_eq_some, Option.some.injEq] at stepped
  obtain ⟨⟨phase, empty⟩, rfl⟩ := stepped
  refine ⟨invariant.guest_turn rfl rfl rfl rfl rfl rfl rfl, ?_⟩
  rcases invariant.guest_reads.of_readingLine phase with
    ⟨silent, unused, holds⟩ | ⟨cut, fresh, unused⟩
  · exact .reading phase silent unused (holds.fill _)
  · refine .cutOff (cut.deliver size) (by simp [phase]) ?_ unused
    simp [cut.1.2, fresh, LineReader.fill, LineReader.fresh]

theorem Invariant.guest_scan (switches : cmd.switchesToFrames = true)
    (invariant : before.Invariant (Host.commandLine order cmd))
    (stepped : before.guestStep errorText .scan = some after) :
    after.Invariant (Host.commandLine order cmd) := by
  simp only [guestStep, Option.ite_none_right_eq_some] at stepped
  obtain ⟨phase, stepped⟩ := stepped
  split at stepped
  · rename_i reader scanned
    obtain rfl := Option.some.inj stepped
    refine ⟨invariant.guest_turn rfl rfl rfl rfl rfl rfl rfl, ?_⟩
    rcases invariant.guest_reads.of_readingLine phase with
      ⟨silent, unused, holds⟩ | ⟨cut, fresh, unused⟩
    · exact .reading phase silent unused (holds.scan_none scanned)
    · refine .cutOff cut (by simp [phase]) ?_ unused
      rw [fresh] at scanned
      exact (Prod.mk.inj scanned).2.symm
  · rename_i scanned reader completed
    obtain rfl := Option.some.inj stepped
    rcases invariant.guest_reads.of_readingLine phase with
      ⟨silent, unused, holds⟩ | ⟨cut, fresh, unused⟩
    · obtain ⟨rfl, empty, delivered⟩ := invariant.host_writes.scan_line
        (isLine_commandLine order cmd) silent holds completed
      have read : Conversation (Host.commandLine order cmd)
          { before with guest := { before.guest with reader } } :=
        invariant.guest_turn rfl rfl rfl rfl rfl rfl rfl
      rw [handleLine_commandLine]
      refine read.switches phase (.inl ⟨empty, ?_⟩) (handleCommand_switches switches _)
      simp [delivered, unused]
    · rw [fresh] at completed
      exact nomatch (Prod.mk.inj completed).1

theorem Invariant.guest_lineEnds (invariant : before.Invariant (Host.commandLine order cmd))
    (stepped : before.guestStep errorText .lineEnds = some after) :
    after.Invariant (Host.commandLine order cmd) := by
  simp only [guestStep, Option.ite_none_right_eq_some] at stepped
  obtain ⟨⟨phase, empty, drained⟩, stepped⟩ := stepped
  split at stepped
  · obtain rfl := Option.some.inj stepped
    exact invariant.enter (by simp [phase]) (by simp) (by simp) (fun _ => rfl) (.closed rfl)
  · rename_i started
    obtain rfl := Option.some.inj stepped
    rcases invariant.guest_reads.of_readingLine phase with ⟨silent, unused, holds⟩ | ⟨-, fresh, -⟩
    · have cut := invariant.host_writes.cut_line (isLine_commandLine order cmd) silent holds empty
        started drained
      have read : Invariant (Host.commandLine order cmd)
          { before with guest := { before.guest with reader := .fresh } } :=
        ⟨invariant.guest_turn rfl rfl rfl rfl rfl rfl rfl,
          .cutOff cut (by simp [phase]) rfl unused⟩
      exact read.handleLine errorText phase cut rfl unused _
    · simp [fresh, LineReader.fresh] at started

theorem Invariant.guest_readFrames {size : Nat} (invariant : before.Invariant line)
    (stepped : before.guestStep errorText (.readFrames size) = some after) :
    after.Invariant line := by
  simp only [guestStep, Option.ite_none_right_eq_some, Option.some.injEq] at stepped
  obtain ⟨phase, rfl⟩ := stepped
  refine ⟨invariant.guest_turn rfl rfl rfl rfl rfl rfl rfl, ?_⟩
  rcases invariant.guest_reads.of_switched (.inr phase) with
    ⟨empty, delivered⟩ | ⟨cut, fresh, unused⟩
  · exact .switched (.inr phase) empty (by simp [delivered, List.append_assoc])
  · exact .cutOff (cut.deliver size) (by simp [phase]) fresh (by simp [cut.1.2, unused])

theorem Invariant.guest_sendFrame {frame : Frame} (invariant : before.Invariant line)
    (stepped : before.guestStep errorText (.sendFrame frame) = some after) :
    after.Invariant line := by
  simp only [guestStep, Option.ite_none_right_eq_some, Option.some.injEq] at stepped
  obtain ⟨phase, rfl⟩ := stepped
  have writes := invariant.guest_writes
  refine ⟨⟨invariant.host_writes.congr rfl rfl (by simp), ⟨?_, writes.are_lines, writes.ready_last,
    writes.ready_settles, fun _ => writes.frames_after (.inl phase), by simp [phase]⟩,
    invariant.host_reads.congr rfl (by simp) List.prefix_rfl (fun settled => ⟨settled, rfl⟩)
      fun cut => cut.send _, invariant.unconnected⟩, ?_⟩
  · simp [writes.sent, guestBytes, List.append_assoc]
  · rcases invariant.guest_reads.of_switched (.inr phase) with
      ⟨empty, delivered⟩ | ⟨cut, fresh, unused⟩
    · exact .switched (.inr phase) empty delivered
    · exact .cutOff cut (by simp [phase]) fresh unused

theorem Invariant.guestStep (switches : cmd.switchesToFrames = true) {action : GuestAction}
    (invariant : before.Invariant (Host.commandLine order cmd))
    (stepped : before.guestStep errorText action = some after) :
    after.Invariant (Host.commandLine order cmd) := by
  cases action with
  | fill size => exact invariant.guest_fill stepped
  | scan => exact invariant.guest_scan switches stepped
  | lineEnds => exact invariant.guest_lineEnds stepped
  | pullProgress progress =>
      simp only [Connection.guestStep, Option.ite_none_right_eq_some, Option.some.injEq] at stepped
      obtain ⟨phase, rfl⟩ := stepped
      have has : before.HasCommand _ := invariant.guest_reads.of_switched (.inl phase)
      have unsettled : ¬before.Settled := by simp [Settled, phase]
      exact invariant.respond (by simp [phase]) (by simp [phase]) unsettled (by simp)
        (has.reads (.inl phase) rfl rfl rfl)
  | pulled =>
      simp only [Connection.guestStep, Option.ite_none_right_eq_some, Option.some.injEq] at stepped
      obtain ⟨phase, rfl⟩ := stepped
      exact invariant.sendReady (by simp [phase]) (by simp [Settled, phase])
        (invariant.guest_reads.of_switched (.inl phase))
  | pullFails message =>
      simp only [Connection.guestStep, Option.ite_none_right_eq_some, Option.some.injEq] at stepped
      obtain ⟨phase, rfl⟩ := stepped
      exact invariant.answer (by simp [phase]) (by simp [Settled, phase]) (by simp) (by simp)
        (.closed rfl)
  | respond response =>
      simp only [Connection.guestStep, Option.ite_none_right_eq_some, Option.some.injEq] at stepped
      obtain ⟨⟨phase, not_ready⟩, rfl⟩ := stepped
      obtain ⟨cut, fresh, unused⟩ := invariant.guest_reads.of_serving phase
      have connected : before.guest.phase ≠ .unconnected := by simp [phase]
      have unsettled : ¬before.Settled := by simp [Settled, phase]
      exact invariant.respond connected (by simp [phase]) unsettled (not_ready true)
        (.cutOff cut connected fresh unused)
  | served =>
      simp only [Connection.guestStep, Option.ite_none_right_eq_some, Option.some.injEq] at stepped
      obtain ⟨phase, rfl⟩ := stepped
      obtain ⟨cut, fresh, unused⟩ := invariant.guest_reads.of_serving phase
      exact invariant.enter (by simp [phase]) (by simp) (by simp) (by simp [Settled, phase])
        (.cutOff cut (by simp [Connection.enter]) fresh unused)
  | readFrames size => exact invariant.guest_readFrames stepped
  | sendFrame frame => exact invariant.guest_sendFrame stepped
  | close =>
      simp only [Connection.guestStep] at stepped
      split at stepped
      · cases stepped
      · rename_i connected
        obtain rfl := Option.some.inj stepped
        exact invariant.enter connected (by simp) (by simp) (fun _ => rfl) (.closed rfl)

end GuestSteps

/-! ## The first frame byte -/

/-- What the readers of the frames have got and can still get is, from its first byte on, what the
other side sent as frames; it is all of it unless the daemon lost some. -/
structure Aligned (connection : Connection) : Prop where
  guest_buffer : connection.guest.phase = .framed → connection.guest.reader.buffer = []
  guest_frames : connection.guest.phase = .framed →
    connection.guest.received ++ connection.up.onTheWay <+: connection.hostBytes ∧
    (connection.up.lost = [] →
      connection.guest.received ++ connection.up.onTheWay = connection.hostBytes)
  host_frames : connection.host.phase = .framed →
    connection.host.received ++ (connection.host.reader.buffer ++ connection.down.onTheWay) <+:
      connection.guestBytes ∧
    (connection.down.lost = [] →
      connection.host.received ++ (connection.host.reader.buffer ++ connection.down.onTheWay) =
        connection.guestBytes)

/-- A stream that is known up to what was lost. -/
theorem front_of_append_lost {kept lost all : List UInt8} (whole : kept ++ lost = all) :
    kept <+: all ∧ (lost = [] → kept = all) :=
  ⟨⟨lost, whole⟩, fun nothing => by rw [← whole, nothing, List.append_nil]⟩

theorem Invariant.guest_aligned (invariant : before.Invariant line) (line_ne : line ≠ [])
    (phase : before.guest.phase = .framed) :
    before.guest.reader.buffer = [] ∧
    before.guest.received ++ before.up.onTheWay <+: before.hostBytes ∧
    (before.up.lost = [] →
      before.guest.received ++ before.up.onTheWay = before.hostBytes) := by
  rcases invariant.guest_reads.of_switched (.inr phase) with
    ⟨empty, delivered⟩ | ⟨cut, fresh, unused⟩
  · refine ⟨empty, front_of_append_lost ?_⟩
    have whole := before.up.delivered_onTheWay_lost
    rw [delivered, invariant.host_writes.sent] at whole
    split at whole
    · rename_i starting
      simp [hostBytes, invariant.host_writes.unsent starting, line_ne] at whole
    · simpa [List.append_assoc] using whole
  · refine ⟨by rw [fresh]; rfl, ?_, fun kept => absurd kept cut.2⟩
    rw [unused, cut.1.onTheWay]
    exact List.nil_prefix

theorem Invariant.host_aligned (invariant : before.Invariant line)
    (phase : before.host.phase = .framed) :
    before.host.received ++ (before.host.reader.buffer ++ before.down.onTheWay) <+:
      before.guestBytes ∧
    (before.down.lost = [] →
      before.host.received ++ (before.host.reader.buffer ++ before.down.onTheWay) =
        before.guestBytes) := by
  rcases invariant.host_reads.of_framed phase with ⟨-, delivered⟩ | ⟨cut, fresh, unused⟩
  · refine front_of_append_lost ?_
    have whole := before.down.delivered_onTheWay_lost
    rw [delivered, invariant.guest_writes.sent] at whole
    simpa [List.append_assoc] using whole
  · refine ⟨?_, fun kept => absurd kept cut.2⟩
    rw [unused, fresh, cut.1.onTheWay]
    exact List.nil_prefix

theorem Invariant.aligned (invariant : before.Invariant line) (line_ne : line ≠ []) :
    before.Aligned where
  guest_buffer phase := (invariant.guest_aligned line_ne phase).1
  guest_frames phase := (invariant.guest_aligned line_ne phase).2
  host_frames := invariant.host_aligned

theorem Invariant.step {order : MapOrder String String} {errorText : DecodeError → String}
    {cmd : Host.GuestCommand} (switches : cmd.switchesToFrames = true) {action : Action}
    (invariant : before.Invariant (Host.commandLine order cmd))
    (stepped : before.step order errorText cmd action = some after) :
    after.Invariant (Host.commandLine order cmd) := by
  cases action with
  | host action => exact invariant.hostStep stepped
  | daemon action => exact invariant.daemonStep stepped
  | guest action => exact invariant.guestStep switches stepped

/-! ## Both sides get there -/

section Progress

variable (order : MapOrder String String) (errorText : DecodeError → String)
  (cmd : Host.GuestCommand)

/-- The command line is not for the daemon. -/
theorem daemonCmdOfLine_commandLine :
    Daemon.daemonCmdOfLine (Host.commandLine order cmd) = .error .invalidType := by
  have trimmed : Text.trimEnd (cmd.toLine order ++ "\n") = cmd.toLine order :=
    Json.trimEndWhere_object_line (by decide) (by decide) _
  rw [Daemon.daemonCmdOfLine, Host.commandLine, Utf8.decodeLossy_encode, trimmed, fromText,
    Host.GuestCommand.toLine, Json.parse_toText (fits_command order cmd)]
  cases record (cmd.fields order) with
  | nil => rfl
  | cons => rfl

/-- The daemon reads the rest of the first line. -/
theorem reads_first_line {body : List UInt8} (free : Json.newline ∉ body) (before : Connection)
    (daemon : before.daemon = .readingLine) (entering : before.up.entering = body ++ [Json.newline])
    (short : before.up.held.length + body.length ≤ Daemon.lineLimit) :
    ∃ up, Reaches (step order errorText cmd) before { before with daemon := .lineRead, up } ∧
      up.held = before.up.held ++ body ++ [Json.newline] ∧ up.leaving = before.up.leaving := by
  induction body generalizing before with
  | nil =>
      refine ⟨before.up.takeIn 1, ⟨[.daemon .readByte], ?_⟩, ?_, rfl⟩
      · simp [run_cons, step, daemonStep, daemon, entering]
      · simp [RelayedStream.takeIn, entering]
  | cons byte body ih =>
      obtain ⟨other, free⟩ := not_or.mp (List.mem_cons.not.mp free)
      let read : Connection := { before with up := before.up.takeIn 1 }
      have held : read.up.held = before.up.held ++ [byte] := by
        simp [read, RelayedStream.takeIn, entering]
      rw [List.length_cons] at short
      have first : before.step order errorText cmd (.daemon .readByte) = some read := by
        have within : ¬Daemon.lineLimit < read.up.held.length := by
          rw [held, List.length_append, List.length_singleton]
          omega
        simp only [step, daemonStep, if_pos daemon, entering, List.cons_append,
          if_neg (Ne.symm other), if_neg within, read]
      obtain ⟨up, later, up_held, leaving⟩ :=
        ih free read daemon (by simp [read, RelayedStream.takeIn, entering])
          (by rw [held, List.length_append, List.length_singleton]; omega)
      refine ⟨up, (Reaches.of_step first).trans later, ?_, leaving⟩
      rw [up_held, held]
      simp

/-- The command line arrives at a guest that has not read anything. -/
theorem command_arrives (short : (Host.commandLine order cmd).length ≤ Daemon.lineLimit) :
    ∃ up, up.leaving = Host.commandLine order cmd ∧
      Reaches (step order errorText cmd) start
        { start with
          host := { start.host with phase := .awaitingReady }
          daemon := .proxying
          guest := { start.guest with phase := .readingLine }
          up } := by
  obtain ⟨body, line_eq, free⟩ := isLine_commandLine order cmd
  let sent : Connection := { start with
    host := { start.host with phase := .awaitingReady }
    up := start.up.send (Host.commandLine order cmd) }
  have sends : start.step order errorText cmd (.host .sendCommand) = some sent := rfl
  have body_short : sent.up.held.length + body.length ≤ Daemon.lineLimit := by
    rw [line_eq, List.length_append] at short
    exact (Nat.zero_add _).symm ▸ Nat.le_of_add_right_le short
  have entering : sent.up.entering = body ++ [Json.newline] := by
    simp [sent, start, RelayedStream.send, RelayedStream.idle, line_eq]
  obtain ⟨read_up, reads, held, leaving⟩ :=
    reads_first_line order errorText cmd free sent rfl entering body_short
  have held_eq : read_up.held = Host.commandLine order cmd := by
    rw [held, line_eq]
    rfl
  refine ⟨read_up.passOn (Host.commandLine order cmd).length, ?_, ?_⟩
  · simp [RelayedStream.passOn, leaving, held_eq, sent, start, RelayedStream.send,
      RelayedStream.idle]
  let connected : Connection := { sent with
    daemon := .replaying
    guest := { start.guest with phase := .readingLine }
    up := read_up }
  have connects : step order errorText cmd { sent with daemon := .lineRead, up := read_up }
      (.daemon .connect) = some connected := by
    simp [step, daemonStep, held_eq, daemonCmdOfLine_commandLine, Except.isOk, Except.toBool,
      connected, sent]
  refine ((Reaches.of_step sends).trans reads).trans ((Reaches.of_step connects).trans ?_)
  refine ⟨[.daemon (.replay (Host.commandLine order cmd).length)], ?_⟩
  simp [run_cons, step, daemonStep, connected, sent, RelayedStream.passOn, held_eq]

/-- The guest, the command line before it, reads the line and begins with the command. -/
theorem command_handled (before : Connection) (phase : before.guest.phase = .readingLine)
    (fresh : before.guest.reader = .fresh)
    (leaving : before.up.leaving = Host.commandLine order cmd) :
    ∃ reader up, Reaches (step order errorText cmd) before
      (handleCommand { before with guest := { before.guest with reader }, up } (mirror cmd)) := by
  let filled : Connection := { before with
    guest := { before.guest with reader := before.guest.reader.fill (Host.commandLine order cmd) }
    up := before.up.deliver (Host.commandLine order cmd).length }
  have fills : before.step order errorText cmd
      (.guest (.fill (Host.commandLine order cmd).length)) = some filled := by
    simp [step, guestStep, phase, fresh, LineReader.fresh, leaving, filled]
  have scanned : filled.guest.reader.scan Json.newline =
      (some (Host.commandLine order cmd), .fresh) := by
    have split := takeThrough_append (isLine_commandLine order cmd) []
    rw [List.append_nil] at split
    simp [filled, fresh, LineReader.fill, LineReader.fresh, LineReader.scan, split]
  have handles : filled.step order errorText cmd (.guest .scan) =
      some (handleCommand { filled with guest := { filled.guest with reader := .fresh } }
        (mirror cmd)) := by
    rw [← handleLine_commandLine order errorText]
    simp [step, guestStep, scanned, filled, phase]
  exact ⟨_, _, (Reaches.of_step fills).trans (Reaches.of_step handles)⟩

/-- The host, the ready line on its way to it, reads the line and switches to frames. -/
theorem ready_heard (before : Connection) (daemon : before.daemon = .proxying)
    (phase : before.host.phase = .awaitingReady) (fresh : before.host.reader = .fresh)
    (idle : before.down = .idle) :
    ∃ reached, Reaches (step order errorText cmd) before.sendReady reached ∧
      reached.host.phase = .framed ∧ reached.guest.phase = .framed := by
  let ready := Utf8.encode (Guest.sendResponse (.ready true))
  let taken : Connection := { before.sendReady with
    down := before.sendReady.down.takeIn ready.length }
  let passed : Connection := { taken with down := taken.down.passOn ready.length }
  have takes : before.sendReady.step order errorText cmd (.daemon (.copyRead .down ready.length)) =
      some taken := if_pos daemon
  have passes : taken.step order errorText cmd (.daemon (.copyWrite .down ready.length)) =
      some passed := if_pos daemon
  have leaving : passed.down.leaving = ready := by
    simp [passed, taken, ready, sendReady, answer, enter, idle, RelayedStream.idle,
      RelayedStream.send, RelayedStream.takeIn, RelayedStream.passOn]
  let filled : Connection := { passed with
    host := { before.host with reader := before.host.reader.fill ready }
    down := passed.down.deliver ready.length }
  have fills : passed.step order errorText cmd (.host (.fill ready.length)) = some filled := by
    have waits : passed.host = before.host := rfl
    simp [step, hostStep, waits, phase, fresh, LineReader.fresh, leaving, filled]
  have scanned : filled.host.reader.scan Json.newline = (some ready, .fresh) := by
    have split := takeThrough_append (isLine_response (.ready true)) []
    rw [List.append_nil] at split
    simp [filled, ready, fresh, LineReader.fill, LineReader.fresh, LineReader.scan, split]
  have verdict : Host.afterLine ready = .framed := afterLine_response_eq_framed.mpr rfl
  have hears : filled.step order errorText cmd (.host .scan) =
      some { filled with host := { filled.host with phase := .framed, reader := .fresh } } := by
    simp [step, hostStep, scanned, verdict, filled, phase]
  refine ⟨_, ((Reaches.of_step takes).trans (.of_step passes)).trans
    ((Reaches.of_step fills).trans (.of_step hears)), rfl, rfl⟩

/-- Every command that switches to frames, except an exec without a command, can bring both sides to
frames. -/
theorem both_sides_switch (switches : cmd.switchesToFrames = true)
    (short : (Host.commandLine order cmd).length ≤ Daemon.lineLimit)
    (has_args : ∀ container env tty workdir, cmd ≠ .execInto container [] env tty workdir) :
    ∃ reached, Reaches (step order errorText cmd) start reached ∧
      reached.host.phase = .framed ∧ reached.guest.phase = .framed := by
  obtain ⟨up, leaving, arrives⟩ := command_arrives order errorText cmd short
  let arrived : Connection := { start with
    host := { start.host with phase := .awaitingReady }
    daemon := .proxying
    guest := { start.guest with phase := .readingLine }
    up }
  obtain ⟨reader, rest, handled⟩ := command_handled order errorText cmd arrived rfl rfl leaving
  let handling : Connection := { arrived with
    guest := { arrived.guest with reader }
    up := rest }
  have began := arrives.trans handled
  rcases handleCommand_begins switches has_args handling with pulls | readies
  · have pulled : Reaches (step order errorText cmd) (handling.handleCommand (mirror cmd))
        (handling.enter .pulling).sendReady := by
      rw [pulls]
      exact ⟨[.guest .pulled], rfl⟩
    obtain ⟨reached, heard, framed⟩ :=
      ready_heard order errorText cmd (handling.enter .pulling) rfl rfl rfl rfl
    exact ⟨reached, (began.trans pulled).trans heard, framed⟩
  · obtain ⟨reached, heard, framed⟩ := ready_heard order errorText cmd handling rfl rfl rfl rfl
    exact ⟨reached, began.trans (readies ▸ heard), framed⟩

end Progress

/-- For each command that switches to frames and any interleaving of the host, the daemon and the
guest: when the guest reads frames, its line reader holds no byte, and both sides read the frames of
the other from their first byte on. -/
theorem frames_start_aligned (order : MapOrder String String) (errorText : DecodeError → String)
    {cmd : Host.GuestCommand} (switches : cmd.switchesToFrames = true) {actions : List Action}
    {reached : Connection}
    (execution : run (step order errorText cmd) actions start = some reached) :
    reached.Aligned := by
  have invariant : reached.Invariant (Host.commandLine order cmd) :=
    invariant_of_run (fun holds stepped => Invariant.step switches holds stepped)
      (invariant_start _) execution
  exact invariant.aligned (isLine_commandLine order cmd).ne_nil

/-- A shell on a terminal: both sides get to the frames. -/
theorem shell_frames_aligned :
    ∃ actions reached,
      run (step (.sorted String) (fun _ => "") (.shell true)) actions start = some reached ∧
      reached.host.phase = .framed ∧ reached.guest.phase = .framed ∧ reached.Aligned := by
  have short : (Host.commandLine (.sorted String) (.shell true)).length ≤ Daemon.lineLimit := by
    decide
  obtain ⟨reached, ⟨actions, execution⟩, host, guest⟩ :=
    both_sides_switch (.sorted String) (fun _ => "") (.shell true) rfl short (by simp)
  exact ⟨actions, reached, execution, host, guest, frames_start_aligned _ _ rfl execution⟩

end Connection

end Pelagos.Wire
