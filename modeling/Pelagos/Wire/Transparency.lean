import Pelagos.Daemon.Relay
import Pelagos.Wire.FrameSwitch

/-!
# What the daemon relays

The daemon reads the first line of a client byte by byte.  A command for itself it answers; anything
else it writes to the guest before it lets two threads copy the rest.
-/

namespace Pelagos.Wire

open Execution Lines Serde
open Pelagos.Daemon (DaemonCmd DaemonResponse Relay RelayAction RelayFunction Side)

namespace Daemon

def daemonCmdToJson : DaemonCmd → Json
  | .registerPort hostPort containerPort =>
      variantObject "RegisterPort"
        [("host_port", some (ofUInt16 hostPort)), ("container_port", some (ofUInt16 containerPort))]
  | .unregisterPort hostPort =>
      variantObject "UnregisterPort" [("host_port", some (ofUInt16 hostPort))]
  | .trackComposeProject project hostPorts =>
      variantObject "TrackComposeProject"
        [("project", some (.string project)), ("host_ports", some (ofList ofUInt16 hostPorts))]
  | .unregisterComposePorts project =>
      variantObject "UnregisterComposePorts" [("project", some (.string project))]

/-- The line `send_daemon_cmd` writes. -/
def daemonCmdLine (cmd : DaemonCmd) : List UInt8 :=
  Utf8.encode ((daemonCmdToJson cmd).toText ++ "\n")

end Daemon

/-- A client on a connection to the daemon, and the guest that the daemon connects it to. -/
structure ClientConnection where
  daemon : Daemon.Phase
  relay : Relay
  /-- The line the daemon itself has written to the client. -/
  answered : Option String

/-- A step of `handle_connection`, of the threads of `proxy`, or of an endpoint. -/
inductive ConnectionAction where
  | readByte
  /-- The client ends its stream within the first line. -/
  | lineEnds
  | handleDaemonCmd (response : DaemonResponse)
  | connect
  | connectFails (message : String)
  | replay (size : Nat)
  | replayFails
  | relay (action : RelayAction)

/-- The step is one of the daemon. -/
def ConnectionAction.isDaemon : ConnectionAction → Bool
  | relay action => action.isCopy
  | _ => true

/-- The endpoint whose step it is. -/
def endpointOf : RelayAction → Option Side
  | .send side _ | .endSending side | .close side | .receive side _ => some side
  | .copyRead _ _ | .copyReadEnds _ | .copyWrite _ _ | .copyWriteFails _ | .join => none

namespace ClientConnection

def start : ClientConnection := { daemon := .readingLine, relay := .start, answered := none }

/-- Close both sides. -/
def hangUp (connection : ClientConnection) : ClientConnection :=
  { connection with
    daemon := .closed
    relay :=
      { connection.relay with
        stream := fun side => (connection.relay.stream side).finish, owns := fun _ => false } }

/-- What the daemon has read of the client's stream and not written. -/
def held (connection : ClientConnection) : List UInt8 := (connection.relay.stream .client).held

/-- An endpoint acts while it has a connection, a copy thread while it runs. -/
def mayAct (connection : ClientConnection) (action : RelayAction) : Bool :=
  match endpointOf action with
  | some .client => true
  | some .guest => connection.daemon = .replaying || connection.daemon = .proxying
  | none => connection.daemon = .proxying

def step (window : Nat) (connection : ClientConnection) :
    ConnectionAction → Option ClientConnection
  | .readByte =>
      if connection.daemon = .readingLine then
        match (connection.relay.stream .client).entering with
        | [] => none
        | byte :: _ =>
            let relay := connection.relay.withStream .client
              ((connection.relay.stream .client).takeIn 1)
            let read := { connection with relay }
            if byte = Json.newline then some { read with daemon := .lineRead }
            else if Daemon.lineLimit < read.held.length then some read.hangUp
            else some read
      else none
  | .lineEnds =>
      if connection.daemon = .readingLine ∧ (connection.relay.stream .client).entering = [] ∧
          (connection.relay.endpoint .client).sendEnded = true then
        some connection.hangUp
      else none
  | .handleDaemonCmd response =>
      if connection.daemon = .lineRead ∧ (Daemon.daemonCmdOfLine connection.held).isOk then
        some { connection.hangUp with answered := some (Daemon.responseLine response) }
      else none
  | .connect =>
      if connection.daemon = .lineRead ∧ ¬ (Daemon.daemonCmdOfLine connection.held).isOk then
        some { connection with daemon := .replaying }
      else none
  | .connectFails message =>
      if connection.daemon = .lineRead ∧ ¬ (Daemon.daemonCmdOfLine connection.held).isOk then
        some { connection.hangUp with answered := some (connectFailedLine message) }
      else none
  | .replay size =>
      let stream := connection.relay.stream .client
      if connection.daemon = .replaying ∧ 0 < size ∧ stream.leaving.length < window then
        let written := stream.passOn (min size (window - stream.leaving.length))
        some { connection with
          daemon := if written.held = [] then .proxying else .replaying
          relay := connection.relay.withStream .client written }
      else none
  | .replayFails =>
      if connection.daemon = .replaying ∧ (connection.relay.endpoint .guest).closed = true then
        some connection.hangUp
      else none
  | .relay action =>
      if connection.mayAct action then
        (connection.relay.step .proxy window action).map fun relay => { connection with relay }
      else none

/-- The connection to the guest is made, and the guest does not close it. -/
def GuestAccepts : ConnectionAction → Prop
  | .connectFails _ => False
  | .relay action => action ≠ .close .guest
  | _ => True

/-- The daemon can do nothing, and what it has written is read by the guest, and by the client
unless it has closed. -/
structure Settled (window : Nat) (connection : ClientConnection) : Prop where
  idle : ∀ action, action.isDaemon = true → connection.step window action = none
  guest_reads : (connection.relay.stream .client).leaving = []
  client_reads : (connection.relay.endpoint .client).closed = false →
    (connection.relay.stream .guest).leaving = []

end ClientConnection

/-! ## Which lines are for the daemon -/

theorem fits_daemonCmdToJson (cmd : DaemonCmd) :
    (Daemon.daemonCmdToJson cmd).Fits Json.depthLimit := by
  have ports_fit (hostPorts : List UInt16) : (ofList ofUInt16 hostPorts).Fits 125 :=
    fits_ofList fun hostPort _ => fits_ofUInt16 124 hostPort
  cases cmd <;> refine fits_variantObject ?_ <;> simp [ports_fit]

/-- The daemon reads every command for itself. -/
theorem daemonCmdOfLine_daemonCmdLine (cmd : DaemonCmd) :
    Daemon.daemonCmdOfLine (Daemon.daemonCmdLine cmd) = .ok cmd := by
  obtain ⟨variant, entries, json_eq, read⟩ : ∃ variant entries,
      Daemon.daemonCmdToJson cmd = variantObject variant entries ∧
        Daemon.daemonCmdOfVariant variant (record entries) = .ok cmd := by
    have ports_read (hostPorts : List UInt16) :
        list uint16 (ofList ofUInt16 hostPorts) = .ok hostPorts := by
      simpa using list_ofList uint16_ofUInt16 hostPorts
    cases cmd <;> refine ⟨_, _, rfl, ?_⟩ <;> simp [Daemon.daemonCmdOfVariant, ports_read]
  have trimmed : Text.trimEnd ((variantObject variant entries).toText ++ "\n") =
      (variantObject variant entries).toText :=
    Json.trimEndWhere_object_line (by decide) (by decide) _
  have fits := fits_daemonCmdToJson cmd
  rw [json_eq] at fits
  rw [Daemon.daemonCmdOfLine, Daemon.daemonCmdLine, Utf8.decodeLossy_encode, json_eq, trimmed,
    fromText, Json.parse_toText fits]
  exact (externallyTagged_variantObject Daemon.daemonCmdOfVariant variant entries).trans read

/-! ## What is relayed -/

/-- What comes before the first newline of a stream is in its first line. -/
theorem prefix_line {line rest front : List UInt8}
    (is_front : front <+: line ++ Json.newline :: rest) (free : Json.newline ∉ front) :
    front <+: line := by
  rcases List.prefix_or_prefix_of_prefix is_front (List.prefix_append line _) with within | beyond
  · exact within
  · obtain ⟨tail, rfl⟩ := beyond
    rw [List.prefix_append_right_inj] at is_front
    cases tail with
    | nil => simp
    | cons byte tail =>
        obtain ⟨rfl, -⟩ := List.cons_prefix_cons.mp is_front
        simp at free

theorem isCopy_eq_false {action : RelayAction} {side : Side}
    (endpoint : endpointOf action = some side) : action.isCopy = false := by
  cases action <;> simp_all [endpointOf, RelayAction.isCopy]

namespace ClientConnection

/-- The first line is on its way, or the two sides are connected, and nothing else has happened. -/
structure Passing (line : List UInt8) (connection : ClientConnection) : Prop where
  not_closed : connection.daemon ≠ .closed
  unanswered : connection.answered = none
  guest_open : (connection.relay.endpoint .guest).closed = false
  coherent : Relay.Coherent .proxy connection.relay
  running : connection.daemon ≠ .proxying →
    ∀ side, (connection.relay.stream side).ended = false
  reading : connection.daemon = .readingLine →
    (connection.relay.stream .client).written = [] ∧ Json.newline ∉ connection.held
  read : connection.daemon = .lineRead →
    (connection.relay.stream .client).written = [] ∧ connection.held = line ++ [Json.newline]

/-- The client has ended its stream before the end of its first line. -/
def CutShort (connection : ClientConnection) : Prop :=
  (connection.relay.endpoint .client).sendEnded = true ∧
    Json.newline ∉ (connection.relay.stream .client).sent

variable {window : Nat} {line rest : List UInt8} {before after : ClientConnection}
  {action : ConnectionAction}

theorem passing_start (line : List UInt8) : start.Passing line where
  not_closed := by simp [start]
  unanswered := rfl
  guest_open := rfl
  coherent := Relay.coherent_start
  running _ _ := rfl
  reading _ := ⟨rfl, by simp [held, start, Relay.start, RelayedStream.idle]⟩
  read reads := by simp [start] at reads

theorem sent_of_step (stepped : before.step window action = some after) :
    (before.relay.stream .client).sent <+: (after.relay.stream .client).sent ∧
      ((before.relay.endpoint .client).sendEnded = true →
        (after.relay.endpoint .client).sendEnded = true ∧
          (after.relay.stream .client).sent = (before.relay.stream .client).sent) := by
  have unsent (same_sent : (after.relay.stream .client).sent = (before.relay.stream .client).sent)
      (same_endpoint : after.relay.endpoint = before.relay.endpoint) :
      (before.relay.stream .client).sent <+: (after.relay.stream .client).sent ∧
        ((before.relay.endpoint .client).sendEnded = true →
          (after.relay.endpoint .client).sendEnded = true ∧
            (after.relay.stream .client).sent = (before.relay.stream .client).sent) :=
    ⟨same_sent ▸ List.prefix_rfl, fun ended => ⟨same_endpoint ▸ ended, same_sent⟩⟩
  cases action with
  | readByte =>
      simp only [step] at stepped
      split at stepped
      · split at stepped
        · cases stepped
        · split at stepped
          · obtain rfl := Option.some.inj stepped
            exact unsent (by simp) rfl
          · split at stepped
            · obtain rfl := Option.some.inj stepped
              exact unsent (by simp [hangUp]) rfl
            · obtain rfl := Option.some.inj stepped
              exact unsent (by simp) rfl
      · cases stepped
  | lineEnds | handleDaemonCmd | connect | connectFails | replayFails =>
      simp only [step] at stepped
      split at stepped
      · obtain rfl := Option.some.inj stepped
        exact unsent rfl rfl
      · cases stepped
  | replay size =>
      simp only [step] at stepped
      split at stepped
      · obtain rfl := Option.some.inj stepped
        exact unsent (by simp) rfl
      · cases stepped
  | relay action =>
      simp only [step] at stepped
      split at stepped
      · obtain ⟨relay, relay_stepped, rfl⟩ := Option.map_eq_some_iff.mp stepped
        exact Relay.sent_of_step relay_stepped .client
      · cases stepped

theorem CutShort.step (cut : before.CutShort) (stepped : before.step window action = some after) :
    after.CutShort := by
  obtain ⟨still_ended, same_sent⟩ := (sent_of_step stepped).2 cut.1
  exact ⟨still_ended, same_sent ▸ cut.2⟩

/-- While a thread runs, what the daemon holds follows what it has written. -/
theorem written_held_prefix {stream : RelayedStream UInt8} :
    stream.written ++ stream.held <+: stream.sent := by
  rw [← stream.accounted, RelayedStream.written, List.append_assoc]
  exact ⟨stream.entering ++ stream.lost, by simp⟩

/-- An endpoint or a copy thread takes a step. -/
theorem Passing.relayStep (passing : before.Passing line) {action : RelayAction} {relay : Relay}
    (may_act : before.mayAct action = true) (accepts : action ≠ .close .guest)
    (stepped : before.relay.step .proxy window action = some relay) :
    { before with relay }.Passing line := by
  have waits (not_proxying : before.daemon ≠ .proxying) : action.isCopy = false := by
    cases endpoint : endpointOf action with
    | none => simp [mayAct, endpoint, not_proxying] at may_act
    | some side => exact isCopy_eq_false endpoint
  refine ⟨passing.not_closed, passing.unanswered, ?_, passing.coherent.step stepped, ?_, ?_, ?_⟩
  · rw [← Bool.not_eq_true]
    intro closed
    rcases Relay.closed_of_step stepped closed with was_closed | closes
    · simp [passing.guest_open] at was_closed
    · exact accepts closes
  · intro not_proxying side
    rw [(Relay.copied_of_step stepped (waits not_proxying) side).1]
    exact passing.running not_proxying side
  · intro reading
    obtain ⟨-, same_held, same_written⟩ :=
      Relay.copied_of_step stepped (waits (by simp [show before.daemon = _ from reading])) .client
    rw [same_written, held, same_held]
    exact passing.reading reading
  · intro read
    obtain ⟨-, same_held, same_written⟩ :=
      Relay.copied_of_step stepped (waits (by simp [show before.daemon = _ from read])) .client
    rw [same_written, held, same_held]
    exact passing.read read

/-- The daemon itself reads or writes before the threads run. -/
theorem Passing.withStream (passing : before.Passing line) {stream : RelayedStream UInt8}
    {daemon : Daemon.Phase} (not_closed : daemon ≠ .closed)
    (not_proxying : before.daemon ≠ .proxying) (running : stream.ended = false)
    (lost : stream.lost = (before.relay.stream .client).lost)
    (reading : daemon = .readingLine → stream.written = [] ∧ Json.newline ∉ stream.held)
    (read : daemon = .lineRead → stream.written = [] ∧ stream.held = line ++ [Json.newline]) :
    { before with daemon, relay := before.relay.withStream .client stream }.Passing line where
  not_closed := not_closed
  unanswered := passing.unanswered
  guest_open := passing.guest_open
  coherent := by
    have was_running := passing.running not_proxying .client
    refine passing.coherent.withStream (running.trans was_running.symm) (fun _ _ => lost) ?_
    rw [lost]
    exact id
  running _ side := by
    change ((before.relay.withStream .client stream).stream side).ended = false
    cases side with
    | client => rw [Relay.withStream_self, running]
    | guest =>
        rw [Relay.withStream_of_ne (by simp)]
        exact passing.running not_proxying .guest
  reading now := by
    rw [held]
    simpa using reading now
  read now := by
    rw [held]
    simpa using read now

/-- The daemon reads a byte of the first line. -/
theorem Passing.readByte (passing : before.Passing line)
    (short : line.length ≤ Daemon.lineLimit) (free : Json.newline ∉ line)
    (sent : (before.relay.stream .client).sent <+: line ++ Json.newline :: rest)
    (stepped : before.step window .readByte = some after) : after.Passing line := by
  simp only [step] at stepped
  split at stepped
  · rename_i reading
    split at stepped
    · cases stepped
    · rename_i byte tail entering
      obtain ⟨unwritten, free_held⟩ := passing.reading reading
      have running := passing.running (by simp [reading]) .client
      have taken : ((before.relay.stream .client).takeIn 1).held = before.held ++ [byte] := by
        simp [RelayedStream.takeIn, entering, held]
      have on_line : before.held ++ [byte] <+: line ++ Json.newline :: rest := by
        have read_so_far : ((before.relay.stream .client).takeIn 1).written ++
            ((before.relay.stream .client).takeIn 1).held <+: (before.relay.stream .client).sent :=
          written_held_prefix
        rw [taken] at read_so_far
        exact (unwritten ▸ read_so_far).trans sent
      split at stepped
      · rename_i newline
        subst newline
        obtain rfl := Option.some.inj stepped
        have is_line : IsLine Json.newline (before.held ++ [Json.newline]) :=
          ⟨before.held, rfl, free_held⟩
        obtain ⟨more, stream_eq⟩ := on_line
        have same : before.held ++ [Json.newline] ++ more = line ++ [Json.newline] ++ rest := by
          simpa using stream_eq
        have whole : before.held ++ [Json.newline] = line ++ [Json.newline] :=
          (is_line.append_inj ⟨line, rfl, free⟩ same).1
        exact passing.withStream (by simp) (by simp [reading]) running rfl (by simp)
          fun _ => ⟨unwritten, taken.trans whole⟩
      · rename_i other
        have free_taken : Json.newline ∉ before.held ++ [byte] := by
          simp [free_held, Ne.symm other]
        split at stepped
        · -- A line within the limit is not dropped.
          rename_i too_long
          have length_le := (prefix_line on_line free_taken).length_le
          rw [held, Relay.withStream_self, taken] at too_long
          omega
        · obtain rfl := Option.some.inj stepped
          rw [← taken] at free_taken
          exact passing.withStream (by simp [reading]) (by simp [reading]) running rfl
            (fun _ => ⟨unwritten, free_taken⟩) (by simp [reading])
  · cases stepped

/-- Every step passes the stream on, or finds it cut short. -/
theorem Passing.step (passing : before.Passing line) (short : line.length ≤ Daemon.lineLimit)
    (free : Json.newline ∉ line)
    (for_guest : ¬ (Daemon.daemonCmdOfLine (line ++ [Json.newline])).isOk)
    (sent : (before.relay.stream .client).sent <+: line ++ Json.newline :: rest)
    (accepts : GuestAccepts action) (stepped : before.step window action = some after) :
    after.Passing line ∨ after.CutShort := by
  cases action with
  | readByte => exact .inl (passing.readByte short free sent stepped)
  | lineEnds =>
      simp only [ClientConnection.step] at stepped
      split at stepped
      · rename_i at_end
        obtain ⟨reading, none_entering, sends_no_more⟩ := at_end
        obtain rfl := Option.some.inj stepped
        obtain ⟨unwritten, free_held⟩ := passing.reading reading
        have running := passing.running (by simp [reading]) .client
        have none_lost := (before.relay.stream .client).nothing_lost running
        have accounted := (before.relay.stream .client).accounted
        rw [← List.append_assoc, ← RelayedStream.written, unwritten, none_entering, none_lost,
          List.append_nil, List.append_nil, List.nil_append] at accounted
        refine .inr ⟨sends_no_more, ?_⟩
        change Json.newline ∉ (before.relay.stream .client).sent
        rw [← accounted]
        exact free_held
      · cases stepped
  | handleDaemonCmd response =>
      simp only [ClientConnection.step] at stepped
      split at stepped
      · rename_i for_daemon
        rw [(passing.read for_daemon.1).2] at for_daemon
        exact absurd for_daemon.2 for_guest
      · cases stepped
  | connect =>
      simp only [ClientConnection.step] at stepped
      split at stepped
      · rename_i line_read
        obtain rfl := Option.some.inj stepped
        have running := passing.running (by simp [line_read.1])
        exact .inl ⟨by simp, passing.unanswered, passing.guest_open, passing.coherent,
          fun _ => running, by simp, by simp⟩
      · cases stepped
  | connectFails message => exact accepts.elim
  | replay size =>
      simp only [ClientConnection.step] at stepped
      split at stepped
      · rename_i replaying
        obtain rfl := Option.some.inj stepped
        have running := passing.running (by simp [replaying.1]) .client
        refine .inl (passing.withStream ?_ (by simp [replaying.1]) running rfl ?_ ?_)
        all_goals split <;> simp
      · cases stepped
  | replayFails =>
      simp only [ClientConnection.step] at stepped
      split at stepped
      · rename_i failing
        simp [passing.guest_open] at failing
      · cases stepped
  | relay action =>
      simp only [ClientConnection.step] at stepped
      split at stepped
      · rename_i may_act
        obtain ⟨relay, relay_stepped, rfl⟩ := Option.map_eq_some_iff.mp stepped
        exact .inl (passing.relayStep may_act accepts relay_stepped)
      · cases stepped

/-- A copy thread that can do nothing has written all that was sent, if its receiver is open and has
read what it wrote. -/
theorem written_of_stuck {function : RelayFunction} {relay : Relay} {side : Side}
    (coherent : Relay.Coherent function relay) (stuck : relay.Stuck window side)
    (room : (relay.stream side).leaving.length < window)
    (still_open : (relay.endpoint side.other).closed = false) :
    (relay.stream side).written = (relay.stream side).sent := by
  rw [RelayedStream.written_eq_sent_iff]
  by_cases ended : (relay.stream side).ended = true
  · obtain ⟨none_held, none_entering⟩ := (relay.stream side).nothing_behind ended
    rcases coherent.ended_because side ended with ⟨-, none_lost⟩ | ⟨closed, -⟩
    · exact ⟨none_held, none_entering, none_lost⟩
    · simp [still_open] at closed
  · have none_lost := (relay.stream side).nothing_lost (eq_false_of_ne_true ended)
    rcases stuck with now_ended | ⟨none_held, none_entering, -⟩ | ⟨-, -, full⟩
    · exact absurd now_ended ended
    · exact ⟨none_held, none_entering, none_lost⟩
    · omega

/-- With the first line sent, the daemon waits only after it has connected the two sides. -/
theorem Passing.proxying (passing : after.Passing line) (room : 0 < window)
    (for_guest : ¬ (Daemon.daemonCmdOfLine (line ++ [Json.newline])).isOk)
    (sent : (after.relay.stream .client).sent = line ++ Json.newline :: rest)
    (settled : after.Settled window) : after.daemon = .proxying := by
  cases phase : after.daemon with
  | readingLine =>
      obtain ⟨unwritten, free_held⟩ := passing.reading phase
      have none_entering : (after.relay.stream .client).entering = [] := by
        have cannot_read := settled.idle .readByte rfl
        simp only [ClientConnection.step, phase, if_true] at cannot_read
        split at cannot_read
        · assumption
        · split at cannot_read
          · cases cannot_read
          · split at cannot_read <;> cases cannot_read
      have running := passing.running (by simp [phase]) .client
      have accounted := (after.relay.stream .client).accounted
      rw [← List.append_assoc, ← RelayedStream.written, unwritten, none_entering,
        (after.relay.stream .client).nothing_lost running, List.append_nil, List.append_nil,
        List.nil_append, sent] at accounted
      rw [held, accounted] at free_held
      simp at free_held
  | lineRead =>
      have cannot_connect := settled.idle .connect rfl
      rw [ClientConnection.step, if_pos ⟨phase, (passing.read phase).2 ▸ for_guest⟩]
        at cannot_connect
      cases cannot_connect
  | replaying =>
      have cannot_replay := settled.idle (.replay 1) rfl
      have fits : (after.relay.stream .client).leaving.length < window := by
        rw [settled.guest_reads]
        exact room
      rw [ClientConnection.step, if_pos ⟨phase, Nat.one_pos, fits⟩] at cannot_replay
      cases cannot_replay
  | proxying => rfl
  | closed => exact absurd phase passing.not_closed

theorem Settled.quiescent (settled : after.Settled window) (proxying : after.daemon = .proxying) :
    after.relay.Quiescent .proxy window := by
  intro action copies
  have may_act : after.mayAct action = true := by
    cases action <;> simp_all [mayAct, endpointOf, RelayAction.isCopy]
  have idle := settled.idle (.relay action) copies
  simpa [ClientConnection.step, may_act] using idle

/-- While the client's stream begins with the line, it is passed on or the line is cut short. -/
def OnCourse (line rest : List UInt8) (connection : ClientConnection) : Prop :=
  (connection.relay.stream .client).sent <+: line ++ Json.newline :: rest →
    connection.Passing line ∨ connection.CutShort

theorem onCourse_run {actions : List ConnectionAction} (short : line.length ≤ Daemon.lineLimit)
    (free : Json.newline ∉ line)
    (for_guest : ¬ (Daemon.daemonCmdOfLine (line ++ [Json.newline])).isOk)
    (guarded : Guarded (step window) (fun _ => GuestAccepts) actions start)
    (execution : run (step window) actions start = some after) : after.OnCourse line rest := by
  refine invariant_of_guarded ?_ (fun _ => .inl (passing_start line)) guarded execution
  intro before after action on_course accepts stepped sent
  have sent_before := (sent_of_step stepped).1.trans sent
  rcases on_course sent_before with passing | cut
  · exact passing.step short free for_guest sent_before accepts stepped
  · exact .inr (cut.step stepped)

/-- The daemon takes its own commands and no other.  A client that begins with another line within
the limit and the guest get each other's streams, however they are read and written. -/
theorem dispatch_transparent :
    (∀ (order : MapOrder String String) (cmd : Host.GuestCommand),
      ¬ (Daemon.daemonCmdOfLine (Host.commandLine order cmd)).isOk) ∧
    (∀ cmd : DaemonCmd, Daemon.daemonCmdOfLine (Daemon.daemonCmdLine cmd) = .ok cmd) ∧
    ∀ (window : Nat) (actions : List ConnectionAction) (after : ClientConnection)
      (line rest : List UInt8), 0 < window →
      Guarded (step window) (fun _ => GuestAccepts) actions start →
      run (step window) actions start = some after →
      (after.relay.stream .client).sent = line ++ Json.newline :: rest →
      Json.newline ∉ line → line.length ≤ Daemon.lineLimit →
      ¬ (Daemon.daemonCmdOfLine (line ++ [Json.newline])).isOk →
      after.answered = none ∧
      (after.relay.stream .client).delivered <+: (after.relay.stream .client).sent ∧
      (after.relay.stream .guest).delivered <+: (after.relay.stream .guest).sent ∧
      (after.Settled window →
        (after.relay.stream .client).delivered = (after.relay.stream .client).sent ∧
        ((after.relay.endpoint .client).closed = false →
          (after.relay.stream .guest).delivered = (after.relay.stream .guest).sent)) := by
  refine ⟨fun order cmd => ?_, daemonCmdOfLine_daemonCmdLine, ?_⟩
  · rw [Connection.daemonCmdOfLine_commandLine]
    exact Bool.false_ne_true
  · intro window actions after line rest room guarded execution sent free short for_guest
    have passing : after.Passing line := by
      have on_course : after.OnCourse line rest :=
        onCourse_run short free for_guest guarded execution
      rcases on_course (sent ▸ List.prefix_rfl) with passing | cut
      · exact passing
      · exact absurd cut.2 (by simp [sent])
    refine ⟨passing.unanswered, RelayedStream.delivered_prefix _,
      RelayedStream.delivered_prefix _, fun settled => ?_⟩
    have quiescent := settled.quiescent (passing.proxying room for_guest sent settled)
    have delivered {side : Side} (read : (after.relay.stream side).leaving = [])
        (still_open : (after.relay.endpoint side.other).closed = false) :
        (after.relay.stream side).delivered = (after.relay.stream side).sent := by
      rw [← written_of_stuck passing.coherent (quiescent.stuck side) (by simpa [read]) still_open,
        RelayedStream.written, read, List.append_nil]
    exact ⟨delivered settled.guest_reads passing.guest_open,
      fun client_open => delivered (settled.client_reads client_open) client_open⟩

/-- A line that is no command, a byte behind it, and an answer. -/
def relayedAnswer : List ConnectionAction :=
  [.relay (.send .client [120, 10, 1]), .readByte, .readByte, .connect, .replay 8,
    .relay (.copyRead .client 8), .relay (.copyWrite .client 8), .relay (.receive .guest 8),
    .relay (.send .guest [7]), .relay (.copyRead .guest 8), .relay (.copyWrite .guest 8),
    .relay (.receive .client 8)]

theorem answer_transparent :
    ∃ after, run (step 8) relayedAnswer start = some after ∧ after.Settled 8 ∧
      (after.relay.stream .client).delivered = [120, 10, 1] ∧
      (after.relay.stream .guest).delivered = [7] := by
  obtain ⟨after, execution, proxying, still_open, sent, answered, read, stuck⟩ :
      ∃ after, run (step 8) relayedAnswer start = some after ∧ after.daemon = .proxying ∧
        (after.relay.endpoint .client).closed = false ∧
        (after.relay.stream .client).sent = [120, 10, 1] ∧
        (after.relay.stream .guest).sent = [7] ∧
        ((after.relay.stream .client).leaving = [] ∧ (after.relay.stream .guest).leaving = []) ∧
        (after.relay.Stuck 8 .client ∧ after.relay.Stuck 8 .guest) :=
    ⟨_, rfl, rfl, rfl, rfl, rfl, ⟨rfl, rfl⟩, by decide⟩
  have quiescent : after.relay.Quiescent .proxy 8 := by
    refine Relay.quiescent_of_stuck (fun side => ?_) (by simp)
    cases side with
    | client => exact stuck.1
    | guest => exact stuck.2
  have settled : after.Settled 8 := by
    refine ⟨fun action is_daemon => ?_, read.1, fun _ => read.2⟩
    cases action with
    | relay action =>
        rw [step, quiescent action is_daemon]
        exact ite_self _
    | _ => simp [step, proxying]
  have accepts : ∀ action ∈ relayedAnswer, GuestAccepts action := by
    simp [relayedAnswer, GuestAccepts]
  have guarded : Guarded (step 8) (fun _ => GuestAccepts) relayedAnswer start :=
    guarded_of_forall (fun action member _ => accepts action member) start
  obtain ⟨-, -, -, transparent⟩ := dispatch_transparent.2.2 8 relayedAnswer after [120] [1]
    (by decide) guarded execution sent (by decide) (by decide) (by decide)
  obtain ⟨to_guest, to_client⟩ := transparent settled
  exact ⟨after, execution, settled, to_guest.trans sent, (to_client still_open).trans answered⟩

end ClientConnection

end Pelagos.Wire
