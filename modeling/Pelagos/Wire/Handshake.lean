import Pelagos.Library.Execution
import Pelagos.Library.Json
import Pelagos.Library.RelayedStream
import Pelagos.Wire.Commands
import Pelagos.Wire.PipedOutput
import Pelagos.Wire.Responses

/-!
# A connection that switches from lines to frames

The host sends one command as a line and waits for the ready line; then both sides exchange frames
on the same connection.  The guest reads the command with a buffered reader that it abandons, the
host keeps its buffered reader for both modes, and the daemon between them reads and writes in
pieces of its own.
-/

namespace Pelagos.Wire

open Frames Lines Serde

namespace Host

/-- The commands that switch the connection to frames. -/
def GuestCommand.switchesToFrames : GuestCommand → Bool
  | .exec .. | .execInto .. | .shell .. => true
  | .start _ interactive _ => interactive
  | _ => false

/-- The line that carries a command. -/
def commandLine (order : MapOrder String String) (cmd : GuestCommand) : List UInt8 :=
  Utf8.encode (cmd.toLine order ++ "\n")

/-- Where the host's command is. -/
inductive Phase where
  | starting
  | awaitingReady
  | framed
  | exited
  deriving DecidableEq

/-- `exec_command`. -/
structure ExecCommand where
  phase : Phase
  /-- The reader of the response lines and of the frames. -/
  reader : LineReader UInt8
  /-- What `read_guest_frames` has read. -/
  received : List UInt8
  sentFrames : List Frame

/-- What `exec_command` does after a line it got while it waits for the ready line. -/
def afterLine (line : List UInt8) : Phase :=
  match Utf8.decode line with
  | none => .exited
  | some text =>
      let trimmed := Text.trimEnd text
      if trimmed = "" then .awaitingReady
      else
        match GuestResponse.ofLine trimmed with
        | .ok (.ready true) => .framed
        | .ok (.error _) => .exited
        | .ok _ => .awaitingReady
        | .error _ => .exited

end Host

namespace Guest

/-- Where the guest's handler of the connection is. -/
inductive Phase where
  /-- The daemon has not connected yet. -/
  | unconnected
  | readingLine
  /-- `pull_image` of an exec. -/
  | pulling
  /-- The handler of a command that does not switch to frames. -/
  | serving
  /-- A new `FdReader` reads frames. -/
  | framed
  | closed
  deriving DecidableEq

/-- `handle_connection` and the handlers it calls. -/
structure Handler where
  phase : Phase
  /-- The reader of the command lines. -/
  reader : LineReader UInt8
  /-- What the `FdReader` of the frames has read. -/
  received : List UInt8
  sentFrames : List Frame

/-- What `handle_connection` parses of a line. -/
def trimLine (line : String) : String := Text.trimEndMatches '\r' (Text.trimEndMatches '\n' line)

end Guest

namespace Daemon

open Pelagos.Daemon (DaemonCmd DaemonResponse)

/-- Where the daemon's thread for the client is. -/
inductive Phase where
  /-- Reading the first line byte by byte. -/
  | readingLine
  | lineRead
  /-- Connected to the guest, writing the first line. -/
  | replaying
  | proxying
  | closed
  deriving DecidableEq

def daemonCmdOfVariant (variant : String) (members : Members) : Except DecodeError DaemonCmd :=
  match variant with
  | "RegisterPort" =>
      return .registerPort (← required uint16 "host_port" members)
        (← required uint16 "container_port" members)
  | "UnregisterPort" => return .unregisterPort (← required uint16 "host_port" members)
  | "TrackComposeProject" =>
      return .trackComposeProject (← required string "project" members)
        (← required (list uint16) "host_ports" members)
  | "UnregisterComposePorts" =>
      return .unregisterComposePorts (← required string "project" members)
  | other => .error (.unknownVariant other)

/-- The fields of a variant in the order of their declaration. -/
def daemonCmdFields : String → List String
  | "RegisterPort" => ["host_port", "container_port"]
  | "UnregisterPort" => ["host_port"]
  | "TrackComposeProject" => ["project", "host_ports"]
  | "UnregisterComposePorts" => ["project"]
  | _ => []

/-- A variant with its fields, which may also stand in an array. -/
def daemonCmd : Decoder DaemonCmd
  | .object [(variant, .array items)] =>
      if items.length = (daemonCmdFields variant).length then
        daemonCmdOfVariant variant ((daemonCmdFields variant).zip items)
      else .error .invalidType
  | json => externallyTagged daemonCmdOfVariant json

/-- The command for the daemon itself in a first line, if it is one. -/
def daemonCmdOfLine (line : List UInt8) : Except DecodeError DaemonCmd :=
  fromText daemonCmd (Text.trimEnd (Utf8.decodeLossy line))

def responseToJson : DaemonResponse → Json
  | .ok => tagged "status" "ok" []
  | .err message => tagged "status" "err" [("message", some (.string message))]

/-- The line `handle_daemon_cmd` answers with. -/
def responseLine (response : DaemonResponse) : String := (responseToJson response).toText ++ "\n"

/-- A first line of more bytes is dropped. -/
def lineLimit : Nat := 64 * 1024

end Daemon

/-- The host, the daemon and the guest on one connection. -/
structure Connection where
  host : Host.ExecCommand
  daemon : Daemon.Phase
  guest : Guest.Handler
  /-- From the host to the guest; what the daemon holds of it at first is the first line. -/
  up : RelayedStream UInt8
  /-- From the guest to the host. -/
  down : RelayedStream UInt8
  /-- The lines written towards the host. -/
  lines : List (List UInt8)

/-- One step of `exec_command`; a step that reads says how much the read returns at most. -/
inductive HostAction where
  | sendCommand
  | fill (size : Nat)
  /-- `read_line` goes through the buffer. -/
  | scan
  /-- `read_line` finds the end of the stream. -/
  | lineEnds
  | readFrames (size : Nat)
  /-- A read that is larger than the empty buffer goes past it. -/
  | readFramesDirect (size : Nat)
  | sendFrame (frame : Frame)
  /-- A failed read or write, or the exit frame. -/
  | exit

/-- From the client to the guest, or back. -/
inductive Direction where
  | up
  | down
  deriving DecidableEq

/-- One step of `handle_connection` of the daemon, or of a thread of `proxy`. -/
inductive DaemonAction where
  | readByte
  /-- The first line is a `DaemonCmd`. -/
  | handleDaemonCmd (response : Pelagos.Daemon.DaemonResponse)
  | connect
  | connectFails (message : String)
  | replay (size : Nat)
  | hangUp
  | copyRead (direction : Direction) (size : Nat)
  | copyWrite (direction : Direction) (size : Nat)
  | copyEnds (direction : Direction)

/-- One step of `handle_connection` of the guest, or of a thread of an exec. -/
inductive GuestAction where
  | fill (size : Nat)
  | scan
  | lineEnds
  /-- `pull_image` passes on a line of progress. -/
  | pullProgress (line : String)
  | pulled
  | pullFails (message : String)
  /-- Another handler answers. -/
  | respond (response : Guest.GuestResponse)
  | served
  | readFrames (size : Nat)
  | sendFrame (frame : Frame)
  | close

/-- A step of one of the three. -/
inductive Action where
  | host (action : HostAction)
  | daemon (action : DaemonAction)
  | guest (action : GuestAction)

namespace Connection

/-- The client has connected to the daemon. -/
def start : Connection where
  host := { phase := .starting, reader := .fresh, received := [], sentFrames := [] }
  daemon := .readingLine
  guest := { phase := .unconnected, reader := .fresh, received := [], sentFrames := [] }
  up := .idle
  down := .idle
  lines := []

/-! ## The host -/

def hostStep (order : MapOrder String String) (cmd : Host.GuestCommand) (connection : Connection) :
    HostAction → Option Connection
  | .sendCommand =>
      if connection.host.phase = .starting then
        some { connection with
          host := { connection.host with phase := .awaitingReady }
          up := connection.up.send (Host.commandLine order cmd) }
      else none
  | .fill size =>
      if (connection.host.phase = .awaitingReady ∨ connection.host.phase = .framed) ∧
          connection.host.reader.buffer = [] then
        some { connection with
          host := { connection.host with
            reader := connection.host.reader.fill (connection.down.leaving.take size) }
          down := connection.down.deliver size }
      else none
  | .scan =>
      if connection.host.phase = .awaitingReady then
        match connection.host.reader.scan Json.newline with
        | (none, reader) => some { connection with host := { connection.host with reader } }
        | (some line, reader) =>
            some { connection with
              host := { connection.host with phase := Host.afterLine line, reader } }
      else none
  | .lineEnds =>
      if connection.host.phase = .awaitingReady ∧ connection.host.reader.buffer = [] ∧
          connection.down.Drained then
        -- What stands before the end of the stream is the last line.
        let phase :=
          if connection.host.reader.started = [] then .exited
          else Host.afterLine connection.host.reader.started
        some { connection with host := { connection.host with phase, reader := .fresh } }
      else none
  | .readFrames size =>
      if connection.host.phase = .framed then
        some { connection with
          host := { connection.host with
            reader := { connection.host.reader with
              buffer := connection.host.reader.buffer.drop size }
            received := connection.host.received ++ connection.host.reader.buffer.take size } }
      else none
  | .readFramesDirect size =>
      if connection.host.phase = .framed ∧ connection.host.reader.buffer = [] then
        some { connection with
          host := { connection.host with
            received := connection.host.received ++ connection.down.leaving.take size }
          down := connection.down.deliver size }
      else none
  | .sendFrame frame =>
      if connection.host.phase = .framed then
        some { connection with
          host := { connection.host with sentFrames := connection.host.sentFrames ++ [frame] }
          up := connection.up.send (Host.sendFrame frame) }
      else none
  | .exit =>
      if connection.host.phase = .starting then none
      else some { connection with host := { connection.host with phase := .exited } }

/-! ## Lines towards the host -/

/-- Write a line towards the host. -/
def answer (connection : Connection) (line : String) : Connection :=
  { connection with
    down := connection.down.send (Utf8.encode line)
    lines := connection.lines ++ [Utf8.encode line] }

/-! ## The daemon -/

/-- Close both sides. -/
def hangUp (connection : Connection) : Connection :=
  { connection with
    daemon := .closed
    up := connection.up.finish
    down := connection.down.finish }

/-- The daemon itself writes the client a line and hangs up. -/
def writeBack (connection : Connection) (line : String) : Connection :=
  let answered := connection.answer line
  hangUp { answered with down := answered.down.flush }

/-- Change one direction. -/
def modify (connection : Connection) (direction : Direction)
    (change : RelayedStream UInt8 → RelayedStream UInt8) : Connection :=
  match direction with
  | .up => { connection with up := change connection.up }
  | .down => { connection with down := change connection.down }

def daemonStep (connection : Connection) : DaemonAction → Option Connection
  | .readByte =>
      if connection.daemon = .readingLine then
        match connection.up.entering with
        | [] => none
        | byte :: _ =>
            let read := { connection with up := connection.up.takeIn 1 }
            if byte = Json.newline then some { read with daemon := .lineRead }
            else if Daemon.lineLimit < read.up.held.length then some read.hangUp
            else some read
      else none
  | .handleDaemonCmd response =>
      if connection.daemon = .lineRead ∧ (Daemon.daemonCmdOfLine connection.up.held).isOk then
        some (connection.writeBack (Daemon.responseLine response))
      else none
  | .connect =>
      if connection.daemon = .lineRead ∧ ¬(Daemon.daemonCmdOfLine connection.up.held).isOk then
        some { connection with
          daemon := .replaying
          guest := { connection.guest with phase := .readingLine } }
      else none
  | .connectFails message =>
      if connection.daemon = .lineRead ∧ ¬(Daemon.daemonCmdOfLine connection.up.held).isOk then
        some (connection.writeBack (connectFailedLine message))
      else none
  | .replay size =>
      if connection.daemon = .replaying then
        let up := connection.up.passOn size
        some { connection with up, daemon := if up.held = [] then .proxying else .replaying }
      else none
  | .hangUp => if connection.daemon = .closed then none else some connection.hangUp
  | .copyRead direction size =>
      if connection.daemon = .proxying then
        some (connection.modify direction fun stream => stream.takeIn size)
      else none
  | .copyWrite direction size =>
      if connection.daemon = .proxying then
        some (connection.modify direction fun stream => stream.passOn size)
      else none
  | .copyEnds direction =>
      if connection.daemon = .proxying then
        some (connection.modify direction RelayedStream.finish)
      else none

/-! ## The guest -/

/-- The guest's handler goes on to another phase. -/
def enter (connection : Connection) (phase : Guest.Phase) : Connection :=
  { connection with guest := { connection.guest with phase } }

/-- Send the ready line and start the threads that exchange frames. -/
def sendReady (connection : Connection) : Connection :=
  (connection.answer (Guest.sendResponse (.ready true))).enter .framed

/-- The `match cmd` of `handle_connection`. -/
def handleCommand (connection : Connection) : Guest.GuestCommand → Connection
  | .exec .. => connection.enter .pulling
  | .execInto _ args .. =>
      if args = [] then
        (connection.answer (Guest.sendResponse (.error "exec: no command specified"))).enter .closed
      else connection.sendReady
  | .shell .. => connection.sendReady
  | .start _ interactive _ =>
      if interactive then connection.sendReady else connection.enter .serving
  | _ => connection.enter .serving

/-- What `handle_connection` does with a line. -/
def handleLine (errorText : DecodeError → String) (connection : Connection) (line : List UInt8) :
    Connection :=
  match Utf8.decode line with
  | none => connection.enter .closed
  | some text =>
      let trimmed := Guest.trimLine text
      if trimmed = "" then connection
      else
        match Guest.GuestCommand.ofLine trimmed with
        | .error error =>
            connection.answer (Guest.sendResponse (.error ("parse error: " ++ errorText error)))
        | .ok cmd => connection.handleCommand cmd

def guestStep (errorText : DecodeError → String) (connection : Connection) :
    GuestAction → Option Connection
  | .fill size =>
      if connection.guest.phase = .readingLine ∧ connection.guest.reader.buffer = [] then
        some { connection with
          guest := { connection.guest with
            reader := connection.guest.reader.fill (connection.up.leaving.take size) }
          up := connection.up.deliver size }
      else none
  | .scan =>
      if connection.guest.phase = .readingLine then
        match connection.guest.reader.scan Json.newline with
        | (none, reader) => some { connection with guest := { connection.guest with reader } }
        | (some line, reader) =>
            let read := { connection with guest := { connection.guest with reader } }
            some (read.handleLine errorText line)
      else none
  | .lineEnds =>
      if connection.guest.phase = .readingLine ∧ connection.guest.reader.buffer = [] ∧
          connection.up.Drained then
        if connection.guest.reader.started = [] then some (connection.enter .closed)
        else
          let read := { connection with guest := { connection.guest with reader := .fresh } }
          some (read.handleLine errorText connection.guest.reader.started)
      else none
  | .pullProgress line =>
      if connection.guest.phase = .pulling then
        some (connection.answer (Guest.sendResponse (.stream .stderr (line ++ "\n"))))
      else none
  | .pulled => if connection.guest.phase = .pulling then some connection.sendReady else none
  | .pullFails message =>
      if connection.guest.phase = .pulling then
        some ((connection.answer (Guest.sendResponse (.error message))).enter .closed)
      else none
  | .respond response =>
      -- Only the handlers of the switching commands send `Ready`.
      if connection.guest.phase = .serving ∧ ∀ ready, response ≠ .ready ready then
        some (connection.answer (Guest.sendResponse response))
      else none
  | .served =>
      if connection.guest.phase = .serving then some (connection.enter .readingLine) else none
  | .readFrames size =>
      if connection.guest.phase = .framed then
        some { connection with
          guest := { connection.guest with
            received := connection.guest.received ++ connection.up.leaving.take size }
          up := connection.up.deliver size }
      else none
  | .sendFrame frame =>
      if connection.guest.phase = .framed then
        some { connection with
          guest := { connection.guest with sentFrames := connection.guest.sentFrames ++ [frame] }
          down := connection.down.send (Guest.sendFrame frame) }
      else none
  | .close =>
      if connection.guest.phase = .unconnected then none else some (connection.enter .closed)

/-- One step of any party. -/
def step (order : MapOrder String String) (errorText : DecodeError → String)
    (cmd : Host.GuestCommand) (connection : Connection) : Action → Option Connection
  | .host action => connection.hostStep order cmd action
  | .daemon action => connection.daemonStep action
  | .guest action => connection.guestStep errorText action

end Connection

/-! ## The lines of the handshake -/

theorem isLine_commandLine (order : MapOrder String String) (cmd : Host.GuestCommand) :
    IsLine Json.newline (Host.commandLine order cmd) :=
  Json.isLine_toText (fits_command order cmd)

theorem trimLine_commandLine (order : MapOrder String String) (cmd : Host.GuestCommand) :
    Guest.trimLine (cmd.toLine order ++ "\n") = cmd.toLine order := by
  have unterminated : Text.trimEndMatches '\n' (cmd.toLine order ++ "\n") = cmd.toLine order :=
    Json.trimEndWhere_object_line (by decide) (by decide) _
  obtain ⟨front, ends⟩ := Json.toText_object_ends (record (("cmd", _) :: cmd.fields order))
  rw [Guest.trimLine, unterminated]
  exact Text.trimEndWhere_keep (by decide) ends

theorem ofLine_toLine (order : MapOrder String String) (cmd : Host.GuestCommand) :
    Guest.GuestCommand.ofLine (cmd.toLine order) = .ok (mirror cmd) := by
  rw [Guest.GuestCommand.ofLine, fromText, Host.GuestCommand.toLine,
    Json.parse_toText (fits_command order cmd)]
  exact internallyTagged_command order cmd

/-- The guest takes the command line for the command. -/
theorem handleLine_commandLine (order : MapOrder String String) (errorText : DecodeError → String)
    (cmd : Host.GuestCommand) (connection : Connection) :
    connection.handleLine errorText (Host.commandLine order cmd) =
      connection.handleCommand (mirror cmd) := by
  have filled : cmd.toLine order ≠ "" := Json.toText_object_ne_empty _
  simp only [Connection.handleLine, Host.commandLine, Utf8.decode_encode, trimLine_commandLine,
    if_neg filled, ofLine_toLine]

theorem isLine_response (response : Guest.GuestResponse) :
    IsLine Json.newline (Utf8.encode (Guest.sendResponse response)) :=
  Json.isLine_toText (fits_response 0 response)

theorem trimEnd_sendResponse (response : Guest.GuestResponse) :
    Text.trimEnd (Guest.sendResponse response) = response.toJson.toText := by
  obtain ⟨members, is_object⟩ : ∃ members, response.toJson = .object members := by
    cases response <;> exact ⟨_, rfl⟩
  rw [Guest.sendResponse, is_object]
  exact Json.trimEndWhere_object_line (by decide) (by decide) members

theorem toText_response_ne_empty (response : Guest.GuestResponse) :
    response.toJson.toText ≠ "" := by
  obtain ⟨members, is_object⟩ : ∃ members, response.toJson = .object members := by
    cases response <;> exact ⟨_, rfl⟩
  rw [is_object]
  exact Json.toText_object_ne_empty members

theorem ofLine_response (response : Guest.GuestResponse) :
    Host.GuestResponse.ofLine response.toJson.toText = .ok (mirrorResponse response) := by
  rw [Host.GuestResponse.ofLine, fromText, Json.parse_toText (fits_response 125 response)]
  exact ofVariant_toJson response

/-- The host leaves the line mode only at the ready line. -/
theorem afterLine_response (response : Guest.GuestResponse) :
    Host.afterLine (Utf8.encode (Guest.sendResponse response)) =
      match mirrorResponse response with
      | .ready true => .framed
      | .error _ => .exited
      | _ => .awaitingReady := by
  simp only [Host.afterLine, Utf8.decode_encode, trimEnd_sendResponse,
    if_neg (toText_response_ne_empty response), ofLine_response]
  split <;> simp_all

theorem afterLine_response_eq_framed {response : Guest.GuestResponse} :
    Host.afterLine (Utf8.encode (Guest.sendResponse response)) = .framed ↔
      response = .ready true := by
  rw [afterLine_response]
  cases response with
  | ready ready => cases ready <;> simp [mirrorResponse]
  | _ => simp [mirrorResponse]

theorem isLine_connectFailed (message : String) :
    IsLine Json.newline (Utf8.encode (connectFailedLine message)) := by
  have fits : (Json.object [("error", .string message)]).Fits 1 := by
    rintro member is_member
    obtain rfl := List.mem_singleton.mp is_member
    exact fits_string _ _
  rw [connectFailedLine_eq]
  exact Json.isLine_toText fits

theorem isLine_daemonResponse (response : Pelagos.Daemon.DaemonResponse) :
    IsLine Json.newline (Utf8.encode (Daemon.responseLine response)) := by
  have fits : (Daemon.responseToJson response).Fits 1 := by
    cases response <;> refine fits_record ?_ <;> simp
  exact Json.isLine_toText fits

end Pelagos.Wire
