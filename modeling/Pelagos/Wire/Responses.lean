import Pelagos.Daemon.ExitWatch
import Pelagos.Library.Serde

/-!
# Responses and events on the wire

The guest answers a command with lines of `GuestResponse` and feeds a subscription with lines of
`GuestEvent`; the host and the port watcher read them with types of their own.  One more line is
written by hand: the daemon's answer when it cannot connect to the guest.  That line has the shape
of the fields of an error response but not of the response.
-/

namespace Pelagos.Wire

open Serde

namespace Guest

/-- The output stream a piece of output belongs to. -/
inductive StreamKind where
  | stdout
  | stderr
  deriving DecidableEq

/-- The responses the guest sends. -/
inductive GuestResponse where
  | stream (stream : StreamKind) (data : String)
  | exit (exit : Int32)
  | pong (pong : Bool)
  | error (error : String)
  | ready (ready : Bool)
  | rawBytes (size : UInt64)
  | versionInfo (guest : String) (runtime kernel : Option String)
  | kubernetesStatus (running : Bool)
  deriving DecidableEq

/-- The name of a unit variant, which stands for the variant. -/
def StreamKind.variant : StreamKind → String
  | stdout => "stdout"
  | stderr => "stderr"

def GuestResponse.toJson : GuestResponse → Json
  | stream kind data =>
      variantObject "stream"
        [("stream", some (.string kind.variant)), ("data", some (.string data))]
  | exit code => variantObject "exit" [("exit", some (ofInt32 code))]
  | pong value => variantObject "pong" [("pong", some (.bool value))]
  | error message => variantObject "error" [("error", some (.string message))]
  | ready value => variantObject "ready" [("ready", some (.bool value))]
  | rawBytes size => variantObject "raw_bytes" [("size", some (ofUInt64 size))]
  | versionInfo guest runtime kernel =>
      variantObject "version_info"
        [("guest", some (.string guest)), ("runtime", runtime.map .string),
          ("kernel", kernel.map .string)]
  | kubernetesStatus running =>
      variantObject "kubernetes_status" [("running", some (.bool running))]

/-- `send_response`. -/
def sendResponse (response : GuestResponse) : String := response.toJson.toText ++ "\n"

/-- A container record as the guest writes it. -/
def snapshotToJson (container : Pelagos.Guest.ContainerSnapshot) : Json :=
  .object (record
    [("name", some (.string container.name)),
      ("status", some (.string container.status)),
      ("pid", some (ofInt32 container.pid)),
      ("rootfs", some (.string container.rootfs)),
      ("started_at", some (.string container.startedAt)),
      ("exit_code", some (ofOption ofInt32 container.exitCode)),
      ("ports", some (ofList .string container.ports))])

def eventToJson : Pelagos.Guest.GuestEvent → Json
  | .snapshot containers vmRunning =>
      tagged "type" "snapshot"
        [("containers", some (ofList snapshotToJson containers)),
          ("vm_running", some (.bool vmRunning))]
  | .containerStarted container =>
      tagged "type" "container_started" [("container", some (snapshotToJson container))]
  | .containerExited name exitCode =>
      tagged "type" "container_exited"
        [("name", some (.string name)), ("exit_code", some (ofOption ofInt32 exitCode))]
  | .heartbeat ts => tagged "type" "heartbeat" [("ts", some (ofUInt64 ts))]

/-- `send_event`. -/
def sendEvent (event : Pelagos.Guest.GuestEvent) : String := (eventToJson event).toText ++ "\n"

end Guest

namespace Host

/-- The responses the host understands. -/
inductive GuestResponse where
  | stream (stream data : String)
  | exit (exit : Int32)
  | pong (pong : Bool)
  | error (error : String)
  | ready (ready : Bool)
  | kubernetesStatus (running : Bool)
  | rawBytes (size : UInt64)
  | versionInfo (guest : String) (runtime kernel : Option String)
  deriving DecidableEq

namespace GuestResponse

def ofVariant (variant : String) (members : Members) : Except DecodeError GuestResponse :=
  match variant with
  | "stream" =>
      return .stream (← required string "stream" members) (← required string "data" members)
  | "exit" => return .exit (← required int32 "exit" members)
  | "pong" => return .pong (← required bool "pong" members)
  | "error" => return .error (← required string "error" members)
  | "ready" => return .ready (← required bool "ready" members)
  | "kubernetes_status" => return .kubernetesStatus (← required bool "running" members)
  | "raw_bytes" => return .rawBytes (← required uint64 "size" members)
  | "version_info" =>
      return .versionInfo (← defaulted string "" "guest" members)
        (← defaulted (option string) none "runtime" members)
        (← defaulted (option string) none "kernel" members)
  | other => .error (.unknownVariant other)

/-- Read a line of the guest. -/
def ofLine (line : String) : Except DecodeError GuestResponse :=
  fromText (externallyTagged ofVariant) line

end GuestResponse

end Host

namespace Watcher

open Daemon (WatchContainer WatchEvent)

def containerOfJson : Decoder WatchContainer
  | .object members =>
      return {
        name := ← required string "name" members
        ports := ← defaulted (list string) [] "ports" members }
  | _ => .error .invalidType

def eventOfVariant (variant : String) (members : Members) : Except DecodeError WatchEvent :=
  match variant with
  | "snapshot" => return .snapshot (← required (list containerOfJson) "containers" members)
  | "container_started" => return .containerStarted (← required containerOfJson "container" members)
  | "container_exited" => return .containerExited (← required string "name" members)
  | _ => return .unknown

/-- Read a line of a subscription. -/
def eventOfLine (line : String) : Except DecodeError WatchEvent :=
  fromText (internallyTagged "type" eventOfVariant) line

end Watcher

/-- The line `handle_connection` writes when it cannot connect to the guest. -/
def connectFailedLine (message : String) : String :=
  "\x7b\"error\":" ++ (Json.string message).toText ++ "\x7d\n"

/-- The host's response of the same name with the same fields. -/
def mirrorResponse : Guest.GuestResponse → Host.GuestResponse
  | .stream stream data => .stream stream.variant data
  | .exit exit => .exit exit
  | .pong pong => .pong pong
  | .error error => .error error
  | .ready ready => .ready ready
  | .rawBytes size => .rawBytes size
  | .versionInfo guest runtime kernel => .versionInfo guest runtime kernel
  | .kubernetesStatus running => .kubernetesStatus running

/-- A line that reaches the host or the watcher. -/
inductive IncomingLine where
  | response (response : Guest.GuestResponse)
  | event (event : Pelagos.Guest.GuestEvent)
  | connectFailed (message : String)

/-- The line is read as what it was meant to say. -/
def IncomingLine.Understood : IncomingLine → Prop
  | response sent => Host.GuestResponse.ofLine (Guest.sendResponse sent) = .ok (mirrorResponse sent)
  | event sent => Watcher.eventOfLine (Guest.sendEvent sent) = .ok (.ofGuest sent)
  | connectFailed message =>
      Host.GuestResponse.ofLine (connectFailedLine message) = .ok (.error message)

/-! ## Responses -/

theorem ofVariant_toJson (response : Guest.GuestResponse) :
    externallyTagged Host.GuestResponse.ofVariant response.toJson =
      .ok (mirrorResponse response) := by
  cases response <;> simp [Guest.GuestResponse.toJson, Host.GuestResponse.ofVariant, mirrorResponse]

theorem fits_response (depth : Nat) (response : Guest.GuestResponse) :
    response.toJson.Fits (depth + 2) := by
  cases response <;> refine fits_variantObject ?_ <;> simp

/-- The host reads every response the guest sends. -/
theorem response_understood (response : Guest.GuestResponse) :
    (IncomingLine.response response).Understood := by
  rw [IncomingLine.Understood, Host.GuestResponse.ofLine, Guest.sendResponse, fromText,
    Json.parse_line (fits_response 125 response)]
  exact ofVariant_toJson response

/-! ## Events -/

theorem containerOfJson_snapshotToJson (container : Pelagos.Guest.ContainerSnapshot) :
    Watcher.containerOfJson (Guest.snapshotToJson container) =
      .ok { name := container.name, ports := container.ports } := by
  rw [Guest.snapshotToJson, Watcher.containerOfJson]
  simp

@[simp]
theorem list_snapshots (containers : List Pelagos.Guest.ContainerSnapshot) :
    list Watcher.containerOfJson (ofList Guest.snapshotToJson containers) =
      .ok (containers.map fun container => { name := container.name, ports := container.ports }) :=
  list_ofList containerOfJson_snapshotToJson containers

theorem eventOfVariant_eventToJson (event : Pelagos.Guest.GuestEvent) :
    internallyTagged "type" Watcher.eventOfVariant (Guest.eventToJson event) =
      .ok (.ofGuest event) := by
  cases event with
  | snapshot containers vmRunning =>
      rw [Guest.eventToJson, internallyTagged_tagged _ (by simp)]
      simp [Watcher.eventOfVariant, Daemon.WatchEvent.ofGuest]
  | containerStarted container =>
      rw [Guest.eventToJson, internallyTagged_tagged _ (by simp)]
      simp [Watcher.eventOfVariant, Daemon.WatchEvent.ofGuest, containerOfJson_snapshotToJson]
  | containerExited name exitCode =>
      rw [Guest.eventToJson, internallyTagged_tagged _ (by simp)]
      simp [Watcher.eventOfVariant, Daemon.WatchEvent.ofGuest]
  | heartbeat ts =>
      rw [Guest.eventToJson, internallyTagged_tagged _ (by simp)]
      simp [Watcher.eventOfVariant, Daemon.WatchEvent.ofGuest]

@[simp]
theorem fits_snapshot (depth : Nat) (container : Pelagos.Guest.ContainerSnapshot) :
    (Guest.snapshotToJson container).Fits (depth + 2) := by
  refine fits_record ?_
  simp

@[simp]
theorem fits_snapshots (depth : Nat) (containers : List Pelagos.Guest.ContainerSnapshot) :
    (ofList Guest.snapshotToJson containers).Fits (depth + 3) :=
  fits_ofList fun container _ => fits_snapshot depth container

theorem fits_event (depth : Nat) (event : Pelagos.Guest.GuestEvent) :
    (Guest.eventToJson event).Fits (depth + 4) := by
  cases event <;> refine fits_record ?_ <;> simp

/-- The watcher reads every event of a subscription. -/
theorem event_understood (event : Pelagos.Guest.GuestEvent) :
    (IncomingLine.event event).Understood := by
  rw [IncomingLine.Understood, Watcher.eventOfLine, Guest.sendEvent, fromText,
    Json.parse_line (fits_event 123 event)]
  exact eventOfVariant_eventToJson event

/-! ## The daemon's line -/

/-- The line is an object whose member `error` is a text. -/
theorem connectFailedLine_eq (message : String) :
    connectFailedLine message = (Json.object [("error", .string message)]).toText ++ "\n" := by
  refine String.toList_inj.mp ?_
  simp [connectFailedLine, Json.toText, Json.print, Json.printMembers, Json.commaJoin,
    Json.printString, Json.escape]

theorem connectFailedLine_refused (message : String) :
    Host.GuestResponse.ofLine (connectFailedLine message) = .error .invalidType := by
  have fits : (Json.object [("error", .string message)]).Fits Json.depthLimit := by
    rintro member is_member
    obtain rfl := List.mem_singleton.mp is_member
    exact fits_string _ _
  rw [connectFailedLine_eq, Host.GuestResponse.ofLine, fromText, Json.parse_line fits]
  rfl

/-- Every response of the guest and every event is read as what it says; the line about a failed
connection never is. -/
theorem line_understood_iff (line : IncomingLine) :
    line.Understood ↔ ∀ message, line ≠ .connectFailed message := by
  cases line with
  | response response => exact iff_of_true (response_understood response) (by simp)
  | event event => exact iff_of_true (event_understood event) (by simp)
  | connectFailed message =>
      refine iff_of_false ?_ (by simp)
      rw [IncomingLine.Understood, connectFailedLine_refused]
      simp

/-- The guest has not started yet: the client gets a line that it cannot read. -/
theorem connect_refused_not_understood :
    ¬(IncomingLine.connectFailed "connection refused").Understood := by
  rw [IncomingLine.Understood, connectFailedLine_refused]
  simp

end Pelagos.Wire
