import Pelagos.CommandLine.Mounts
import Pelagos.Library.Serde

/-!
# Commands on the wire

The host serialises a `GuestCommand` to one line of JSON and the guest deserialises it with an
enumeration of its own.  The two agree on the names of the variants and of the fields, and what the
host leaves out is what the guest fills in.
-/

namespace Pelagos.Wire

open Serde

namespace Host

open CommandLine (GuestMount)

/-- The commands the host sends. -/
inductive GuestCommand where
  | run (image : String) (args : List String) (mounts : List GuestMount) (name : Option String)
      (detach : Bool) (env : HashMap String String) (labels publish : List String)
      (network : Option String) (dns : List String)
  | exec (image : String) (args : List String) (env : HashMap String String) (tty : Bool)
      (name : Option String) (mounts : List GuestMount) (labels publish : List String)
      (network : Option String) (dns : List String)
  | execInto (container : String) (args : List String) (env : HashMap String String) (tty : Bool)
      (workdir : Option String)
  | shell (tty : Bool)
  | ps (all json : Bool)
  | logs (name : String) (follow : Bool)
  | containerInspect (name : String)
  | containerPrune
  | start (name : String) (interactive : Bool) (cmdOverride : List String)
  | stop (name : String)
  | restart (name : String) (time : UInt64)
  | rm (name : String) (force : Bool)
  | ping
  | version
  | subscribe
  | kubernetesStatus
  | kubernetesStart
  | kubernetesStop
  | build (tag dockerfile : String) (buildArgs : List String) (noCache : Bool)
      (contextSize : UInt64)
  | volume (sub : String) (name : Option String)
  | network (sub : String) (args : List String)
  | cpFrom (container src : String)
  | cpTo (container dst : String) (dataSize : UInt64)
  | imageLs (json : Bool)
  | imagePull (reference : String)
  | imageRm (reference : String)
  | imageTag (source target : String)
  | imageInspect (reference : String)
  | imageLogin (registry username password : String)
  | imageLogout (registry : String)
  | compose (subcommand file workingDir : String) (project : Option String) (args : List String)
      (env : HashMap String String)

/-- A mount as the host writes it. -/
def mountToJson (mount : GuestMount) : Json :=
  .object (record
    [("tag", some (.string mount.tag)),
      ("subpath", skipIf mount.subpath.isEmpty (.string mount.subpath)),
      ("container_path", some (.string mount.containerPath))])

def stringsToJson : List String → Json := ofList .string

def mountsToJson : List GuestMount → Json := ofList mountToJson

namespace GuestCommand

/-- The name of the variant in snake case. -/
def variant : GuestCommand → String
  | run .. => "run"
  | exec .. => "exec"
  | execInto .. => "exec_into"
  | shell .. => "shell"
  | ps .. => "ps"
  | logs .. => "logs"
  | containerInspect .. => "container_inspect"
  | containerPrune => "container_prune"
  | start .. => "start"
  | stop .. => "stop"
  | restart .. => "restart"
  | rm .. => "rm"
  | ping => "ping"
  | version => "version"
  | subscribe => "subscribe"
  | kubernetesStatus => "kubernetes_status"
  | kubernetesStart => "kubernetes_start"
  | kubernetesStop => "kubernetes_stop"
  | build .. => "build"
  | volume .. => "volume"
  | network .. => "network"
  | cpFrom .. => "cp_from"
  | cpTo .. => "cp_to"
  | imageLs .. => "image_ls"
  | imagePull .. => "image_pull"
  | imageRm .. => "image_rm"
  | imageTag .. => "image_tag"
  | imageInspect .. => "image_inspect"
  | imageLogin .. => "image_login"
  | imageLogout .. => "image_logout"
  | compose .. => "compose"

/-- The fields of the variant; `none` for one that is skipped. -/
def fields (order : MapOrder String String) : GuestCommand → List (String × Option Json)
  | run image args mounts name detach env labels publish net dns =>
      [("image", some (.string image)),
        ("args", some (stringsToJson args)),
        ("mounts", skipIf mounts.isEmpty (mountsToJson mounts)),
        ("name", name.map .string),
        ("detach", skipIf (!detach) (.bool detach)),
        ("env", skipIf (order.entries env).isEmpty (ofMap order .string env)),
        ("labels", skipIf labels.isEmpty (stringsToJson labels)),
        ("publish", skipIf publish.isEmpty (stringsToJson publish)),
        ("network", net.map .string),
        ("dns", skipIf dns.isEmpty (stringsToJson dns))]
  | exec image args env tty name mounts labels publish net dns =>
      [("image", some (.string image)),
        ("args", some (stringsToJson args)),
        ("env", some (ofMap order .string env)),
        ("tty", some (.bool tty)),
        ("name", name.map .string),
        ("mounts", skipIf mounts.isEmpty (mountsToJson mounts)),
        ("labels", skipIf labels.isEmpty (stringsToJson labels)),
        ("publish", skipIf publish.isEmpty (stringsToJson publish)),
        ("network", net.map .string),
        ("dns", skipIf dns.isEmpty (stringsToJson dns))]
  | execInto container args env tty workdir =>
      [("container", some (.string container)),
        ("args", some (stringsToJson args)),
        ("env", some (ofMap order .string env)),
        ("tty", some (.bool tty)),
        ("workdir", some (ofOption .string workdir))]
  | shell tty => [("tty", skipIf (!tty) (.bool tty))]
  | ps all json => [("all", skipIf (!all) (.bool all)), ("json", skipIf (!json) (.bool json))]
  | logs name follow =>
      [("name", some (.string name)), ("follow", skipIf (!follow) (.bool follow))]
  | containerInspect name => [("name", some (.string name))]
  | containerPrune => []
  | start name interactive cmdOverride =>
      [("name", some (.string name)),
        ("interactive", skipIf (!interactive) (.bool interactive)),
        ("cmd_override", skipIf cmdOverride.isEmpty (stringsToJson cmdOverride))]
  | stop name => [("name", some (.string name))]
  | restart name time => [("name", some (.string name)), ("time", some (ofUInt64 time))]
  | rm name force => [("name", some (.string name)), ("force", skipIf (!force) (.bool force))]
  | ping => []
  | version => []
  | subscribe => []
  | kubernetesStatus => []
  | kubernetesStart => []
  | kubernetesStop => []
  | build tag dockerfile buildArgs noCache contextSize =>
      [("tag", some (.string tag)),
        ("dockerfile", some (.string dockerfile)),
        ("build_args", skipIf buildArgs.isEmpty (stringsToJson buildArgs)),
        ("no_cache", skipIf (!noCache) (.bool noCache)),
        ("context_size", some (ofUInt64 contextSize))]
  | volume sub name => [("sub", some (.string sub)), ("name", name.map .string)]
  | network sub args =>
      [("sub", some (.string sub)), ("args", skipIf args.isEmpty (stringsToJson args))]
  | cpFrom container src =>
      [("container", some (.string container)), ("src", some (.string src))]
  | cpTo container dst dataSize =>
      [("container", some (.string container)),
        ("dst", some (.string dst)),
        ("data_size", some (ofUInt64 dataSize))]
  | imageLs json => [("json", skipIf (!json) (.bool json))]
  | imagePull reference => [("reference", some (.string reference))]
  | imageRm reference => [("reference", some (.string reference))]
  | imageTag source target =>
      [("source", some (.string source)), ("target", some (.string target))]
  | imageInspect reference => [("reference", some (.string reference))]
  | imageLogin registry username password =>
      [("registry", some (.string registry)),
        ("username", some (.string username)),
        ("password", some (.string password))]
  | imageLogout registry => [("registry", some (.string registry))]
  | compose subcommand file workingDir project args env =>
      [("subcommand", some (.string subcommand)),
        ("file", some (.string file)),
        ("working_dir", some (.string workingDir)),
        ("project", project.map .string),
        ("args", skipIf args.isEmpty (stringsToJson args)),
        ("env", skipIf (order.entries env).isEmpty (ofMap order .string env))]

/-- `serde_json::to_string` of a command. -/
def toLine (order : MapOrder String String) (cmd : GuestCommand) : String :=
  (tagged "cmd" cmd.variant (cmd.fields order)).toText

end GuestCommand

end Host

namespace Guest

/-- A mount to apply inside the container. -/
structure GuestMount where
  tag : String
  subpath : String
  containerPath : String
  deriving DecidableEq

/-- The commands the guest understands. -/
inductive GuestCommand where
  | run (image : String) (args : List String) (env : HashMap String String)
      (mounts : List GuestMount) (name : Option String) (detach : Bool)
      (labels publish : List String) (network : Option String) (dns : List String)
  | exec (image : String) (args : List String) (env : HashMap String String) (tty : Bool)
      (name : Option String) (mounts : List GuestMount) (labels publish : List String)
      (network : Option String) (dns : List String)
  | execInto (container : String) (args : List String) (env : HashMap String String) (tty : Bool)
      (workdir : Option String)
  | ps (all json : Bool)
  | logs (name : String) (follow : Bool)
  | containerInspect (name : String)
  | containerPrune
  | start (name : String) (interactive : Bool) (cmdOverride : List String)
  | stop (name : String)
  | restart (name : String) (time : UInt64)
  | rm (name : String) (force : Bool)
  | shell (tty : Bool)
  | ping
  | version
  | build (tag dockerfile : String) (buildArgs : List String) (noCache : Bool)
      (contextSize : UInt64)
  | volume (sub : String) (name : Option String)
  | network (sub : String) (args : List String)
  | cpFrom (container src : String)
  | cpTo (container dst : String) (dataSize : UInt64)
  | subscribe
  | imageLs (json : Bool)
  | imagePull (reference : String)
  | imageRm (reference : String)
  | imageTag (source target : String)
  | imageInspect (reference : String)
  | imageLogin (registry username password : String)
  | imageLogout (registry : String)
  | compose (subcommand file workingDir : String) (project : Option String) (args : List String)
      (env : HashMap String String)
  | kubernetesStatus
  | kubernetesStart
  | kubernetesStop

/-- `default_dockerfile`. -/
def defaultDockerfile : String := "Dockerfile"

/-- `default_restart_time`. -/
def defaultRestartTime : UInt64 := 10

/-- A mount as the guest reads it. -/
def mountOfJson : Decoder GuestMount
  | .object members =>
      return {
        tag := ← required string "tag" members
        subpath := ← defaulted string "" "subpath" members
        containerPath := ← required string "container_path" members }
  | _ => .error .invalidType

namespace GuestCommand

/-- Read the fields of a variant. -/
def ofVariant (variant : String) (members : Members) : Except DecodeError GuestCommand :=
  match variant with
  | "run" =>
      return .run (← required string "image" members)
        (← required (list string) "args" members)
        (← defaulted (map string) ∅ "env" members)
        (← defaulted (list mountOfJson) [] "mounts" members)
        (← defaulted (option string) none "name" members)
        (← defaulted bool false "detach" members)
        (← defaulted (list string) [] "labels" members)
        (← defaulted (list string) [] "publish" members)
        (← defaulted (option string) none "network" members)
        (← defaulted (list string) [] "dns" members)
  | "exec" =>
      return .exec (← required string "image" members)
        (← required (list string) "args" members)
        (← defaulted (map string) ∅ "env" members)
        (← defaulted bool false "tty" members)
        (← defaulted (option string) none "name" members)
        (← defaulted (list mountOfJson) [] "mounts" members)
        (← defaulted (list string) [] "labels" members)
        (← defaulted (list string) [] "publish" members)
        (← defaulted (option string) none "network" members)
        (← defaulted (list string) [] "dns" members)
  | "exec_into" =>
      return .execInto (← required string "container" members)
        (← required (list string) "args" members)
        (← defaulted (map string) ∅ "env" members)
        (← defaulted bool false "tty" members)
        (← defaulted (option string) none "workdir" members)
  | "ps" =>
      return .ps (← defaulted bool false "all" members) (← defaulted bool false "json" members)
  | "logs" =>
      return .logs (← required string "name" members) (← defaulted bool false "follow" members)
  | "container_inspect" => return .containerInspect (← required string "name" members)
  | "container_prune" => return .containerPrune
  | "start" =>
      return .start (← required string "name" members)
        (← defaulted bool false "interactive" members)
        (← defaulted (list string) [] "cmd_override" members)
  | "stop" => return .stop (← required string "name" members)
  | "restart" =>
      return .restart (← required string "name" members)
        (← defaulted uint64 defaultRestartTime "time" members)
  | "rm" =>
      return .rm (← required string "name" members) (← defaulted bool false "force" members)
  | "shell" => return .shell (← defaulted bool false "tty" members)
  | "ping" => return .ping
  | "version" => return .version
  | "build" =>
      return .build (← required string "tag" members)
        (← defaulted string defaultDockerfile "dockerfile" members)
        (← defaulted (list string) [] "build_args" members)
        (← defaulted bool false "no_cache" members)
        (← required uint64 "context_size" members)
  | "volume" =>
      return .volume (← required string "sub" members)
        (← defaulted (option string) none "name" members)
  | "network" =>
      return .network (← required string "sub" members)
        (← defaulted (list string) [] "args" members)
  | "cp_from" =>
      return .cpFrom (← required string "container" members) (← required string "src" members)
  | "cp_to" =>
      return .cpTo (← required string "container" members) (← required string "dst" members)
        (← required uint64 "data_size" members)
  | "subscribe" => return .subscribe
  | "image_ls" => return .imageLs (← defaulted bool false "json" members)
  | "image_pull" => return .imagePull (← defaulted string "" "reference" members)
  | "image_rm" => return .imageRm (← defaulted string "" "reference" members)
  | "image_tag" =>
      return .imageTag (← defaulted string "" "source" members)
        (← defaulted string "" "target" members)
  | "image_inspect" => return .imageInspect (← defaulted string "" "reference" members)
  | "image_login" =>
      return .imageLogin (← required string "registry" members)
        (← required string "username" members) (← required string "password" members)
  | "image_logout" => return .imageLogout (← required string "registry" members)
  | "compose" =>
      return .compose (← required string "subcommand" members)
        (← required string "file" members)
        (← required string "working_dir" members)
        (← defaulted (option string) none "project" members)
        (← defaulted (list string) [] "args" members)
        (← defaulted (map string) ∅ "env" members)
  | "kubernetes_status" => return .kubernetesStatus
  | "kubernetes_start" => return .kubernetesStart
  | "kubernetes_stop" => return .kubernetesStop
  | other => .error (.unknownVariant other)

/-- `serde_json::from_str` of a command. -/
def ofLine (line : String) : Except DecodeError GuestCommand :=
  fromText (internallyTagged "cmd" ofVariant) line

end GuestCommand

end Guest

/-- The guest's mount with the same fields. -/
def mirrorMount (mount : CommandLine.GuestMount) : Guest.GuestMount :=
  { tag := mount.tag, subpath := mount.subpath, containerPath := mount.containerPath }

/-- The guest's command of the same name with the same fields. -/
def mirror : Host.GuestCommand → Guest.GuestCommand
  | .run image args mounts name detach env labels publish network dns =>
      .run image args env (mounts.map mirrorMount) name detach labels publish network dns
  | .exec image args env tty name mounts labels publish network dns =>
      .exec image args env tty name (mounts.map mirrorMount) labels publish network dns
  | .execInto container args env tty workdir => .execInto container args env tty workdir
  | .shell tty => .shell tty
  | .ps all json => .ps all json
  | .logs name follow => .logs name follow
  | .containerInspect name => .containerInspect name
  | .containerPrune => .containerPrune
  | .start name interactive cmdOverride => .start name interactive cmdOverride
  | .stop name => .stop name
  | .restart name time => .restart name time
  | .rm name force => .rm name force
  | .ping => .ping
  | .version => .version
  | .subscribe => .subscribe
  | .kubernetesStatus => .kubernetesStatus
  | .kubernetesStart => .kubernetesStart
  | .kubernetesStop => .kubernetesStop
  | .build tag dockerfile buildArgs noCache contextSize =>
      .build tag dockerfile buildArgs noCache contextSize
  | .volume sub name => .volume sub name
  | .network sub args => .network sub args
  | .cpFrom container src => .cpFrom container src
  | .cpTo container dst dataSize => .cpTo container dst dataSize
  | .imageLs json => .imageLs json
  | .imagePull reference => .imagePull reference
  | .imageRm reference => .imageRm reference
  | .imageTag source target => .imageTag source target
  | .imageInspect reference => .imageInspect reference
  | .imageLogin registry username password => .imageLogin registry username password
  | .imageLogout registry => .imageLogout registry
  | .compose subcommand file workingDir project args env =>
      .compose subcommand file workingDir project args env

theorem mountOfJson_mountToJson (mount : CommandLine.GuestMount) :
    Guest.mountOfJson (Host.mountToJson mount) = .ok (mirrorMount mount) := by
  simp only [Host.mountToJson, Guest.mountOfJson]
  simp [mirrorMount]

@[simp]
theorem list_stringsToJson (texts : List String) :
    list string (Host.stringsToJson texts) = .ok texts :=
  list_strings texts

@[simp]
theorem orDefault_stringsToJson (texts : List String) :
    orDefault (list string) [] (skipIf texts.isEmpty (Host.stringsToJson texts)) = .ok texts :=
  orDefault_skip_nil texts

@[simp]
theorem orDefault_mountsToJson (mounts : List CommandLine.GuestMount) :
    orDefault (list Guest.mountOfJson) [] (skipIf mounts.isEmpty (Host.mountsToJson mounts)) =
      .ok (mounts.map mirrorMount) :=
  orDefault_skipIf (fun empty => by rw [List.isEmpty_iff.mp empty, List.map_nil])
    (list_ofList mountOfJson_mountToJson mounts)

@[simp]
theorem map_ofMap_string (order : MapOrder String String) (env : HashMap String String) :
    map string (ofMap order .string env) = .ok env :=
  map_ofMap string_string env

@[simp]
theorem orDefault_ofMap_string (order : MapOrder String String) (env : HashMap String String) :
    orDefault (map string) ∅ (skipIf (order.entries env).isEmpty (ofMap order .string env)) =
      .ok env :=
  orDefault_skip_no_entry string_string env

/-- What the host writes for the fields of a command is what the guest reads them from. -/
theorem ofVariant_fields (order : MapOrder String String) (cmd : Host.GuestCommand) :
    Guest.GuestCommand.ofVariant cmd.variant (record (cmd.fields order)) = .ok (mirror cmd) := by
  unfold Guest.GuestCommand.ofVariant
  cases cmd <;> simp [Host.GuestCommand.variant, Host.GuestCommand.fields, mirror]

@[simp]
theorem fits_stringsToJson (depth : Nat) (texts : List String) :
    (Host.stringsToJson texts).Fits (depth + 1) :=
  fits_ofList_string depth texts

@[simp]
theorem fits_mountsToJson (depth : Nat) (mounts : List CommandLine.GuestMount) :
    (Host.mountsToJson mounts).Fits (depth + 2) := by
  refine fits_ofList fun mount _ => fits_record ?_
  simp

@[simp]
theorem fits_ofMap_string (depth : Nat) (order : MapOrder String String)
    (env : HashMap String String) : (ofMap order .string env).Fits (depth + 1) :=
  fits_ofMap (fits_string depth) env

theorem fits_fields (depth : Nat) (order : MapOrder String String) (cmd : Host.GuestCommand) :
    ∀ entry ∈ cmd.fields order, ∀ value ∈ entry.2, value.Fits (depth + 2) := by
  cases cmd <;> simp [Host.GuestCommand.fields]

/-- The text of every command is within what the reader accepts, and it is one line. -/
theorem fits_command (order : MapOrder String String) (cmd : Host.GuestCommand) :
    (tagged "cmd" cmd.variant (cmd.fields order)).Fits Json.depthLimit := by
  refine fits_record fun entry member => ?_
  rcases List.mem_cons.mp member with rfl | member
  · simp
  · exact fits_fields 124 order cmd entry member

theorem tag_notMem_fields (order : MapOrder String String) (cmd : Host.GuestCommand) :
    "cmd" ∉ (cmd.fields order).map Prod.fst := by
  cases cmd <;> simp [Host.GuestCommand.fields]

/-- The guest reads the JSON of every command as the command of the same name and fields. -/
theorem internallyTagged_command (order : MapOrder String String) (cmd : Host.GuestCommand) :
    internallyTagged "cmd" Guest.GuestCommand.ofVariant
      (tagged "cmd" cmd.variant (cmd.fields order)) = .ok (mirror cmd) := by
  calc
    internallyTagged "cmd" Guest.GuestCommand.ofVariant
        (tagged "cmd" cmd.variant (cmd.fields order))
      = Guest.GuestCommand.ofVariant cmd.variant (record (cmd.fields order)) :=
        internallyTagged_tagged _ (tag_notMem_fields order cmd)
    _ = .ok (mirror cmd) := ofVariant_fields order cmd

/-- The guest reads every line the host writes for a command as the command of the same name with
the same fields, whatever the order in which maps are written. -/
theorem command_line_mirrored (order : MapOrder String String) (cmd : Host.GuestCommand) :
    Guest.GuestCommand.ofLine (cmd.toLine order) = .ok (mirror cmd) := by
  rw [Guest.GuestCommand.ofLine, fromText, Host.GuestCommand.toLine,
    Json.parse_toText (fits_command order cmd)]
  exact internallyTagged_command order cmd

example : Guest.GuestCommand.ofLine "\x7b\"cmd\":\"restart\",\"name\":\"web\"\x7d" =
    .ok (.restart "web" 10) := by rfl

end Pelagos.Wire
