import Pelagos.Guest.Dockerfile
import Pelagos.Library.Writing
import Pelagos.Wire.StreamedOutput

/-!
# Handlers that answer with lines

`handle_connection` answers most commands with lines: pieces of output and one last response.  What
the guest's processes do is a `System`; a handler is a program that writes to the connection and
then returns, fails, or waits for ever.
-/

namespace Pelagos.Wire.Guest

open Lines
open Pelagos.Guest (baseImages)

/-- What a handler writes or does. -/
inductive Output where
  | response (response : GuestResponse)
  | raw (bytes : List UInt8)
  /-- A command is started whose outcome is ignored. -/
  | started (program : String) (args : List String) (env : List (String × String))

/-- The responses that end the answer to a command. -/
def GuestResponse.IsTerminal : GuestResponse → Prop
  | exit _ | error _ | pong _ | versionInfo .. | kubernetesStatus _ => True
  | stream .. | ready _ | rawBytes _ => False

def Output.IsTerminal : Output → Prop
  | response sent => sent.IsTerminal
  | raw _ | started .. => False

/-- A program with its arguments, environment variables and directory. -/
structure Command where
  program : String
  args : List String
  env : HashMap String String
  currentDir : Option String

/-- `Command::new` with arguments. -/
def command (program : String) (args : List String) : Command :=
  { program, args, env := ∅, currentDir := none }

/-! ## Processes -/

/-- What `Command::output` returns; the exit code is `none` when a signal ended the process. -/
structure Finished where
  stdout : List UInt8
  stderr : List UInt8
  status : Option Int32

/-- A child of `spawn_and_stream`, with one of the schedules of the threads that read its output. -/
structure StreamedChild where
  output : StreamKind → List UInt8
  status : Option Int32
  schedule : List StreamedAction
  final : StreamedExec
  execution : Execution.run StreamedExec.step schedule (.start output status) = some final
  returned : final.main = .returned

/-- How it ends that a child is fed bytes while nobody reads its output. -/
inductive Feeding where
  /-- The child reads all of them, or its pipe holds what it does not. -/
  | taken
  /-- The child closes its end first, or the bytes cannot be read. -/
  | failed (error : String)
  /-- The child waits for room in the pipe of its output, and its own pipe is full. -/
  | blocked

/-- A child of `spawn_and_stream_with_stdin`. -/
structure FedChild extends StreamedChild where
  feeding : Feeding

/-- A child of `run_detached`. -/
structure DetachedChild where
  /-- What comes before its first newline, or all of it. -/
  stdout : List UInt8
  status : Option Int32

/-- A child of `pull_image`, which reads all of its standard error first. -/
structure PullingChild where
  stderr : List UInt8
  /-- What it writes to standard output before it closes its standard error. -/
  stdoutFirst : List UInt8
  stdoutRest : List UInt8
  status : Option Int32

/-- The `tar` of `handle_build`; its standard error is read meanwhile. -/
structure ExtractingTar where
  copied : Except String Unit
  stderr : List UInt8
  status : Option Int32

/-- The `tar` of `handle_cp_to`; its standard error is read after the copy. -/
structure ReceivingTar where
  feeding : Feeding
  stderr : List UInt8
  status : Option Int32

/-- What the handlers read of the virtual machine while they answer one line, and what its processes
do.  An error is the text of one. -/
structure System where
  pelagosBin : String
  /-- The version of this program. -/
  guestVersion : String
  errorText : Serde.DecodeError → String
  /-- The number of bytes that a pipe holds. -/
  pipeCapacity : Nat
  /-- The time in microseconds. -/
  micros : Nat
  pathExists : String → Bool
  createDirAll : String → Bool
  readFile : String → Option String
  /-- The entries of the directory of the containers, with the text of their `state.json`. -/
  containerStates : List (String × Option String)
  output : Command → Except String Finished
  status : Command → Except String (Option Int32)
  stream : Command → Except String StreamedChild
  streamFed : Command → Except String FedChild
  detach : Command → Except String DetachedChild
  /-- The attempts of `pull_image` are counted from 1. -/
  pull : Command → Nat → Except String PullingChild
  extract : Command → Except String ExtractingTar
  openNsFds : Nat → Except String Unit
  openRootFd : Nat → Except String Unit
  parseIntError : String → String
  /-- A command in the namespaces of a process. -/
  outputIn : Nat → Command → Except String Finished
  receiveIn : Nat → Command → Except String ReceivingTar

/-- A program that writes to the connection. -/
abbrev Reply := Writing Output

/-- Write a response. -/
def respond (response : GuestResponse) : Reply Unit := Writing.write (.response response)

/-- The exit code that is sent for a status. -/
def exitCode (status : Option Int32) : Int32 := status.getD (-1)

/-- `ExitStatus::success`. -/
def succeeded (status : Option Int32) : Bool := status = some 0

/-- What `read_to_string` leaves in the text. -/
def readToString (bytes : List UInt8) : String := (Utf8.decode bytes).getD ""

/-! ## Helpers -/

/-- `spawn_and_stream`. -/
def spawnAndStream (system : System) (cmd : Command) : Reply Unit :=
  match system.stream cmd with
  | .error error => respond (.error error)
  | .ok child => Writing.writeAll (child.final.sent.map .response)

/-- `spawn_and_stream_with_stdin`: a write that fails is passed on. -/
def spawnAndStreamWithStdin (system : System) (cmd : Command) (stdinData : List UInt8) :
    Reply Unit :=
  match system.streamFed cmd with
  | .error error => respond (.error error)
  | .ok child =>
      match child.feeding with
      | .failed _ => Writing.fail
      | .blocked =>
          if system.pipeCapacity < stdinData.length then Writing.wait
          else Writing.writeAll (child.final.sent.map .response)
      | .taken => Writing.writeAll (child.final.sent.map .response)

/-- `run_detached`: the first line of the output is the container's name. -/
def runDetached (system : System) (cmd : Command) : Reply Unit :=
  match system.detach cmd with
  | .error error => respond (.error error)
  | .ok child => do
      let line := (linesOf Json.newline child.stdout).headD []
      let nameLine := trimLine (readToString line)
      if nameLine ≠ "" then respond (.stream .stdout (nameLine ++ "\n"))
      respond (.exit (exitCode child.status))

/-- The directory name of an image. -/
def imageDirname (image : String) : String :=
  let normalized :=
    if ¬ image.contains ':' ∧ ¬ image.contains '@' then image ++ ":latest" else image
  normalized.map fun char => if char = ':' ∨ char = '/' ∨ char = '@' then '_' else char

/-- `image_cached_locally`. -/
def imageCachedLocally (system : System) (image : String) : Bool :=
  system.pathExists ("/var/lib/pelagos/images/" ++ imageDirname image ++ "/manifest.json")

/-- `PULL_ATTEMPTS`. -/
def pullAttempts : Nat := 10

/-- Lines of progress, each as a response; those that are no text are left out. -/
def progress (lines : List (List UInt8)) : List Output :=
  (lines.filterMap Utf8.decode).map fun line =>
    .response (.stream .stderr (String.ofList (LineText.terminated line.toList)))

/-- The child waits for room in the pipe of its standard output while its standard error is read. -/
def PullingChild.Stalls (system : System) (child : PullingChild) : Prop :=
  system.pipeCapacity < child.stdoutFirst.length

instance (system : System) (child : PullingChild) : Decidable (child.Stalls system) :=
  Nat.decLt _ _

def pullCommand (system : System) (image : String) : Command :=
  command system.pelagosBin ["image", "pull", image]

/-- The loop of `pull_image`, with the attempts that are left and the error of the last one. -/
def pullFrom (system : System) (image : String) : Nat → String → Reply Bool
  | 0, error => do
      respond (.error error)
      return false
  | left + 1, _ =>
      match system.pull (pullCommand system image) (pullAttempts - left) with
      | .error error => do
          respond (.error ("image pull spawn failed: " ++ error))
          return false
      | .ok child =>
          if child.Stalls system then do
            Writing.writeAll
              (progress ((linesOf Json.newline child.stderr).filter (Json.newline ∈ ·)))
            Writing.wait
          else do
            Writing.writeAll (progress (linesOf Json.newline child.stderr))
            Writing.writeAll
              (progress (linesOf Json.newline (child.stdoutFirst ++ child.stdoutRest)))
            if succeeded child.status then return true
            else
              pullFrom system image left
                ("image pull failed (exit " ++ toString (exitCode child.status) ++ ")")

/-- `pull_image`. -/
def pullImage (system : System) (image : String) : Reply Bool :=
  if imageCachedLocally system image then return true
  else pullFrom system image pullAttempts ""

/-! ## Containers -/

/-- The guest's side of a mount. -/
def guestSource (mount : GuestMount) : String :=
  if mount.subpath = "" then "/mnt/" ++ mount.tag
  else "/mnt/" ++ mount.tag ++ "/" ++ Text.trimStart '/' mount.subpath

/-- A flag before each value. -/
def flagged (flag : String) (values : List String) : List String :=
  values.flatMap fun value => [flag, value]

/-- `run_container`. -/
def runContainer (system : System) (image : String) (args : List String)
    (env : HashMap String String) (mounts : List GuestMount) (name : Option String) (detach : Bool)
    (labels publish : List String) (network : Option String) (dns : List String) :
    Reply Unit := do
  if ← pullImage system image then
    let cmd : Command :=
      { program := system.pelagosBin
        args := ["run"] ++ flagged "--name" name.toList ++ (if detach then ["--detach"] else []) ++
          flagged "-v" (mounts.map fun mount => guestSource mount ++ ":" ++ mount.containerPath) ++
          flagged "--label" labels ++ flagged "--publish" publish ++
          flagged "--network" network.toList ++ flagged "--dns" dns ++ [image] ++ args
        env
        currentDir := none }
    if detach then runDetached system cmd else spawnAndStream system cmd

/-- The part of the prune that removes the containers that exited; it counts them. -/
def pruneContainers (system : System) : List (String × Option String) → Nat → Reply Nat
  | [], removed => return removed
  | (name, state) :: entries, removed => do
      let status := ((state.bind Json.parse).bind (Json.get "status")).bind Json.asStr
      if status ≠ some "exited" then pruneContainers system entries removed
      else
        match system.output (command system.pelagosBin ["rm", name]) with
        | .ok out =>
            if succeeded out.status then
              respond (.stream .stdout (name ++ "\n"))
              pruneContainers system entries (removed + 1)
            else
              respond (.stream .stderr
                ("error removing " ++ name ++ ": " ++ Text.trim (Utf8.decodeLossy out.stderr) ++
                  "\n"))
              pruneContainers system entries removed
        | .error error =>
            respond (.stream .stderr ("error removing " ++ name ++ ": " ++ error ++ "\n"))
            pruneContainers system entries removed

/-- `ContainerPrune`. -/
def containerPrune (system : System) : Reply Unit := do
  let removed ← pruneContainers system system.containerStates 0
  respond (.stream .stdout (toString removed ++ " container(s) removed\n"))
  respond (.exit 0)

/-! ## Builds -/

/-- The loop over the base images, up to the first pull that fails. -/
def pullAll (system : System) : List String → Reply Bool
  | [] => return true
  | base :: bases => do
      if ← pullImage system base then pullAll system bases else return false

/-- The directory of a build context. -/
def contextDir (system : System) : String := "/tmp/pelagos-build-" ++ toString system.micros

/-- The images that are pulled before the build. -/
def imagesToPull (system : System) (dockerfile : String) (buildArgs : List String) : List String :=
  match system.readFile (contextDir system ++ "/" ++ dockerfile) with
  | none => []
  | some content => baseImages buildArgs content

def extractCommand (system : System) : Command :=
  command "tar" ["xzf", "-", "-C", contextDir system]

/-- The context was not read or not extracted. -/
def ExtractingTar.Fails (tar : ExtractingTar) : Prop :=
  tar.copied.isOk = false ∨ succeeded tar.status = false

instance (tar : ExtractingTar) : Decidable tar.Fails := instDecidableOr

/-- `handle_build`. -/
def handleBuild (system : System) (tag dockerfile : String) (buildArgs : List String)
    (noCache : Bool) : Reply Unit :=
  if ¬ system.createDirAll (contextDir system) then Writing.fail
  else
    match system.extract (extractCommand system) with
    | .error error => respond (.error ("tar spawn failed: " ++ error))
    | .ok tar =>
        if tar.Fails then
          respond (.error ("build context extract failed (exit " ++
            toString (exitCode tar.status) ++ "): " ++ Text.trim (readToString tar.stderr)))
        else do
          if ← pullAll system (imagesToPull system dockerfile buildArgs) then
            spawnAndStream system (command system.pelagosBin
              (["build", "-t", tag, "-f", contextDir system ++ "/" ++ dockerfile, "--network",
                "pasta"] ++ flagged "--build-arg" buildArgs ++
                (if noCache then ["--no-cache"] else []) ++ [contextDir system]))

/-! ## Copies -/

/-- The error texts of `get_container_pid`. -/
def noPidText (container : String) : String :=
  "container '" ++ container ++ "' has no running process (PID is '-')"

def notFoundText (container : String) : String :=
  "container '" ++ container ++ "' not found or not running"

/-- The line of a container in the output of `pelagos ps`. -/
def pidOfLines (system : System) (container : String) : List String → Except String Nat
  | [] => .error (notFoundText container)
  | line :: lines =>
      match Text.tokens line with
      | name :: _ :: pid :: _ =>
          if name = container then
            if pid = "-" then .error (noPidText container)
            else
              match Text.parseUnsigned (2 ^ 32) pid with
              | some value => .ok value
              | none => .error (system.parseIntError pid)
          else pidOfLines system container lines
      | _ => pidOfLines system container lines

/-- `get_container_pid`. -/
def getContainerPid (system : System) (container : String) : Except String Nat :=
  match system.output (command system.pelagosBin ["ps", "--all"]) with
  | .error error => .error error
  | .ok out => pidOfLines system container (Text.lines (Utf8.decodeLossy out.stdout))

/-- The container's process, with its namespaces and its root directory open. -/
def enterContainer (system : System) (container : String) : Except String Nat :=
  match getContainerPid system container with
  | .error error => .error ("cp: " ++ error)
  | .ok pid =>
      match system.openNsFds pid with
      | .error error => .error ("cp: open ns fds: " ++ error)
      | .ok () =>
          match system.openRootFd pid with
          | .error error => .error ("cp: open root fd: " ++ error)
          | .ok () => .ok pid

/-- A reversed path without separators and dots at its end. -/
def dropTail : List Char → List Char
  | ['/'] => ['/']
  | '/' :: rest => dropTail rest
  | '.' :: '/' :: rest => dropTail ('/' :: rest)
  | path => path

/-- `Path::parent` as a text, or the root. -/
def parentOf (path : String) : String :=
  let parent := dropTail ((dropTail path.toList.reverse).dropWhile (· ≠ '/'))
  if parent = [] then "/" else String.ofList parent.reverse

/-- `Path::file_name`, or the directory itself. -/
def fileName (path : String) : String :=
  let name := String.ofList ((dropTail path.toList.reverse).takeWhile (· ≠ '/')).reverse
  if name = "" ∨ name = "." ∨ name = ".." then "." else name

/-- `handle_cp_from`. -/
def handleCpFrom (system : System) (container src : String) : Reply Unit :=
  match enterContainer system container with
  | .error error => respond (.error error)
  | .ok pid =>
      match system.outputIn pid (command "tar" ["-cC", parentOf src, fileName src]) with
      | .error error => respond (.error error)
      | .ok out =>
          if ¬ succeeded out.status then
            respond (.error ("cp: tar failed (exit " ++ toString (exitCode out.status) ++ "): " ++
              Text.trim (Utf8.decodeLossy out.stderr)))
          else do
            respond (.rawBytes (UInt64.ofNat out.stdout.length))
            Writing.write (.raw out.stdout)
            respond (.exit 0)

def receiveCommand (dst : String) : Command := command "tar" ["-xC", dst]

/-- Nobody reads what `tar` writes to its standard error until the copy is over, and after a copy
that failed nobody ever does. -/
def ReceivingTar.Stalls (system : System) (tar : ReceivingTar) (dataSize : UInt64) : Prop :=
  (tar.feeding = .blocked ∧ system.pipeCapacity < dataSize.toNat) ∨
    ((∃ error, tar.feeding = .failed error) ∧ system.pipeCapacity < tar.stderr.length)

/-- `handle_cp_to`. -/
def handleCpTo (system : System) (container dst : String) (dataSize : UInt64) : Reply Unit :=
  match enterContainer system container with
  | .error error => respond (.error error)
  | .ok pid =>
      match system.receiveIn pid (receiveCommand dst) with
      | .error error => respond (.error error)
      | .ok tar =>
          let finish : Reply Unit := do
            let text := readToString tar.stderr
            if text ≠ "" then respond (.stream .stderr text)
            respond (.exit (exitCode tar.status))
          match tar.feeding with
          | .failed error =>
              if system.pipeCapacity < tar.stderr.length then Writing.wait
              else respond (.error error)
          | .blocked => if system.pipeCapacity < dataSize.toNat then Writing.wait else finish
          | .taken => finish

/-! ## Volumes, networks, images, projects -/

/-- `handle_volume`. -/
def handleVolume (system : System) (sub : String) (name : Option String) : Reply Unit :=
  spawnAndStream system (command system.pelagosBin (["volume", sub] ++ name.toList))

/-- `handle_network`. -/
def handleNetwork (system : System) (sub : String) (args : List String) : Reply Unit :=
  spawnAndStream system (command system.pelagosBin (["network", sub] ++ args))

/-- `handle_image_ls`. -/
def handleImageLs (system : System) (json : Bool) : Reply Unit :=
  spawnAndStream system (command system.pelagosBin
    (["image", "ls"] ++ if json then ["--format", "json"] else []))

/-- `handle_image_pull`. -/
def handleImagePull (system : System) (reference : String) : Reply Unit :=
  spawnAndStream system (command system.pelagosBin ["image", "pull", reference])

/-- `handle_image_rm`. -/
def handleImageRm (system : System) (reference : String) : Reply Unit :=
  spawnAndStream system (command system.pelagosBin ["image", "rm", reference])

/-- `handle_image_tag`. -/
def handleImageTag (system : System) (source target : String) : Reply Unit :=
  spawnAndStream system (command system.pelagosBin ["image", "tag", source, target])

/-- `handle_image_inspect`: the whole list, for the client to filter. -/
def handleImageInspect (system : System) (_reference : String) : Reply Unit :=
  spawnAndStream system (command system.pelagosBin ["image", "ls", "--format", "json"])

def loginCommand (system : System) (registry username : String) : Command :=
  command system.pelagosBin
    ["image", "login", "--username", username, "--password-stdin", registry]

/-- `handle_image_login`. -/
def handleImageLogin (system : System) (registry username password : String) : Reply Unit :=
  spawnAndStreamWithStdin system (loginCommand system registry username) (Utf8.encode password)

/-- `handle_image_logout`. -/
def handleImageLogout (system : System) (registry : String) : Reply Unit :=
  spawnAndStream system (command system.pelagosBin ["image", "logout", registry])

/-- `handle_compose`. -/
def handleCompose (system : System) (subcommand file workingDir : String)
    (project : Option String) (args : List String) (env : HashMap String String) : Reply Unit :=
  spawnAndStream system
    { program := system.pelagosBin
      args := ["compose", subcommand, "-f", file] ++ flagged "-p" project.toList ++ args
      env
      currentDir := some workingDir }

/-! ## Kubernetes -/

/-- `k8s_is_running`. -/
def k8sIsRunning (system : System) (name : String) : Bool :=
  match system.status (command "pgrep" ["-x", name]) with
  | .ok status => succeeded status
  | .error _ => false

/-- `k8s_find_bin`. -/
def k8sFindBin (system : System) (name : String) (dirs : List String) : String :=
  ((dirs.map fun dir => dir ++ "/" ++ name).find? system.pathExists).getD name

/-- `handle_kubernetes_status`. -/
def handleKubernetesStatus (system : System) : Reply Unit :=
  respond (.kubernetesStatus (k8sIsRunning system "api-server" && k8sIsRunning system "kubelet"))

/-- Start a program behind `setsid --fork`. -/
def startForked (args : List String) (env : List (String × String)) : Reply Unit :=
  Writing.write (.started "setsid" ("--fork" :: args) env)

/-- Start what is not running. -/
def unlessRunning (system : System) (name : String) (start : Reply Unit) : Reply Unit :=
  if k8sIsRunning system name then return () else start

def tlsCert : String := "/mnt/Projects/pelagos-mac/tls/server.crt"

def tlsKey : String := "/mnt/Projects/pelagos-mac/tls/server.key"

def tlsArgs (system : System) : List String :=
  if system.pathExists tlsCert ∧ system.pathExists tlsKey then
    ["--tls", "--tls-cert-file", tlsCert, "--tls-key-file", tlsKey]
  else ["--tls", "--tls-self-signed", "--tls-san", "localhost,127.0.0.1"]

def consoleDir : String := "/mnt/Projects/rusternetes/console/dist"

def dataDir : String := "/var/lib/rusternetes/cluster.db"

/-- `handle_kubernetes_start`. -/
def handleKubernetesStart (system : System) : Reply Unit := do
  let dockerd := k8sFindBin system "pelagos-dockerd"
    ["/usr/local/bin", "/mnt/Projects/pelagos/target/debug"]
  let apiBin := k8sFindBin system "api-server"
    ["/usr/local/bin", "/mnt/Projects/rusternetes/target/debug"]
  let kubeletBin := k8sFindBin system "kubelet"
    ["/usr/local/bin", "/mnt/Projects/rusternetes/target/debug"]
  unlessRunning system "pelagos-dockerd" do
    startForked [dockerd, "--pelagos-bin", system.pelagosBin] []
    respond (.stream .stdout "started pelagos-dockerd\n")
  unlessRunning system "api-server" do
    startForked ([apiBin, "--storage-backend", "sqlite", "--data-dir", dataDir, "--skip-auth"] ++
      tlsArgs system ++
      if system.pathExists consoleDir then ["--console-dir", consoleDir] else []) []
    respond (.stream .stdout "started api-server, waiting for ready...\n")
    respond (.stream .stdout "api-server ready\n")
  unlessRunning system "kubelet" do
    startForked [kubeletBin, "--node-name", "pelagos-node", "--storage-backend", "sqlite",
      "--data-dir", dataDir, "--network", "bridge"]
      [("DOCKER_HOST", "unix:///var/run/pelagos-dockerd.sock"), ("RUST_MIN_STACK", "8388608")]
    respond (.stream .stdout "started kubelet\n")
  respond (.exit 0)

/-- `handle_kubernetes_stop`. -/
def handleKubernetesStop : Reply Unit := do
  Writing.writeAll (["kubelet", "api-server", "pelagos-dockerd"].map fun name =>
    .started "pkill" ["-x", name] [])
  respond (.exit 0)

/-! ## The connection -/

/-- What becomes of the connection after a command. -/
inductive Flow where
  | nextLine
  | closes
  deriving DecidableEq

/-- The version that a program prints. -/
def printedVersion (system : System) (program : String) (args : List String) : Option String :=
  match system.output (command program args) with
  | .ok out =>
      if succeeded out.status then (Utf8.decode out.stdout).map Text.trim else none
  | .error _ => none

/-- `Version`. -/
def handleVersion (system : System) : Reply Unit :=
  let runtime := (printedVersion system "pelagos" ["--version"]).map fun text =>
    (Text.stripPrefix text "pelagos ").getD text
  respond (.versionInfo system.guestVersion runtime (printedVersion system "uname" ["-r"]))

/-- Go on with a flow. -/
def Flow.after (flow : Flow) (handler : Reply Unit) : Option (Reply Flow) :=
  some (handler >>= fun _ => pure flow)

/-- The `match cmd` of `handle_connection`; `none` for what is answered in another way than by lines
that end with a response. -/
def handleCommand (system : System) : GuestCommand → Option (Reply Flow)
  | .ping => Flow.closes.after (respond (.pong true))
  | .version => Flow.closes.after (handleVersion system)
  | .run image args env mounts name detach labels publish network dns =>
      Flow.nextLine.after
        (runContainer system image args env mounts name detach labels publish network dns)
  | .exec .. | .execInto .. | .shell .. | .subscribe => none
  | .ps all json =>
      Flow.nextLine.after (spawnAndStream system (command system.pelagosBin
        (["ps"] ++ (if all then ["--all"] else []) ++ if json then ["--format", "json"] else [])))
  | .logs name follow =>
      Flow.nextLine.after (spawnAndStream system (command system.pelagosBin
        (["logs", name] ++ if follow then ["--follow"] else [])))
  | .containerInspect name =>
      Flow.nextLine.after (spawnAndStream system
        (command system.pelagosBin ["container", "inspect", name]))
  | .containerPrune => Flow.nextLine.after (containerPrune system)
  | .start name interactive cmdOverride =>
      if interactive then none
      else
        Flow.nextLine.after (spawnAndStream system (command system.pelagosBin
          (["start", name] ++ if cmdOverride = [] then [] else "--" :: cmdOverride)))
  | .stop name =>
      Flow.nextLine.after (spawnAndStream system (command system.pelagosBin ["stop", name]))
  | .restart name time =>
      Flow.nextLine.after (spawnAndStream system (command system.pelagosBin
        ["restart", "--time", toString time.toNat, name]))
  | .rm name force =>
      Flow.nextLine.after (spawnAndStream system (command system.pelagosBin
        (["rm", name] ++ if force then ["--force"] else [])))
  | .build tag dockerfile buildArgs noCache _ =>
      Flow.closes.after (handleBuild system tag dockerfile buildArgs noCache)
  | .volume sub name => Flow.nextLine.after (handleVolume system sub name)
  | .network sub args => Flow.nextLine.after (handleNetwork system sub args)
  | .cpFrom container src => Flow.closes.after (handleCpFrom system container src)
  | .cpTo container dst dataSize => Flow.closes.after (handleCpTo system container dst dataSize)
  | .imageLs json => Flow.nextLine.after (handleImageLs system json)
  | .imagePull reference => Flow.nextLine.after (handleImagePull system reference)
  | .imageRm reference => Flow.nextLine.after (handleImageRm system reference)
  | .imageTag source target => Flow.nextLine.after (handleImageTag system source target)
  | .imageInspect reference => Flow.nextLine.after (handleImageInspect system reference)
  | .imageLogin registry username password =>
      Flow.nextLine.after (handleImageLogin system registry username password)
  | .imageLogout registry => Flow.nextLine.after (handleImageLogout system registry)
  | .compose subcommand file workingDir project args env =>
      Flow.nextLine.after (handleCompose system subcommand file workingDir project args env)
  | .kubernetesStatus => Flow.nextLine.after (handleKubernetesStatus system)
  | .kubernetesStart => Flow.nextLine.after (handleKubernetesStart system)
  | .kubernetesStop => Flow.nextLine.after handleKubernetesStop

/-- The body of the loop of `handle_connection` for one line; a line that is no text ends it. -/
def handleLine (system : System) (line : List UInt8) : Option (Reply Flow) :=
  match Utf8.decode line with
  | none => some Writing.fail
  | some text =>
      if trimLine text = "" then some (pure .nextLine)
      else
        match GuestCommand.ofLine (trimLine text) with
        | .error error =>
            Flow.nextLine.after (respond (.error ("parse error: " ++ system.errorText error)))
        | .ok cmd => handleCommand system cmd

end Pelagos.Wire.Guest
