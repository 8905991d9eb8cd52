import Pelagos.CommandLine.Grammar
import Pelagos.Library.Utf8

/-!
# Invocations of `pelagos`

The shim turns a docker command into argument vectors for the `pelagos` binary.  Most of its
subprocesses' output is not shown, so a vector that the CLI does not understand fails silently.
-/

namespace Pelagos.DockerShim

open CommandGrammar CommandLine

/-- What the shim knows of the VM's configuration. -/
structure Config where
  kernel : String
  initrd : String
  disk : String
  cmdline : String
  memoryMib : Nat
  deriving DecidableEq

def pelagosPrefixArgs (cfg : Config) : List String :=
  ["--kernel", cfg.kernel, "--initrd", cfg.initrd, "--disk", cfg.disk, "--cmdline", cfg.cmdline,
    "--memory", cfg.memoryMib.repr]

/-- The options and words of `docker run`. -/
structure RunOpts where
  name : Option String
  detach : Bool
  volumes : List String
  mounts : List String
  env : List String
  ports : List String
  labelArgs : List String
  entrypoint : Option String
  imageAndArgs : List String
  deriving DecidableEq

/-- The docker commands, with what the shim reads of their arguments. -/
inductive DockerCmd where
  | pull (image : String)
  | run (opts : RunOpts)
  | exec (tty : Bool) (env : List String) (user workdir : Option String) (nameAndArgs : List String)
  | start (names : List String)
  | stop (name : String)
  | rm (force : Bool) (name : String)
  | ps (all : Bool) (filters : List String)
  | logs (follow : Bool) (name : String)
  | inspect (inspectType : Option String) (names : List String)
  | version
  | info
  | events
  | build (tag file : String) (buildArgs : List String) (noCache : Bool) (context : String)
  | buildx
  | volume (sub : String) (name : Option String)
  | network (sub : String) (name : Option String)
  | cp (src dst : String)
  | context (sub : String)
  | port (name : String)
  deriving DecidableEq

/-- Where `preprocess_dockerfile_args` left its result, if there is one. -/
inductive ResolvedDockerfile where
  | unchanged
  | besides
  | inTmp (millis : Nat)

/-- What the subprocesses and the file system have answered. -/
structure Surroundings where
  /-- Milliseconds of the clock. -/
  millis : Nat
  /-- The names in the output of each `pelagos ps`; none when it fails. -/
  listed : Nat → List String
  /-- How often `docker events` has polled. -/
  polls : Nat
  resolved : ResolvedDockerfile
  /-- The base images that are pulled, up to the first that cannot be. -/
  pulled : List String
  allPulled : Bool
  isAlphanumeric : Char → Bool

/-- `parse_mount_as_volume`: the type, the source and the target after one more part. -/
def mountPart (parsed : Option String × Option String × Option String) (part : String) :
    Option String × Option String × Option String :=
  let (mountType, source, target) := parsed
  if let some value := Text.stripPrefix part "type=" then (some value, source, target)
  else if let some value := Text.stripPrefix part "source=" then (mountType, some value, target)
  else if let some value := Text.stripPrefix part "src=" then (mountType, some value, target)
  else if let some value := Text.stripPrefix part "target=" then (mountType, source, some value)
  else if let some value := Text.stripPrefix part "dst=" then (mountType, source, some value)
  else if let some value := Text.stripPrefix part "destination=" then
    (mountType, source, some value)
  else parsed

def parseMountAsVolume (mountSpec : String) : Option String :=
  let parts := (mountSpec.toList.splitOn ',').map String.ofList
  let (mountType, source, target) := parts.foldl mountPart (none, none, none)
  if mountType = some "volume" then none
  else
    match source, target with
    | some source, some target => some (source ++ ":" ++ target)
    | _, _ => none

/-- The name that `cmd_run` gives to a container without one. -/
def effectiveName (world : Surroundings) (name : Option String) : String :=
  name.getD ("dc-" ++ world.millis.repr)

/-- The vector of `cmd_run` for the container. -/
def runArgs (world : Surroundings) (opts : RunOpts) (image : String) (cmdArgs : List String) :
    List String :=
  "run" :: "--name" :: effectiveName world opts.name :: (switch opts.detach "--detach" ++
    (repeated "-v" opts.volumes ++ (repeated "-v" (opts.mounts.filterMap parseMountAsVolume) ++
      (repeated "-e" opts.env ++ (repeated "--label" opts.labelArgs ++
        image :: (opts.entrypoint.toList ++ cmdArgs))))))

def cmdRun (world : Surroundings) (opts : RunOpts) : List (List String) :=
  match opts.imageAndArgs with
  | [] => []
  | image :: cmdArgs =>
      (if opts.ports.isEmpty then [] else ["port-proxy" :: repeated "--port" opts.ports]) ++
        [runArgs world opts image cmdArgs]

/-- The words that `cmd_exec` puts before the command to set the environment. -/
def envWords (env : List String) (user : Option String) : List String :=
  let callerHasHome := env.any fun kv => Text.startsWith kv "HOME="
  let effectiveUser := user.getD "root"
  let homeForUser : Option String :=
    if effectiveUser = "root" ∨ effectiveUser = "0" then some "/root" else none
  let needEnvPrefix := !env.isEmpty || (!callerHasHome && homeForUser.isSome)
  if needEnvPrefix then
    "env" :: ((if callerHasHome then []
      else (homeForUser.map fun home => "HOME=" ++ home).toList) ++ env)
  else []

def cmdExec (tty : Bool) (env : List String) (user workdir : Option String)
    (nameAndArgs : List String) : List (List String) :=
  match nameAndArgs with
  | [] => []
  | name :: cmdArgs =>
      ["exec" :: (switch tty "-t" ++ (repeated "--user" user.toList ++
        (repeated "-w" workdir.toList ++ name :: (envWords env user ++ cmdArgs))))]

/-- The first bytes of a text, if they end with a character. -/
def takeBytes : Nat → List Char → Option (List Char)
  | 0, _ => some []
  | _ + 1, [] => none
  | count + 1, char :: chars =>
      if char.utf8Size ≤ count + 1 then
        (takeBytes (count + 1 - char.utf8Size) chars).map (char :: ·)
      else none

/-- The name of the container of `pull_image_probe`; `none` where the slice would panic. -/
def probeName (isAlphanumeric : Char → Bool) (image : String) : Option String :=
  let safe := image.toList.map fun char => if isAlphanumeric char || char = '-' then char else '-'
  (takeBytes (min (String.ofList safe).utf8ByteSize 40) safe).map fun front =>
    "pelagos-docker-pull-" ++ String.ofList front

/-- A container that makes `pelagos` pull an image. -/
def pullProbe (name image : String) : List (List String) :=
  [["run", "--detach", "--name", name, image, "/bin/true"], ["stop", name], ["rm", name]]

def pullImageProbe (world : Surroundings) (image : String) : List (List String) :=
  match probeName world.isAlphanumeric image with
  | none => []
  | some name => pullProbe name image

def psArgs (all : Bool) : List String := "ps" :: switch all "--all"

def inspectArgs (name : String) : List String := ["inspect", name]

/-- A filter that makes `cmd_ps` look at the labels of the containers. -/
def isLabelFilter (filter : String) : Bool :=
  match Text.stripPrefix filter "label=" with
  | some kv => decide ('=' ∈ kv.toList)
  | none => false

def cmdPs (world : Surroundings) (all : Bool) (filters : List String) : List (List String) :=
  psArgs all :: (if filters.any isLabelFilter then (world.listed 0).map inspectArgs else [])

/-- `cmd_inspect_container`, when `ps` has been called this often before. -/
def cmdInspectContainer (world : Surroundings) (calls : Nat) (names : List String) :
    List (List String) :=
  psArgs true :: (names.filter fun name => (world.listed calls).contains name).map inspectArgs

def cmdInspect (world : Surroundings) (inspectType : Option String) (names : List String) :
    List (List String) :=
  if names.isEmpty then []
  else if inspectType = some "image" then []
  else if inspectType = some "container" then cmdInspectContainer world 0 names
  else
    psArgs true :: (if names.all fun name => (world.listed 0).contains name then
      cmdInspectContainer world 1 names else [])

/-- The polls of `cmd_events`; a container is inspected when it is seen first. -/
def cmdEvents (world : Surroundings) : Nat → List (List String)
  | 0 => []
  | polls + 1 =>
      let known := (List.range polls).flatMap world.listed
      cmdEvents world polls ++ psArgs true ::
        ((world.listed polls).eraseDups.filter fun name => !known.contains name).map inspectArgs

/-- The path of the Dockerfile that `cmd_build` hands on. -/
def dockerfilePath (world : Surroundings) (file context : String) : String :=
  let file := if Text.startsWith file "/" then file else context ++ "/" ++ file
  match world.resolved with
  | .unchanged => file
  | .besides => file ++ ".pelagos-resolved"
  | .inTmp millis => "/tmp/pelagos-dockerfile-" ++ millis.repr ++ ".resolved"

def buildArgs (tag dockerfile : String) (buildArgs : List String) (noCache : Bool)
    (context : String) : List String :=
  "build" :: "-t" :: tag :: "-f" :: dockerfile :: (repeated "--build-arg" buildArgs ++
    (switch noCache "--no-cache" ++ [context]))

def cmdBuild (world : Surroundings) (tag file : String) (args : List String) (noCache : Bool)
    (context : String) : List (List String) :=
  world.pulled.flatMap (pullImageProbe world) ++
    (if world.allPulled then
      [buildArgs tag (dockerfilePath world file context) args noCache context] else [])

def cmdVolume (sub : String) (name : Option String) : List (List String) :=
  ["volume" :: sub :: name.toList]

def cmdNetwork (sub : String) (name : Option String) : List (List String) :=
  match name with
  | none => [["network", sub]]
  | some name =>
      if sub = "create" then
        let hash := (Utf8.encode name).foldl (· + ·) 0
        [["network", sub, "--subnet", "10.88." ++ hash.toNat.repr ++ ".0/24", name]]
      else [["network", sub, name]]

/-- What the shim hands to `pelagos` behind the prefix arguments. -/
def subArgs (world : Surroundings) : DockerCmd → List (List String)
  | .pull image => pullProbe "pelagos-docker-pull-probe" image
  | .run opts => cmdRun world opts
  | .exec tty env user workdir nameAndArgs => cmdExec tty env user workdir nameAndArgs
  | .start names => names.map fun name => ["start", name]
  | .stop name => [["stop", name]]
  | .rm force name => ["rm" :: (switch force "--force" ++ [name])]
  | .ps all filters => cmdPs world all filters
  | .logs follow name => ["logs" :: (switch follow "--follow" ++ [name])]
  | .inspect inspectType names => cmdInspect world inspectType names
  | .events => cmdEvents world world.polls
  | .build tag file args noCache context => cmdBuild world tag file args noCache context
  | .volume sub name => cmdVolume sub name
  | .network sub name => cmdNetwork sub name
  | .cp src dst => [["cp", src, dst]]
  | .version | .info | .buildx | .context _ | .port _ => []

/-- The argument vectors that a docker command hands to `pelagos`. -/
def argumentVectors (cfg : Config) (world : Surroundings) (cmd : DockerCmd) : List (List String) :=
  (subArgs world cmd).map (pelagosPrefixArgs cfg ++ ·)

end Pelagos.DockerShim
