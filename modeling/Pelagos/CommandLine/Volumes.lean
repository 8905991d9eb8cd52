import Pelagos.Daemon.Ports
import Pelagos.Library.LexicalPath

/-!
# From the command line to the daemon's configuration

The CLI turns its flags into a `DaemonArgs`, and flattens a `DaemonArgs` to the argument list of the
daemon subprocess, whose own flags are then read the same way.  `$HOME` is always shared; a volume
under `$HOME` gets no share of its own.
-/

namespace Pelagos.CommandLine

open Daemon

/-- The `vm.conf` entries that `daemon_args_from_cli` falls back on. -/
structure VmProfileConfig where
  disk : Option String
  kernel : Option String
  initrd : Option String
  memory : Option UInt64
  cpus : Option UInt64
  cmdline : Option String
  deriving DecidableEq

/-- VM artifacts found in the installation. -/
structure VmArtifacts where
  kernel : String
  initrd : Option String
  disk : String
  deriving DecidableEq

/-- What the process sees of its host: environment variables, files, `vm.conf` of each profile and
the installed artifacts. -/
structure HostEnv where
  home : Option String
  xdgDataHome : Option String
  pelagosKernel : Option String
  pelagosInitrd : Option String
  pelagosDisk : Option String
  pelagosCmdline : Option String
  pathExists : String → Bool
  profileConfig : String → VmProfileConfig
  artifacts : Option VmArtifacts

/-- The global flags. -/
structure Cli where
  profile : String
  kernel : Option String
  initrd : Option String
  disk : Option String
  cmdline : String
  memory : Option UInt64
  cpus : Option UInt64
  volumes : List String
  ports : List String
  extraDisks : List String
  deriving DecidableEq

/-- Why the CLI gives up. -/
inductive CliError where
  | usage
  | noKernel
  | noDisk
  | invalidVolumeSpec (spec : String)
  | volumeHostPathMissing (hostPath : String)
  | invalidPortSpec (spec : String)
  deriving DecidableEq

/-- The base data directory; `none` when neither variable is set. -/
def pelagosBase (env : HostEnv) : Option String :=
  match env.xdgDataHome with
  | some xdg => some (LexicalPath.join xdg "pelagos")
  | none => env.home.map (LexicalPath.join · ".local/share/pelagos")

/-- The state directory of a profile. -/
def profileDir (env : HostEnv) (name : String) : Option String :=
  (pelagosBase env).map fun base =>
    if name = "default" then base else LexicalPath.join (LexicalPath.join base "profiles") name

/-- The host directory behind the always-on `pelagos-volumes` share. -/
def pelagosVolumesHostPath (env : HostEnv) (profile : String) : String :=
  LexicalPath.join
    ((profileDir env profile).getD
      (LexicalPath.join (env.home.getD "/tmp") ".local/share/pelagos"))
    "volumes"

/-- The host path is `$HOME` or starts with it and a separator. -/
def underHome (env : HostEnv) (hostPath : String) : Bool :=
  match env.home with
  | none => false
  | some home => hostPath == home || Text.startsWith hostPath (home ++ "/")

/-- Read one `/host:/container[:ro]` specification. -/
def parseVolume (env : HostEnv) (index : Nat) (spec : String) : Except CliError VirtiofsShare :=
  match Text.splitn 3 ':' spec with
  | hostPath :: containerPath :: rest =>
      if env.pathExists hostPath then
        .ok { hostPath, tag := "share" ++ index.repr, readOnly := rest.head? == some "ro",
              containerPath }
      else .error (.volumeHostPathMissing hostPath)
  | _ => .error (.invalidVolumeSpec spec)

/-- Read specifications, the first one with tag number `index`. -/
def parseVolumesFrom (env : HostEnv) (index : Nat) :
    List String → Except CliError (List VirtiofsShare)
  | [] => .ok []
  | spec :: specs => do
      let share ← parseVolume env index spec
      let shares ← parseVolumesFrom env (index + 1) specs
      .ok (share :: shares)

/-- Parse a list of specifications; tags count from `share0`. -/
def parseVolumes (env : HostEnv) (specs : List String) : Except CliError (List VirtiofsShare) :=
  parseVolumesFrom env 0 specs

/-- The specifications that get a share of their own. -/
def outsideHome (env : HostEnv) (specs : List String) : List String :=
  specs.filter fun spec => !underHome env (Text.firstPiece ':' spec)

/-- The specifications behind the shares: `$HOME` first, then everything outside it. -/
def effectiveVolumes (env : HostEnv) (volumes : List String) : List String :=
  let homeSpec := env.home.map (· ++ ":")
  let homeAlreadyPresent := homeSpec.isSome && volumes.head? == homeSpec
  if homeAlreadyPresent then volumes.take 1 ++ outsideHome env (volumes.drop 1)
  else homeSpec.toList ++ outsideHome env volumes

/-- Build the share list from the `-v` flags. -/
def buildVirtiofsShares (env : HostEnv) (volumes : List String) :
    Except CliError (List VirtiofsShare) :=
  parseVolumes env (effectiveVolumes env volumes)

/-- The share for named volumes. -/
def volumesShare (env : HostEnv) (profile : String) : VirtiofsShare :=
  { hostPath := pelagosVolumesHostPath env profile, tag := "pelagos-volumes", readOnly := false,
    containerPath := "/var/lib/pelagos/volumes" }

/-- Parse the `-p` flags. -/
def parsePorts : List String → Except CliError (List PortForward)
  | [] => .ok []
  | spec :: specs =>
      match parsePortSpec spec with
      | none => .error (.invalidPortSpec spec)
      | some forward => do
          let forwards ← parsePorts specs
          .ok (forward :: forwards)

/-- Decimal digits with leading zeros up to `width`. -/
def padded (width value : Nat) : String :=
  String.ofList (List.replicate (width - value.repr.length) '0') ++ value.repr

/-- `YYYY-MM-DDTHH:MM:SS` in UTC for seconds since the epoch. -/
def clockUtc (now : Nat) : String :=
  let z := now / 86400 + 719468
  let era := z / 146097
  let doe := z - era * 146097
  let yoe := (doe - doe / 1460 + doe / 36524 - doe / 146096) / 365
  let doy := doe - (365 * yoe + yoe / 4 - yoe / 100)
  let mp := (5 * doy + 2) / 153
  let day := doy - (153 * mp + 2) / 5 + 1
  let month := if mp < 10 then mp + 3 else mp - 9
  let year := if month ≤ 2 then yoe + era * 400 + 1 else yoe + era * 400
  padded 4 year ++ "-" ++ padded 2 month ++ "-" ++ padded 2 day ++ "T" ++
    padded 2 (now / 3600 % 24) ++ ":" ++ padded 2 (now / 60 % 60) ++ ":" ++ padded 2 (now % 60)

/-- The kernel command line, with the clock added unless one is given. -/
def cmdlineWithClock (now : Nat) (base : String) : String :=
  if Text.contains base "clock.utc=" then base else base ++ " clock.utc=" ++ clockUtc now

/-- Artifacts are looked up only when neither the flags nor `vm.conf` name them. -/
def discovered (env : HostEnv) (cli : Cli) : Option VmArtifacts :=
  let config := env.profileConfig cli.profile
  if cli.kernel.isNone && config.kernel.isNone || cli.disk.isNone && config.disk.isNone then
    env.artifacts
  else none

/-- The daemon configuration for the given flags at time `now`. -/
def daemonArgsFromCli (env : HostEnv) (now : Nat) (cli : Cli) : Except CliError DaemonArgs :=
  let config := env.profileConfig cli.profile
  let found := discovered env cli
  match (cli.kernel.or config.kernel).or (found.map VmArtifacts.kernel) with
  | none => .error .noKernel
  | some kernel =>
      match (cli.disk.or config.disk).or (found.map VmArtifacts.disk) with
      | none => .error .noDisk
      | some disk => do
          let shares ← buildVirtiofsShares env cli.volumes
          let portForwards ← parsePorts cli.ports
          .ok
            { kernel
              initrd := (cli.initrd.or config.initrd).or (found.bind VmArtifacts.initrd)
              disk
              cmdline := cmdlineWithClock now (config.cmdline.getD cli.cmdline)
              memoryMib := (cli.memory.or config.memory).getD 4096
              cpus := (cli.cpus.or config.cpus).getD 2
              virtiofsShares := volumesShare env cli.profile :: shares
              portForwards
              profile := cli.profile
              extraDisks := cli.extraDisks }

/-! ## The daemon subprocess -/

/-- The specification from which the subprocess reads the share back. -/
def shareSpec (share : VirtiofsShare) : String :=
  share.hostPath ++ ":" ++ share.containerPath ++ if share.readOnly then ":ro" else ""

/-- A port forward as text. -/
def portSpec (forward : PortForward) : String :=
  forward.hostPort.toNat.repr ++ ":" ++ forward.containerPort.toNat.repr

/-- Arguments of the `vm-daemon-internal` subprocess. -/
def daemonSubprocessArgs (args : DaemonArgs) : List String :=
  (if args.profile ≠ "default" then ["--profile", args.profile] else []) ++
    ["--kernel", args.kernel, "--disk", args.disk] ++
    (args.initrd.elim [] fun initrd => ["--initrd", initrd]) ++
    ["--cmdline", args.cmdline, "--memory", args.memoryMib.toNat.repr, "--cpus",
      args.cpus.toNat.repr] ++
    (args.virtiofsShares.flatMap fun share => ["--volume", shareSpec share]) ++
    (args.portForwards.flatMap fun forward => ["--port", portSpec forward]) ++
    (args.extraDisks.flatMap fun path => ["--extra-disk", path]) ++ ["vm-daemon-internal"]

/-- The flags before any argument is read. -/
def Cli.defaults (env : HostEnv) : Cli :=
  { profile := "default", kernel := env.pelagosKernel, initrd := env.pelagosInitrd,
    disk := env.pelagosDisk,
    cmdline := env.pelagosCmdline.getD "console=hvc0 random.trust_cpu=on", memory := none,
    cpus := none, volumes := [], ports := [], extraDisks := [] }

/-- Read a `usize`. -/
def parseSize (text : String) : Option UInt64 :=
  (Text.parseUnsigned UInt64.size text).map UInt64.ofNat

/-- Read the value of one flag. -/
def Cli.setFlag (cli : Cli) (flag value : String) : Option Cli :=
  match flag with
  | "--profile" => some { cli with profile := value }
  | "--kernel" => some { cli with kernel := some value }
  | "--initrd" => some { cli with initrd := some value }
  | "--disk" => some { cli with disk := some value }
  | "--cmdline" => some { cli with cmdline := value }
  | "--memory" => (parseSize value).map fun memory => { cli with memory := some memory }
  | "--cpus" => (parseSize value).map fun cpus => { cli with cpus := some cpus }
  | "--volume" => some { cli with volumes := cli.volumes ++ [value] }
  | "--port" => some { cli with ports := cli.ports ++ [value] }
  | "--extra-disk" => some { cli with extraDisks := cli.extraDisks ++ [value] }
  | _ => none

/-- Read the arguments of the subprocess, flags and values in turn. -/
def Cli.parseArgs (cli : Cli) : List String → Option Cli
  | [] => none
  | [command] => if command = "vm-daemon-internal" then some cli else none
  | flag :: value :: rest => do
      let next ← cli.setFlag flag value
      next.parseArgs rest

/-- The configuration the subprocess computes for itself at time `now`. -/
def childDaemonArgs (env : HostEnv) (now : Nat) (args : DaemonArgs) : Except CliError DaemonArgs :=
  match (Cli.defaults env).parseArgs (daemonSubprocessArgs args) with
  | none => .error .usage
  | some cli => daemonArgsFromCli env now cli

end Pelagos.CommandLine
