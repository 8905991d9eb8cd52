import Pelagos.Library.Execution
import Pelagos.Library.SetReplay
import Pelagos.Library.HashMap
import Pelagos.Library.Text
import Pelagos.Library.Tokens
import Pelagos.Library.LexicalPath
import Pelagos.Library.ByteStream
import Pelagos.Library.Calendar
import Pelagos.Library.Frames
import Pelagos.Library.Lines
import Pelagos.Library.NeighbourDiscovery
import Pelagos.Library.Utf8
import Pelagos.Library.LineText
import Pelagos.Library.Ring
import Pelagos.Library.Slices
import Pelagos.Library.InternetChecksum
import Pelagos.Library.CommandGrammar
import Pelagos.Library.RelayedStream
import Pelagos.Library.Json
import Pelagos.Library.Serde
import Pelagos.Library.DescriptorTable
import Pelagos.Library.Writing
import Pelagos.Library.Patterns
import Pelagos.Library.FileTree
import Pelagos.Library.JsonPrefix
import Pelagos.Library.PrefixCode
import Pelagos.Library.LengthPrefix
import Pelagos.Library.ShortWrites
import Pelagos.Library.TornLines
import Pelagos.Library.FileReplacement
import Pelagos.Library.FirstOccurrences
import Pelagos.Library.Ipv6Text
import Pelagos.Library.ShellFields
import Pelagos.Guest.ContainerEvents
import Pelagos.Guest.Subscription
import Pelagos.Guest.SubscriberView
import Pelagos.Guest.PollErrors
import Pelagos.Guest.Descriptors
import Pelagos.Guest.Dockerfile
import Pelagos.Guest.Broadcast
import Pelagos.Guest.Substitution
import Pelagos.Guest.PrePull
import Pelagos.Guest.Init
import Pelagos.Daemon.Ports
import Pelagos.Daemon.PortTables
import Pelagos.Daemon.ProxyThreads
import Pelagos.Daemon.PortService
import Pelagos.Daemon.PortClients
import Pelagos.Daemon.ComposePorts
import Pelagos.Daemon.RegistrationLoop
import Pelagos.Daemon.ExitWatch
import Pelagos.Daemon.WatchRecords
import Pelagos.Daemon.Startup
import Pelagos.Daemon.ConfigConflict
import Pelagos.Daemon.Relay
import Pelagos.Daemon.Console
import Pelagos.Daemon.ConsoleRelay
import Pelagos.Daemon.StateFiles
import Pelagos.Daemon.Restart
import Pelagos.Wire.PipedOutput
import Pelagos.Wire.PipedInput
import Pelagos.Wire.Commands
import Pelagos.Wire.Responses
import Pelagos.Wire.Handshake
import Pelagos.Wire.FrameSwitch
import Pelagos.Wire.Transparency
import Pelagos.Wire.StreamedOutput
import Pelagos.Wire.Handlers
import Pelagos.Wire.TerminalResponses
import Pelagos.Wire.Exits
import Pelagos.Wire.TerminalExec
import Pelagos.Wire.TornLines
import Pelagos.Wire.Copies
import Pelagos.CommandLine.Volumes
import Pelagos.CommandLine.Respawn
import Pelagos.CommandLine.Mounts
import Pelagos.CommandLine.GuestPaths
import Pelagos.CommandLine.VmConf
import Pelagos.CommandLine.Subnets
import Pelagos.CommandLine.Persistence
import Pelagos.CommandLine.VmInit
import Pelagos.CommandLine.Compose
import Pelagos.CommandLine.Grammar
import Pelagos.CommandLine.ProfileDirs
import Pelagos.CommandLine.CopyOut
import Pelagos.CommandLine.BuildContext
import Pelagos.CommandLine.BootClock
import Pelagos.CommandLine.ComposeEnv
import Pelagos.CommandLine.ConsoleInput
import Pelagos.CommandLine.ConsoleSessions
import Pelagos.CommandLine.KernelCommandLine
import Pelagos.DockerShim.VolumeSpecs
import Pelagos.DockerShim.Cache
import Pelagos.DockerShim.Invocations
import Pelagos.DockerShim.CommandLineAgreement
import Pelagos.DockerShim.PortSpecs
import Pelagos.DockerShim.Dockerfile
import Pelagos.DockerShim.ArgSubstitution
import Pelagos.DockerShim.PsTable
import Pelagos.DockerShim.ProxySignals
import Pelagos.DockerShim.Events
import Pelagos.DockerShim.Inspect
import Pelagos.DockerShim.PsFilters
import Pelagos.Pfctl.Anchor
import Pelagos.Pfctl.Requests
import Pelagos.Pfctl.Atomicity
import Pelagos.Pfctl.SystemAgreement
import Pelagos.Pfctl.Injection
import Pelagos.Pfctl.NeighbourDiscovery
import Pelagos.Pfctl.Client
import Pelagos.Pfctl.RelaySessions
import Pelagos.TunRelay.Frames
import Pelagos.TunRelay.Relay
import Pelagos.TunRelay.Contract
import Pelagos.TunRelay.Aliases
import Pelagos.SocketVmnet.Relay
