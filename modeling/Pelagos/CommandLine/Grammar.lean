import Pelagos.Library.CommandGrammar

/-!
# The command line of `pelagos`

The flags and subcommands that `Cli` and `Commands` declare.
-/

namespace Pelagos.CommandLine

open CommandGrammar

/-- The flags of `Cli`. -/
def cliFlags : List Flag :=
  [{ long := "profile", takesValue := true, everywhere := true },
    { long := "kernel", takesValue := true },
    { long := "initrd", takesValue := true },
    { long := "disk", takesValue := true },
    { long := "cmdline", takesValue := true },
    { long := "memory", takesValue := true },
    { long := "cpus", takesValue := true },
    { short := 'v', long := "volume", takesValue := true, everywhere := true },
    { short := 'p', long := "port", takesValue := true, everywhere := true },
    { long := "extra-disk", takesValue := true, everywhere := true }]

/-- A subcommand that takes these operands, all of which have to be given. -/
def plainCommand (name : String) (operands : Nat) (flags : List Flag) : Command :=
  { name, flags, required := operands, operands, trailing := false }

/-- A subcommand that passes on what follows its operands. -/
def trailingCommand (name : String) (operands : Nat) (flags : List Flag) : Command :=
  { name, flags, required := operands, operands, trailing := true }

/-- A subcommand that has subcommands of its own; their flags are not looked at. -/
def nestedCommand (name : String) : Command := trailingCommand name 1 []

/-- `Commands`. -/
def commands : List Command :=
  [trailingCommand "run" 1
      [{ long := "name", takesValue := true },
        { short := 'd', long := "detach", takesValue := false },
        { short := 'e', long := "env", takesValue := true },
        { short := 'l', long := "label", takesValue := true },
        { short := 'i', long := "interactive", takesValue := false },
        { short := 't', long := "tty", takesValue := false },
        { short := 'n', long := "network", takesValue := true },
        { long := "dns", takesValue := true }],
    trailingCommand "exec" 1
      [{ short := 't', long := "tty", takesValue := false },
        { short := 'u', long := "user", takesValue := true },
        { short := 'w', long := "workdir", takesValue := true }],
    plainCommand "ps" 0
      [{ short := 'a', long := "all", takesValue := false },
        { long := "json", takesValue := false }],
    plainCommand "logs" 1 [{ short := 'f', long := "follow", takesValue := false }],
    plainCommand "inspect" 1 [],
    nestedCommand "container",
    -- The command of `start` stands behind `--`.
    plainCommand "start" 1 [{ short := 'i', long := "interactive", takesValue := false }],
    plainCommand "stop" 1 [],
    plainCommand "restart" 1 [{ short := 't', long := "time", takesValue := true }],
    plainCommand "rm" 1 [{ short := 'f', long := "force", takesValue := false }],
    plainCommand "ping" 0 [],
    plainCommand "version" 0 [],
    plainCommand "subscribe" 0 [],
    { name := "build"
      flags :=
        [{ short := 't', long := "tag", takesValue := true },
          { short := 'f', long := "file", takesValue := true },
          { long := "build-arg", takesValue := true },
          { long := "no-cache", takesValue := false },
          { long := "target", takesValue := true }]
      required := 0, operands := 1, trailing := false },
    nestedCommand "image",
    { name := "volume", flags := [], required := 1, operands := 2, trailing := false },
    trailingCommand "network" 1 [],
    nestedCommand "compose",
    plainCommand "cp" 2 [],
    nestedCommand "vm",
    nestedCommand "kubernetes",
    plainCommand "vm-daemon-internal" 0 [],
    plainCommand "ssh-relay-proxy" 1 []]

def cliGrammar : Grammar := { flags := cliFlags, commands }

end Pelagos.CommandLine
