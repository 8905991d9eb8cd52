import Pelagos.Library.Json
import Pelagos.Pfctl.Anchor

/-!
# Requests to the packet filter helper

The helper answers one request at a time.  A handler issues system commands, whose outcome is up to
the host, and changes the helper's state in between.
-/

namespace Pelagos.Pfctl

open Serde

/-- What the helper asks of the system. -/
inductive SystemCall where
  /-- Run a program with these arguments. -/
  | run (program : String) (args : List String)
  /-- Replace the contents of a file. -/
  | write (path text : String)
  deriving DecidableEq

/-- A host carries out system calls and says what went wrong, if anything. -/
structure Host (σ : Type) where
  perform : SystemCall → σ → Option String × σ
  /-- Create a utun: its name, or an error. -/
  createUtun : σ → Except String String × σ

/-- What the helper uses of the standard library: `char::is_alphanumeric`, the reading of IPv6
addresses and the quoting of texts in messages. -/
structure TextRules (Address : Type) where
  isAlphanumeric : Char → Bool
  ascii : ∀ char, char.toNat < 128 → isAlphanumeric char = char.isAlphanum
  visible : ∀ char, isAlphanumeric char = true → Text.isWhiteSpace char = false
  parseIpv6 : String → Option Address
  quoted : String → String

/-- Letters and digits as far as ASCII goes. -/
def asciiRules {Address : Type} (parseIpv6 : String → Option Address) : TextRules Address where
  isAlphanumeric := Char.isAlphanum
  ascii _ _ := rfl
  visible char letter := by
    have same : char.val.toNat = char.toNat := rfl
    have in_range : (decide (char.val ≥ 65 ∧ char.val ≤ 90) || (char.val ≥ 97 && char.val ≤ 122) ||
        (char.val ≥ 48 && char.val ≤ 57)) = true := letter
    simp only [Bool.or_eq_true, Bool.and_eq_true, decide_eq_true_eq, ge_iff_le,
      UInt32.le_iff_toNat_le, same] at in_range
    rw [Bool.eq_false_iff]
    intro space
    simp [Text.isWhiteSpace] at in_range space
    omega
  parseIpv6
  quoted text := "\"" ++ text ++ "\""

/-- A request, as the relay sends it. -/
inductive Request where
  | setupUtun (iface ipv4Addr ipv4Peer ipv4Cidr egressIface : String)
  | teardownUtun (iface : String)
  | addRdr (proto : String) (hostPort : UInt16) (vmIp : String) (vmPort : UInt16)
  | removeRdr (proto : String) (hostPort : UInt16)
  | createUtun
  | assignUtunAlias (iface addr : String)
  deriving DecidableEq

/-- Read the variant of a request. -/
def Request.ofVariant (variant : String) (members : Members) : Except DecodeError Request :=
  match variant with
  | "setup_utun" => do
      return setupUtun (← required string "iface" members) (← required string "ipv4_addr" members)
        (← required string "ipv4_peer" members) (← required string "ipv4_cidr" members)
        (← required string "egress_iface" members)
  | "teardown_utun" => do return teardownUtun (← required string "iface" members)
  | "add_rdr" => do
      return addRdr (← required string "proto" members) (← required uint16 "host_port" members)
        (← required string "vm_ip" members) (← required uint16 "vm_port" members)
  | "remove_rdr" => do
      return removeRdr (← required string "proto" members) (← required uint16 "host_port" members)
  | "create_utun" => .ok createUtun
  | "assign_utun_alias" => do
      return assignUtunAlias (← required string "iface" members) (← required string "addr" members)
  | _ => .error (.unknownVariant variant)

/-- Read the line of a request. -/
def Request.ofLine (line : String) : Except DecodeError Request :=
  fromText (internallyTagged "action" ofVariant) (Text.trim line)

/-- The line in which the relay sends a request. -/
def Request.toJson : Request → Json
  | setupUtun iface ipv4Addr ipv4Peer ipv4Cidr egressIface =>
      tagged "action" "setup_utun"
        [("iface", some (.string iface)), ("ipv4_addr", some (.string ipv4Addr)),
          ("ipv4_peer", some (.string ipv4Peer)), ("ipv4_cidr", some (.string ipv4Cidr)),
          ("egress_iface", some (.string egressIface))]
  | teardownUtun iface => tagged "action" "teardown_utun" [("iface", some (.string iface))]
  | addRdr proto hostPort vmIp vmPort =>
      tagged "action" "add_rdr"
        [("proto", some (.string proto)), ("host_port", some (ofUInt16 hostPort)),
          ("vm_ip", some (.string vmIp)), ("vm_port", some (ofUInt16 vmPort))]
  | removeRdr proto hostPort =>
      tagged "action" "remove_rdr"
        [("proto", some (.string proto)), ("host_port", some (ofUInt16 hostPort))]
  | createUtun => tagged "action" "create_utun" []
  | assignUtunAlias iface addr =>
      tagged "action" "assign_utun_alias"
        [("iface", some (.string iface)), ("addr", some (.string addr))]

def Request.toLine (request : Request) : String := request.toJson.toText ++ "\n"

/-- A response. -/
structure Response where
  ok : Bool
  error : Option String
  active : Option Bool
  deriving DecidableEq

def okResp : Response := { ok := true, error := none, active := none }

def errResp (message : String) : Response := { ok := false, error := some message, active := none }

/-- What the helper answers to a line. -/
inductive Answer where
  | parseError (error : DecodeError)
  | response (response : Response)
  /-- The answer to `create_utun`, which carries the descriptor beside it. -/
  | utun (created : Except String String)

/-- The answer's `ok`. -/
def Answer.ok : Answer → Bool
  | parseError _ => false
  | response given => given.ok
  | utun (.ok _) => true
  | utun (.error _) => false

/-- The system and the helper's state. -/
structure World (σ : Type) where
  system : σ
  state : DaemonState

/-- The name of an interface is not empty and has only letters, digits, `-` and `_`. -/
def isSafeIface {Address : Type} (rules : TextRules Address) (name : String) : Bool :=
  !name.isEmpty && name.toList.all fun char => rules.isAlphanumeric char || char == '-' ||
    char == '_'

namespace Request

theorem toJson_eq_object (request : Request) :
    ∃ variant entries, request.toJson = tagged "action" variant entries ∧
      "action" ∉ entries.map Prod.fst ∧ (∀ entry ∈ entries, ∀ value ∈ entry.2, value.Fits 126) ∧
      ofVariant variant (record entries) = .ok request := by
  cases request <;> refine ⟨_, _, rfl, by simp, ?_, ?_⟩ <;> simp [ofVariant]

/-- The helper reads every request of the relay. -/
theorem ofLine_toLine (request : Request) : ofLine request.toLine = .ok request := by
  obtain ⟨variant, entries, json_eq, untagged, fits, read⟩ := toJson_eq_object request
  have fits_tagged : (tagged "action" variant entries).Fits Json.depthLimit := by
    refine fits_record fun entry member => ?_
    rcases List.mem_cons.mp member with rfl | member
    · simp
    · exact fits entry member
  have text_eq : Text.trim (toLine request) = (tagged "action" variant entries).toText := by
    rw [toLine, json_eq, tagged, Json.trim_object_line]
  rw [ofLine, text_eq, fromText, Json.parse_toText fits_tagged]
  exact (internallyTagged_tagged ofVariant untagged).trans read

end Request

section Handlers

variable {σ Address : Type} (host : Host σ) (rules : TextRules Address) (order : UtunOrder)

/-- A handler changes the system and the state. -/
abbrev Handler (σ : Type) := StateM (World σ)

def perform (call : SystemCall) : Handler σ (Option String) := fun world =>
  let (error, system) := host.perform call world.system
  (error, { world with system })

def runPfctl (args : List String) : Handler σ (Option String) :=
  perform host (.run "/sbin/pfctl" args)

def runIfconfig (args : List String) : Handler σ (Option String) :=
  perform host (.run "/sbin/ifconfig" args)

def runSysctlSet (key value : String) : Handler σ (Option String) :=
  perform host (.run "/usr/sbin/sysctl" ["-w", key ++ "=" ++ value])

def runRoute (args : List String) : Handler σ (Option String) :=
  perform host (.run "/sbin/route" args)

/-- Change the helper's state. -/
def modifyState (change : DaemonState → DaemonState) : Handler σ Unit := fun world =>
  ((), { world with state := change world.state })

def getState : Handler σ DaemonState := fun world => (world.state, world)

/-- The anchor that all rules are loaded into. -/
def anchorNat : String := "com.apple/pelagos-nat"

/-- The file the rules are loaded from. -/
def anchorFileNat : String := "/etc/pf.anchors/pelagos-nat"

/-- Write the anchor for the present state and load it; with no rules, flush it. -/
def reloadNatAnchor : Handler σ Response := do
  let text := (← getState).anchorText order
  if text.isEmpty then
    let _ ← runPfctl host ["-a", anchorNat, "-F", "all"]
    return okResp
  if let some error ← perform host (.write anchorFileNat text) then
    return errResp ("write " ++ anchorFileNat ++ ": " ++ error)
  if let some error ← runPfctl host ["-a", anchorNat, "-f", anchorFileNat] then
    return errResp ("pfctl nat anchor: " ++ error)
  return okResp

/-- Give the interface its addresses and enable forwarding; a response when that failed. -/
def configureUtun (iface ipv4Addr ipv4Peer : String) : Handler σ (Option Response) := do
  let _ ← runRoute host ["delete", "-host", ipv4Peer]
  if let some error ← runIfconfig host [iface, "inet", ipv4Addr, ipv4Peer, "up"] then
    return some (errResp ("ifconfig inet: " ++ error))
  let _ ← runIfconfig host [iface, "inet6", "fd00::1", "prefixlen", "128", "alias"]
  if let some error ← runSysctlSet host "net.inet.ip.forwarding" "1" then
    return some (errResp ("sysctl net.inet.ip.forwarding: " ++ error))
  if let some error ← runSysctlSet host "net.inet6.ip6.forwarding" "1" then
    return some (errResp ("sysctl net.inet6.ip6.forwarding: " ++ error))
  return none

def handleSetupUtun (iface ipv4Addr ipv4Peer ipv4Cidr egressIface : String) :
    Handler σ Response := do
  if !isSafeIface rules iface || !isSafeIface rules egressIface then
    return errResp "invalid interface name"
  if let some failed ← configureUtun host iface ipv4Addr ipv4Peer then
    return failed
  let _ ← runPfctl host ["-a", "com.apple.internet-sharing/network_isolation", "-t",
    "network_isolation_table_v4", "-T", "delete", ipv4Cidr]
  modifyState (·.withUtun iface { egressIface, ipv4Cidr })
  let _ ← runPfctl host ["-e"]
  let response ← reloadNatAnchor host order
  if !response.ok then
    return response
  return okResp

/-- Delete the routes of an interface and forget its aliases. -/
def releaseAliases (iface : String) : List (String × String) → Handler σ (List (String × String))
  | [] => return []
  | (owner, addr) :: aliases => do
      if owner = iface then
        let _ ← runRoute host ["delete", "-inet6", "-host", addr]
        releaseAliases iface aliases
      else
        return (owner, addr) :: (← releaseAliases iface aliases)

/-- After the last utun is gone: flush the anchor, disable forwarding and drop the forwards. -/
def clearAnchor : Handler σ Unit := do
  let _ ← runPfctl host ["-a", anchorNat, "-F", "all"]
  let _ ← runSysctlSet host "net.inet.ip.forwarding" "0"
  let _ ← runSysctlSet host "net.inet6.ip6.forwarding" "0"
  modifyState fun state => { state with rdrRules := [] }

/-- Take the routes and the addresses of an interface away and bring it down. -/
def releaseUtun (iface : String) : Handler σ Unit := do
  let kept ← releaseAliases host iface (← getState).ipv6Aliases
  modifyState fun state => { state with ipv6Aliases := kept }
  let _ ← runIfconfig host [iface, "inet6", "fd00::1", "-alias"]
  let _ ← runIfconfig host [iface, "down"]

def handleTeardownUtun (iface : String) : Handler σ Response := do
  modifyState (·.withoutUtun iface)
  if (← getState).activeUtuns = ∅ then
    clearAnchor host
  else
    let _ ← reloadNatAnchor host order
  releaseUtun host iface
  return okResp

def handleAssignUtunAlias (iface addr : String) : Handler σ Response := do
  if !isSafeIface rules iface then
    return errResp "invalid interface name"
  if (rules.parseIpv6 addr).isNone then
    return errResp ("invalid IPv6 address: " ++ rules.quoted addr)
  if let some error ← runRoute host ["add", "-inet6", "-host", addr, "-interface", iface] then
    return errResp ("route add -inet6 -host: " ++ error)
  modifyState (·.withAlias iface addr)
  return okResp

def handleAddRdr (proto : String) (hostPort : UInt16) (vmIp : String) (vmPort : UInt16) :
    Handler σ Response := do
  if proto ≠ "tcp" && proto ≠ "udp" then
    return errResp ("invalid proto: " ++ rules.quoted proto)
  modifyState fun state =>
    (state.withoutRdr proto hostPort).withRdr { proto, hostPort, vmIp, vmPort }
  reloadNatAnchor host order

def handleRemoveRdr (proto : String) (hostPort : UInt16) : Handler σ Response := do
  modifyState (·.withoutRdr proto hostPort)
  reloadNatAnchor host order

/-- Answer a request. -/
def handleRequest : Request → Handler σ Answer
  | .setupUtun iface ipv4Addr ipv4Peer ipv4Cidr egressIface =>
      .response <$> handleSetupUtun host rules order iface ipv4Addr ipv4Peer ipv4Cidr egressIface
  | .teardownUtun iface => .response <$> handleTeardownUtun host order iface
  | .addRdr proto hostPort vmIp vmPort =>
      .response <$> handleAddRdr host rules order proto hostPort vmIp vmPort
  | .removeRdr proto hostPort => .response <$> handleRemoveRdr host order proto hostPort
  | .createUtun => fun world =>
      let (created, system) := host.createUtun world.system
      (.utun created, { world with system })
  | .assignUtunAlias iface addr => .response <$> handleAssignUtunAlias host rules iface addr

/-- Answer the line of a connection. -/
def handleConnection (line : String) : Handler σ Answer :=
  match Request.ofLine line with
  | .error error => return .parseError error
  | .ok request => handleRequest host rules order request

/-! ## Running a handler -/

variable {α β : Type} {host} {rules} {order} {world : World σ}

theorem bind_apply (first : Handler σ α) (next : α → Handler σ β) (world : World σ) :
    (first >>= next) world = next (first world).1 (first world).2 := rfl

theorem pure_apply (value : α) (world : World σ) :
    (pure value : Handler σ α) world = (value, world) := rfl

theorem map_apply (change : α → β) (first : Handler σ α) (world : World σ) :
    (change <$> first) world = (change (first world).1, (first world).2) := rfl

theorem handleConnection_toLine (request : Request) :
    handleConnection host rules order request.toLine = handleRequest host rules order request := by
  unfold handleConnection
  rw [Request.ofLine_toLine]

theorem getState_apply (world : World σ) : getState world = (world.state, world) := rfl

/-- The handler leaves the helper's state as it is. -/
def KeepsState (handler : Handler σ α) : Prop := ∀ world, (handler world).2.state = world.state

theorem keepsState_pure (value : α) : KeepsState (pure value : Handler σ α) := fun _ => rfl

theorem keepsState_bind {first : Handler σ α} {next : α → Handler σ β}
    (first_keeps : KeepsState first) (next_keeps : ∀ value, KeepsState (next value)) :
    KeepsState (first >>= next) := fun world =>
  (next_keeps (first world).1 (first world).2).trans (first_keeps world)

/-- What the handler returns has the property. -/
def Yields (handler : Handler σ α) (property : α → Prop) : Prop :=
  ∀ world, property (handler world).1

theorem yields_pure {property : α → Prop} {value : α} (holds : property value) :
    Yields (pure value : Handler σ α) property := fun _ => holds

theorem yields_bind {property : β → Prop} {first : Handler σ α} {next : α → Handler σ β}
    (next_yields : ∀ value, Yields (next value) property) : Yields (first >>= next) property :=
  fun world => next_yields (first world).1 (first world).2

theorem keepsState_getState : KeepsState (getState (σ := σ)) := fun _ => rfl

theorem keepsState_perform (call : SystemCall) : KeepsState (perform host call) := fun _ => rfl

/-- Loading the anchor changes nothing but the system. -/
theorem keepsState_reloadNatAnchor : KeepsState (reloadNatAnchor host order) := by
  refine keepsState_bind keepsState_getState fun state => ?_
  dsimp only
  split
  · exact keepsState_bind (keepsState_perform _) fun _ => keepsState_pure _
  · refine keepsState_bind (keepsState_perform _) fun written => ?_
    split
    · exact keepsState_pure _
    · refine keepsState_bind (keepsState_perform _) fun loaded => ?_
      split <;> exact keepsState_pure _

/-- Configuring an interface changes nothing but the system. -/
theorem keepsState_configureUtun (iface ipv4Addr ipv4Peer : String) :
    KeepsState (configureUtun host iface ipv4Addr ipv4Peer) := by
  refine keepsState_bind (keepsState_perform _) fun _ => ?_
  refine keepsState_bind (keepsState_perform _) fun assigned => ?_
  split
  · exact keepsState_pure _
  · refine keepsState_bind (keepsState_perform _) fun _ => ?_
    refine keepsState_bind (keepsState_perform _) fun forwarding => ?_
    split
    · exact keepsState_pure _
    · refine keepsState_bind (keepsState_perform _) fun forwarding6 => ?_
      split <;> exact keepsState_pure _

theorem keepsState_releaseAliases (iface : String) (aliases : List (String × String)) :
    KeepsState (releaseAliases host iface aliases) := by
  induction aliases with
  | nil => exact keepsState_pure _
  | cons entry aliases ih =>
      rw [releaseAliases]
      split
      · exact keepsState_bind (keepsState_perform _) fun _ => ih
      · exact keepsState_bind ih fun _ => keepsState_pure _

/-- The aliases of other interfaces are kept. -/
theorem releaseAliases_fst (iface : String) (aliases : List (String × String)) (world : World σ) :
    (releaseAliases host iface aliases world).1 =
      aliases.filter fun entry => entry.1 ≠ iface := by
  induction aliases generalizing world with
  | nil => rfl
  | cons entry aliases ih =>
      rw [releaseAliases]
      split
      · rename_i owned
        rw [bind_apply, ih, List.filter_cons_of_neg (by simpa using owned)]
      · rename_i other
        rw [bind_apply, pure_apply, ih, List.filter_cons_of_pos (by simpa using other)]

/-- What loading the anchor does, call by call. -/
theorem reloadNatAnchor_eq (host : Host σ) (order : UtunOrder) (world : World σ) :
    reloadNatAnchor host order world =
      if world.state.anchorText order = "" then
        (okResp, (runPfctl host ["-a", anchorNat, "-F", "all"] world).2)
      else
        let written := perform host (.write anchorFileNat (world.state.anchorText order)) world
        match written.1 with
        | some error => (errResp ("write " ++ anchorFileNat ++ ": " ++ error), written.2)
        | none =>
            let loaded := runPfctl host ["-a", anchorNat, "-f", anchorFileNat] written.2
            match loaded.1 with
            | some error => (errResp ("pfctl nat anchor: " ++ error), loaded.2)
            | none => (okResp, loaded.2) := by
  rw [reloadNatAnchor, bind_apply]
  by_cases empty : world.state.anchorText order = ""
  · rw [if_pos empty]
    exact (congrFun (if_pos (String.isEmpty_iff.mpr empty)) _).trans rfl
  · rw [if_neg empty]
    refine (congrFun (if_neg (mt String.isEmpty_iff.mp empty)) _).trans ?_
    refine (bind_apply _ _ _).trans ?_
    dsimp only [getState_apply]
    split
    · rename_i outcome
      rw [outcome]
      rfl
    · rename_i outcome
      rw [outcome]
      refine (bind_apply _ _ _).trans ?_
      split <;> rename_i loaded <;> rw [loaded] <;> rfl

/-- What configuring an interface does, call by call. -/
theorem configureUtun_eq (host : Host σ) (iface ipv4Addr ipv4Peer : String) (world : World σ) :
    configureUtun host iface ipv4Addr ipv4Peer world =
      let routed := (runRoute host ["delete", "-host", ipv4Peer] world).2
      let assigned := runIfconfig host [iface, "inet", ipv4Addr, ipv4Peer, "up"] routed
      match assigned.1 with
      | some error => (some (errResp ("ifconfig inet: " ++ error)), assigned.2)
      | none =>
          let anchored := (runIfconfig host
            [iface, "inet6", "fd00::1", "prefixlen", "128", "alias"] assigned.2).2
          let forwarding := runSysctlSet host "net.inet.ip.forwarding" "1" anchored
          match forwarding.1 with
          | some error =>
              (some (errResp ("sysctl net.inet.ip.forwarding: " ++ error)), forwarding.2)
          | none =>
              let forwarding6 := runSysctlSet host "net.inet6.ip6.forwarding" "1" forwarding.2
              match forwarding6.1 with
              | some error =>
                  (some (errResp ("sysctl net.inet6.ip6.forwarding: " ++ error)), forwarding6.2)
              | none => (none, forwarding6.2) := by
  rw [configureUtun, bind_apply, bind_apply]
  dsimp only
  split <;> rename_i assigned <;> rw [assigned]
  · rfl
  · refine (bind_apply _ _ _).trans ((bind_apply _ _ _).trans ?_)
    split <;> rename_i forwarding <;> rw [forwarding]
    · rfl
    · refine (bind_apply _ _ _).trans ?_
      split <;> rename_i forwarding6 <;> rw [forwarding6] <;> rfl

/-! ## What a handler does to the state -/

/-- The names are safe and the interface could be configured. -/
def SetupAccepted (host : Host σ) (rules : TextRules Address)
    (iface ipv4Addr ipv4Peer egressIface : String) (world : World σ) : Prop :=
  isSafeIface rules iface = true ∧ isSafeIface rules egressIface = true ∧
    (configureUtun host iface ipv4Addr ipv4Peer world).1 = none

/-- The world in which an accepted interface is loaded. -/
def setupWorld (host : Host σ) (iface ipv4Addr ipv4Peer ipv4Cidr egressIface : String)
    (world : World σ) : World σ :=
  let configured := (configureUtun host iface ipv4Addr ipv4Peer world).2
  let released := (runPfctl host ["-a", "com.apple.internet-sharing/network_isolation", "-t",
    "network_isolation_table_v4", "-T", "delete", ipv4Cidr] configured).2
  (runPfctl host ["-e"]
    { released with state := released.state.withUtun iface { egressIface, ipv4Cidr } }).2

theorem state_setupWorld (iface ipv4Addr ipv4Peer ipv4Cidr egressIface : String) :
    (setupWorld host iface ipv4Addr ipv4Peer ipv4Cidr egressIface world).state =
      world.state.withUtun iface { egressIface, ipv4Cidr } :=
  congrArg (fun state : DaemonState => state.withUtun iface { egressIface, ipv4Cidr })
    (keepsState_configureUtun iface ipv4Addr ipv4Peer world)

theorem handleSetupUtun_of_accepted {iface ipv4Addr ipv4Peer ipv4Cidr egressIface : String}
    (accepted : SetupAccepted host rules iface ipv4Addr ipv4Peer egressIface world) :
    let reloaded := reloadNatAnchor host order
      (setupWorld host iface ipv4Addr ipv4Peer ipv4Cidr egressIface world)
    handleSetupUtun host rules order iface ipv4Addr ipv4Peer ipv4Cidr egressIface world =
      (if reloaded.1.ok then okResp else reloaded.1, reloaded.2) := by
  obtain ⟨safe, egress_safe, configured⟩ := accepted
  intro reloaded
  rw [handleSetupUtun, if_neg (by simp [safe, egress_safe]), bind_apply, configured]
  change (if !reloaded.1.ok then pure reloaded.1 else pure okResp : Handler σ Response)
    reloaded.2 = _
  cases reloaded.1.ok <;> rfl

/-- What configuring an interface returns, if anything, is a refusal. -/
theorem yields_configureUtun (iface ipv4Addr ipv4Peer : String) :
    Yields (configureUtun host iface ipv4Addr ipv4Peer)
      fun refusal => ∀ failed ∈ refusal, failed.ok = false := by
  refine yields_bind fun _ => yields_bind fun assigned => ?_
  split
  · exact yields_pure (by simp [errResp])
  · refine yields_bind fun _ => yields_bind fun forwarding => ?_
    split
    · exact yields_pure (by simp [errResp])
    · refine yields_bind fun forwarding6 => ?_
      split
      · exact yields_pure (by simp [errResp])
      · exact yields_pure (by simp)

theorem handleSetupUtun_of_bad_name {iface ipv4Addr ipv4Peer ipv4Cidr egressIface : String}
    (bad_name : ¬ (isSafeIface rules iface = true ∧ isSafeIface rules egressIface = true)) :
    handleSetupUtun host rules order iface ipv4Addr ipv4Peer ipv4Cidr egressIface world =
      (errResp "invalid interface name", world) := by
  have refused : (!isSafeIface rules iface || !isSafeIface rules egressIface) = true := by
    cases one : isSafeIface rules iface <;> cases other : isSafeIface rules egressIface <;>
      simp_all
  rw [handleSetupUtun, if_pos refused]
  rfl

theorem handleSetupUtun_of_refused {iface ipv4Addr ipv4Peer ipv4Cidr egressIface : String}
    (refused : ¬ SetupAccepted host rules iface ipv4Addr ipv4Peer egressIface world) :
    let outcome :=
      handleSetupUtun host rules order iface ipv4Addr ipv4Peer ipv4Cidr egressIface world
    outcome.1.ok = false ∧ outcome.2.state = world.state := by
  intro outcome
  by_cases safe : isSafeIface rules iface = true ∧ isSafeIface rules egressIface = true
  · cases configured : (configureUtun host iface ipv4Addr ipv4Peer world).1 with
    | none => exact absurd ⟨safe.1, safe.2, configured⟩ refused
    | some failed =>
        have stopped :
            outcome = (failed, (configureUtun host iface ipv4Addr ipv4Peer world).2) := by
          simp only [outcome]
          rw [handleSetupUtun, if_neg (by simp [safe]), bind_apply, configured]
          rfl
        rw [stopped]
        exact ⟨yields_configureUtun _ _ _ world failed configured, keepsState_configureUtun _ _ _ _⟩
  · have stopped : outcome = (errResp "invalid interface name", world) :=
      handleSetupUtun_of_bad_name safe
    rw [stopped]
    exact ⟨rfl, rfl⟩

/-- The state after a utun is torn down. -/
def DaemonState.tornDown (state : DaemonState) (iface : String) : DaemonState :=
  { activeUtuns := state.activeUtuns.erase iface
    rdrRules := if state.activeUtuns.erase iface = ∅ then [] else state.rdrRules
    ipv6Aliases := state.ipv6Aliases.filter fun entry => entry.1 ≠ iface }

theorem state_releaseUtun (iface : String) (world : World σ) :
    (releaseUtun host iface world).2.state =
      { world.state with
        ipv6Aliases := world.state.ipv6Aliases.filter fun entry => entry.1 ≠ iface } := by
  have kept : (releaseAliases host iface world.state.ipv6Aliases world).1 = _ :=
    releaseAliases_fst iface world.state.ipv6Aliases world
  have unchanged : (releaseAliases host iface world.state.ipv6Aliases world).2.state = _ :=
    keepsState_releaseAliases iface world.state.ipv6Aliases world
  have released : (releaseUtun host iface world).2.state =
      { (releaseAliases host iface world.state.ipv6Aliases world).2.state with
        ipv6Aliases := (releaseAliases host iface world.state.ipv6Aliases world).1 } := rfl
  rw [released, kept, unchanged]

/-- The world in which the tables of a utun that is torn down are settled. -/
def teardownWorld (host : Host σ) (order : UtunOrder) (iface : String) (world : World σ) :
    World σ :=
  let removed := { world with state := world.state.withoutUtun iface }
  if world.state.activeUtuns.erase iface = ∅ then (clearAnchor host removed).2
  else (reloadNatAnchor host order removed).2

theorem handleTeardownUtun_eq (iface : String) (world : World σ) :
    handleTeardownUtun host order iface world =
      (okResp, (releaseUtun host iface (teardownWorld host order iface world)).2) := by
  rw [handleTeardownUtun, bind_apply, bind_apply]
  by_cases last : world.state.activeUtuns.erase iface = ∅
  · rw [teardownWorld, if_pos last]
    exact (congrFun (if_pos last) _).trans rfl
  · rw [teardownWorld, if_neg last]
    exact (congrFun (if_neg last) _).trans rfl

theorem state_handleTeardownUtun (iface : String) (world : World σ) :
    (handleTeardownUtun host order iface world).2.state = world.state.tornDown iface := by
  rw [handleTeardownUtun_eq, state_releaseUtun, teardownWorld, DaemonState.tornDown]
  split
  · rfl
  · rw [keepsState_reloadNatAnchor]
    rfl

theorem handleAddRdr_of_valid {proto : String} (valid : proto = "tcp" ∨ proto = "udp")
    (hostPort : UInt16) (vmIp : String) (vmPort : UInt16) (world : World σ) :
    handleAddRdr host rules order proto hostPort vmIp vmPort world =
      reloadNatAnchor host order
        { world with
          state := (world.state.withoutRdr proto hostPort).withRdr
            ⟨proto, hostPort, vmIp, vmPort⟩ } := by
  rw [handleAddRdr, if_neg (by rcases valid with rfl | rfl <;> simp)]
  rfl

theorem handleRemoveRdr_eq (proto : String) (hostPort : UInt16) (world : World σ) :
    handleRemoveRdr host order proto hostPort world =
      reloadNatAnchor host order
        { world with state := world.state.withoutRdr proto hostPort } := rfl

theorem handleAddRdr_of_invalid {proto : String} (invalid : ¬ (proto = "tcp" ∨ proto = "udp"))
    (hostPort : UInt16) (vmIp : String) (vmPort : UInt16) (world : World σ) :
    handleAddRdr host rules order proto hostPort vmIp vmPort world =
      (errResp ("invalid proto: " ++ rules.quoted proto), world) := by
  rw [handleAddRdr, if_pos (by simpa using invalid)]
  rfl

/-- The interface's name is safe and the address can be read. -/
def AssignAccepted (rules : TextRules Address) (iface addr : String) : Prop :=
  isSafeIface rules iface = true ∧ (rules.parseIpv6 addr).isSome = true

/-- An address is recorded exactly when its route could be added. -/
theorem handleAssignUtunAlias_of_accepted {iface addr : String}
    (accepted : AssignAccepted rules iface addr) (world : World σ) :
    let routed := runRoute host ["add", "-inet6", "-host", addr, "-interface", iface] world
    handleAssignUtunAlias host rules iface addr world =
      match routed.1 with
      | some error => (errResp ("route add -inet6 -host: " ++ error), routed.2)
      | none => (okResp, { routed.2 with state := world.state.withAlias iface addr }) := by
  obtain ⟨safe, readable⟩ := accepted
  have read : ¬ (rules.parseIpv6 addr).isNone = true := by
    simpa [Option.isSome_iff_ne_none] using readable
  intro routed
  rw [handleAssignUtunAlias, if_neg (by simp [safe]), if_neg read, bind_apply]
  cases (runRoute host ["add", "-inet6", "-host", addr, "-interface", iface] world).1 <;>
    simp only [routed] <;> rfl

theorem handleAssignUtunAlias_of_refused {iface addr : String}
    (refused : ¬ AssignAccepted rules iface addr) (world : World σ) :
    ∃ message, handleAssignUtunAlias host rules iface addr world = (errResp message, world) := by
  by_cases safe : isSafeIface rules iface = true
  · have unreadable : (rules.parseIpv6 addr).isNone = true := by
      rw [Option.isNone_iff_eq_none, ← Option.not_isSome_iff_eq_none]
      exact fun readable => refused ⟨safe, readable⟩
    refine ⟨"invalid IPv6 address: " ++ rules.quoted addr, ?_⟩
    rw [handleAssignUtunAlias, if_neg (by simp [safe]), if_pos unreadable]
    rfl
  · refine ⟨"invalid interface name", ?_⟩
    rw [handleAssignUtunAlias, if_pos (by simpa using safe)]
    rfl

/-- The state after a setup that goes as far as changing it. -/
theorem state_handleSetupUtun (iface ipv4Addr ipv4Peer ipv4Cidr egressIface : String) :
    (handleSetupUtun host rules order iface ipv4Addr ipv4Peer ipv4Cidr egressIface world).2.state =
        world.state ∨
      SetupAccepted host rules iface ipv4Addr ipv4Peer egressIface world ∧
        (handleSetupUtun host rules order iface ipv4Addr ipv4Peer ipv4Cidr egressIface
          world).2.state = world.state.withUtun iface { egressIface, ipv4Cidr } := by
  by_cases accepted : SetupAccepted host rules iface ipv4Addr ipv4Peer egressIface world
  · refine Or.inr ⟨accepted, ?_⟩
    rw [handleSetupUtun_of_accepted accepted, keepsState_reloadNatAnchor, state_setupWorld]
  · exact Or.inl (handleSetupUtun_of_refused accepted).2

theorem state_handleAssignUtunAlias (iface addr : String) :
    (handleAssignUtunAlias host rules iface addr world).2.state = world.state ∨
      (handleAssignUtunAlias host rules iface addr world).2.state =
        world.state.withAlias iface addr := by
  by_cases accepted : AssignAccepted rules iface addr
  · rw [handleAssignUtunAlias_of_accepted accepted]
    split
    · exact Or.inl rfl
    · exact Or.inr rfl
  · obtain ⟨message, refused⟩ : ∃ message, handleAssignUtunAlias host rules iface addr world =
        (errResp message, world) := handleAssignUtunAlias_of_refused accepted world
    rw [refused]
    exact Or.inl rfl

/-- An alias that is listed after a request was listed before or assigned by it, and its interface
was not torn down by it. -/
theorem mem_aliases_of_handleRequest {request : Request} {entry : String × String}
    (listed : entry ∈ (handleRequest host rules order request world).2.state.ipv6Aliases) :
    request ≠ .teardownUtun entry.1 ∧
      (entry ∈ world.state.ipv6Aliases ∨ request = .assignUtunAlias entry.1 entry.2) := by
  cases request with
  | setupUtun iface ipv4Addr ipv4Peer ipv4Cidr egressIface =>
      rw [handleRequest, map_apply] at listed
      have state_eq : (handleSetupUtun host rules order iface ipv4Addr ipv4Peer ipv4Cidr egressIface
          world).2.state = _ ∨ _ :=
        state_handleSetupUtun iface ipv4Addr ipv4Peer ipv4Cidr egressIface
      rcases state_eq with same | ⟨-, changed⟩
      · rw [same] at listed
        exact ⟨by simp, Or.inl listed⟩
      · rw [changed] at listed
        exact ⟨by simp, Or.inl listed⟩
  | teardownUtun iface =>
      rw [handleRequest, map_apply, state_handleTeardownUtun] at listed
      obtain ⟨member, other⟩ := List.mem_filter.mp listed
      refine ⟨fun same => ?_, Or.inl member⟩
      rw [Request.teardownUtun.inj same] at other
      simp at other
  | addRdr proto hostPort vmIp vmPort =>
      rw [handleRequest, map_apply] at listed
      by_cases valid : proto = "tcp" ∨ proto = "udp"
      · rw [handleAddRdr_of_valid valid, keepsState_reloadNatAnchor] at listed
        exact ⟨by simp, Or.inl listed⟩
      · rw [handleAddRdr_of_invalid valid] at listed
        exact ⟨by simp, Or.inl listed⟩
  | removeRdr proto hostPort =>
      rw [handleRequest, map_apply, handleRemoveRdr_eq, keepsState_reloadNatAnchor] at listed
      exact ⟨by simp, Or.inl listed⟩
  | createUtun => exact ⟨by simp, Or.inl listed⟩
  | assignUtunAlias iface addr =>
      refine ⟨by simp, ?_⟩
      rw [handleRequest, map_apply] at listed
      have state_eq : (handleAssignUtunAlias host rules iface addr world).2.state = _ ∨ _ :=
        state_handleAssignUtunAlias iface addr
      rcases state_eq with same | changed
      · exact Or.inl (same ▸ listed)
      · rw [changed] at listed
        rcases List.mem_append.mp listed with before | new
        · exact Or.inl before
        · obtain rfl := List.mem_singleton.mp new
          exact Or.inr rfl

end Handlers

end Pelagos.Pfctl
