import Pelagos.Library.Execution
import Pelagos.TunRelay.Frames

/-!
# The relay between the VM and the utun

The relay takes Ethernet frames from the VM and packets from the utun, in any order.  A panic, such
as a slice outside a frame, makes the functions undefined.
-/

namespace Pelagos.TunRelay

open ByteStream Slices Execution

/-- `TUN_HDR_IPV4`: the address family of an IPv4 packet. -/
def tunHdrIpv4 : List UInt8 := [0, 0, 0, 2]

/-- `TUN_HDR_IPV6`. -/
def tunHdrIpv6 : List UInt8 := [0, 0, 0, 30]

/-- What the relay threads share and are started with. -/
structure RelayState where
  /-- The source of the first frame from the VM. -/
  vmMac : Option Mac
  gatewayIp4 : Ipv4
  /-- The prefix of the host, if it has one. -/
  guaPrefix : Option Ipv6
  utunIface : String
  /-- The address of the VM that the utun has as an alias. -/
  vmGua : Option Ipv6
  deriving DecidableEq

/-- What the relay writes, and to which side. -/
inductive Emission where
  | toUtun (packet : List UInt8)
  | toVm (frame : List UInt8)
  deriving DecidableEq

/-- A call of `pfctl_assign_utun_alias`, and whether it returned `Ok`. -/
structure AliasRequest where
  iface : String
  addr : Ipv6
  granted : Bool
  deriving DecidableEq

/-- What the relay does about one event. -/
structure Reaction where
  emissions : List Emission := []
  aliasRequest : Option AliasRequest := none
  deriving DecidableEq

/-- `frame.len() > 54 && frame[20] == 58 && frame[54] == icmp_type`. -/
def isIcmpv6 (icmpType : UInt8) (frame : List UInt8) : Option Bool :=
  if 54 < frame.length then do
    if (← frame[20]?) = 58 then return (← frame[54]?) = icmpType else return false
  else some false

def isIcmpv6Rs : List UInt8 → Option Bool := isIcmpv6 133

def isNdpNs : List UInt8 → Option Bool := isIcmpv6 135

def handleArp (frame : List UInt8) (state : RelayState) : Option (List Emission) :=
  if frame.length < 42 then some []
  else do
    let op := ofBigEndian [← frame[20]?, ← frame[21]?]
    if op ≠ 1 then return []
    else
      let targetIp ← slice frame 38 42
      if targetIp ≠ state.gatewayIp4.val then return []
      else
        let vmMac ← match state.vmMac with
          | some vmMac => some vmMac
          | none => (slice frame 22 28).map fun sender => (tryInto 6 sender).getD (.replicate 6 0)
        let senderIp := (tryInto 4 (← slice frame 28 32)).getD (.replicate 4 0)
        return [.toVm (buildArpReply vmMac senderIp state.gatewayIp4)]

/-- `handle_ndp_ns`: whether the solicitation was answered. -/
def handleNdpNs (frame : List UInt8) (state : RelayState) : Option (Bool × List Emission) :=
  if frame.length < 78 then some (false, [])
  else do
    match tryInto 16 (← slice frame 62 78) with
    | none => return (false, [])
    | some target =>
        if target ≠ gatewayIp6Ll ∧ target ≠ gatewayIp6Ula then return (false, [])
        else
          match state.vmMac with
          | none => return (false, [])
          | some vmMac =>
              match tryInto 16 (← slice frame 22 38) with
              | none => return (false, [])
              | some nsSrcIp => do
                  let na ← buildNdpNa vmMac target nsSrcIp
                  return (true, [.toVm na])

def handleRs (_frame : List UInt8) (state : RelayState) : Option (List Emission) :=
  match state.guaPrefix with
  | none => some []
  | some guaPrefix => do return [.toVm (← buildRa guaPrefix)]

/-- `maybe_assign_gua_alias`; the flag is the outcome of the request, if one is made. -/
def maybeAssignGuaAlias (frame : List UInt8) (granted : Bool) (state : RelayState) :
    Option (RelayState × Option AliasRequest) :=
  if state.vmGua.isSome then some (state, none)
  else
    match state.guaPrefix with
    | none => some (state, none)
    | some guaPrefix =>
        if frame.length < 38 then some (state, none)
        else do
          match tryInto 16 (← slice frame 22 38) with
          | none => return (state, none)
          | some src =>
              if src = .replicate 16 0 ∨ src.val.take 8 ≠ guaPrefix.val.take 8 then
                return (state, none)
              else
                let request := { iface := state.utunIface, addr := src, granted }
                if granted then return ({ state with vmGua := some src }, some request)
                else return (state, some request)

/-- The VM's MAC address is learned from the source of a frame. -/
def learnVmMac (frame : List UInt8) (state : RelayState) : Option RelayState :=
  match state.vmMac with
  | some _ => some state
  | none => do return { state with vmMac := some (← tryInto 6 (← slice frame 6 12)) }

def forwardToUtun (ipPacket tunHdr : List UInt8) : List Emission := [.toUtun (tunHdr ++ ipPacket)]

/-- `is_ndp_ns(frame) && handle_ndp_ns(frame, relay_fd, state)`. -/
def consumeNdpNs (frame : List UInt8) (state : RelayState) : Option (Bool × List Emission) := do
  if ← isNdpNs frame then handleNdpNs frame state else return (false, [])

/-- The arm of `process_avf_frame` for IPv6 frames. -/
def processIpv6Frame (frame : List UInt8) (granted : Bool) (state : RelayState) :
    Option (RelayState × Reaction) := do
  if ← isIcmpv6Rs frame then return (state, { emissions := ← handleRs frame state })
  else
    let (consumed, answer) ← consumeNdpNs frame state
    if consumed then return (state, { emissions := answer })
    else
      -- Not while the address is probed: the host would answer the probe.
      let (state, aliasRequest) ← maybeAssignGuaAlias frame granted state
      let forwarded := forwardToUtun (← sliceFrom frame 14) tunHdrIpv6
      return (state, { emissions := answer ++ forwarded, aliasRequest })

/-- `process_avf_frame`. -/
def processAvfFrame (frame : List UInt8) (granted : Bool) (state : RelayState) :
    Option (RelayState × Reaction) :=
  if frame.length < 14 then some (state, {})
  else do
    let state ← learnVmMac frame state
    let ethertype := ofBigEndian [← frame[12]?, ← frame[13]?]
    if ethertype = 0x0806 then return (state, { emissions := ← handleArp frame state })
    else if ethertype = 0x0800 then
      return (state, { emissions := forwardToUtun (← sliceFrom frame 14) tunHdrIpv4 })
    else if ethertype = 0x86DD then processIpv6Frame frame granted state
    else return (state, {})

/-- `process_utun_packet`. -/
def processUtunPacket (packet : List UInt8) (state : RelayState) : Option Reaction :=
  if packet.length < 5 then some {}
  else
    match state.vmMac with
    | none => some {}
    | some vmMac => do
        let af := ofBigEndian [← packet[0]?, ← packet[1]?, ← packet[2]?, ← packet[3]?]
        let ipPayload ← sliceFrom packet 4
        let ethertype : Option (List UInt8) :=
          if af = 2 then some [0x08, 0x00] else if af = 30 then some [0x86, 0xDD] else none
        match ethertype with
        | none => return {}
        | some ethertype =>
            return { emissions := [.toVm (vmMac.val ++ gatewayMac.val ++ ethertype ++ ipPayload)] }

/-- What wakes up the relay loop. -/
inductive RelayEvent where
  | avfFrame (frame : List UInt8) (aliasGranted : Bool)
  | utunPacket (packet : List UInt8)
  /-- The interval of the periodic router advertisement is over. -/
  | raInterval
  deriving DecidableEq

/-- One turn of `run_relay`. -/
def react (state : RelayState) : RelayEvent → Option (RelayState × Reaction)
  | .avfFrame frame aliasGranted => processAvfFrame frame aliasGranted state
  | .utunPacket packet => do return (state, ← processUtunPacket packet state)
  | .raInterval => do return (state, { emissions := ← handleRs [] state })

/-- A relay and all it has done. -/
structure Relay where
  state : RelayState
  log : List (RelayEvent × Reaction)
  deriving DecidableEq

namespace Relay

def start (gatewayIp4 : Ipv4) (guaPrefix : Option Ipv6) (utunIface : String) : Relay where
  state := { vmMac := none, gatewayIp4, guaPrefix, utunIface, vmGua := none }
  log := []

def step (relay : Relay) (event : RelayEvent) : Option Relay := do
  let (state, reaction) ← react relay.state event
  return { state, log := relay.log ++ [(event, reaction)] }

end Relay

end Pelagos.TunRelay
