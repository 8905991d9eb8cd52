import Pelagos.TunRelay.Frames

/-!
# Neighbour discovery on the egress interface

The privileged daemon tells the router on the egress interface that the address of the VM belongs to
the host: it injects an unsolicited advertisement and a solicitation whose checksum it computes
itself.  Its checksum and that of the relay are the standard one, and all frames that the two make
are well formed.
-/

namespace Pelagos.Pfctl

open ByteStream InternetChecksum NeighbourDiscovery Slices TunRelay

/-- `icmpv6_checksum`: the pseudo-header is made first, and one closure adds both texts. -/
def icmpv6Checksum (src dst : Ipv6) (payload : List UInt8) : Option UInt16 := do
  let ulen := payload.length % 2 ^ 32
  let pseudo ← fillArray 0 40
    [⟨0, 16, src.val⟩, ⟨16, 32, dst.val⟩, ⟨32, 36, toBigEndian 4 ulen⟩, ⟨39, 40, [58]⟩]
  let sum ← addWords 0 pseudo
  let sum ← addWords sum payload
  return ~~~ UInt16.ofNat (foldCarries sum)

/-- A neighbour message of the given type with one option, which names `en0Mac`. -/
def neighbourMessage (type flags option : UInt8) (en0Mac : Mac) (target : Ipv6) :
    Option (List UInt8) :=
  fillArray 0 32 [⟨0, 1, [type]⟩, ⟨4, 5, [flags]⟩, ⟨8, 24, target.val⟩, ⟨24, 25, [option]⟩,
    ⟨25, 26, [1]⟩, ⟨26, 32, en0Mac.val⟩]

/-- The frame of a neighbour message. -/
def neighbourFrame (type flags option : UInt8) (dstMac en0Mac : Mac) (src dst target : Ipv6) :
    Option (List UInt8) := do
  let icmp ← neighbourMessage type flags option en0Mac target
  let csum ← icmpv6Checksum src dst icmp
  let icmp ← copyFromSlice icmp ⟨2, 4, toBigEndian 2 csum.toNat⟩
  fillArray 0 86 [⟨0, 6, dstMac.val⟩, ⟨6, 12, en0Mac.val⟩, ⟨12, 14, [0x86, 0xdd]⟩, ⟨14, 15, [0x60]⟩,
    ⟨18, 20, toBigEndian 2 32⟩, ⟨20, 21, [58]⟩, ⟨21, 22, [255]⟩, ⟨22, 38, src.val⟩,
    ⟨38, 54, dst.val⟩, ⟨54, 86, icmp⟩]

/-- `send_ndp_probe_ns`: the frame that is written and the result for the outcome of the write. -/
def sendNdpProbeNs (written : Except String Unit) (en0Mac routerMac : Mac) (vmGua router : Ipv6) :
    Option (List UInt8 × Except String Unit) := do
  let frame ← neighbourFrame 135 0 1 routerMac en0Mac vmGua router router
  return (frame, written.mapError ("BPF write NS: " ++ ·))

/-- `send_gratuitous_na`. -/
def sendGratuitousNa (written : Except String Unit) (en0Mac : Mac) (vmGua : Ipv6) :
    Option (List UInt8 × Except String Unit) := do
  let frame ← neighbourFrame 136 0x20 2 allNodesMac en0Mac vmGua allNodesIp6 vmGua
  return (frame, written.mapError ("BPF write: " ++ ·))

/-! ## The checksum -/

/-- The array that the daemon fills is the pseudo-header. -/
theorem fillArray_pseudoHeader (src dst : Ipv6) (length : Nat) :
    fillArray 0 40 [⟨0, 16, src.val⟩, ⟨16, 32, dst.val⟩, ⟨32, 36, toBigEndian 4 length⟩,
      ⟨39, 40, [58]⟩] = some (pseudoHeader src.val dst.val length) := by
  rw [fillArray_eq]
  · simp [laidOut, pseudoHeader, List.replicate_succ]
  · simp [Ordered, src.property, dst.property]

theorem icmpv6Checksum_eq (src dst : Ipv6) {payload : List UInt8}
    (short : payload.length ≤ 65535) :
    icmpv6Checksum src dst payload = some (checksum src.val dst.val payload) := by
  have src_le := wordSum_ipv6_le src
  have dst_le := wordSum_ipv6_le dst
  have payload_le := wordSum_le payload
  have len_eq : payload.length % 2 ^ 32 = payload.length := Nat.mod_eq_of_lt (by omega)
  simp only [icmpv6Checksum, len_eq, Option.pure_def, Option.bind_eq_bind]
  rw [fillArray_pseudoHeader, Option.bind_some, addWords_of_lt, Option.bind_some, addWords_of_lt,
    Option.bind_some, wordSum_pseudoHeader src dst short, Nat.zero_add,
    complement_foldCarries src dst short]
  · rw [wordSum_pseudoHeader src dst short]
    omega
  · rw [wordSum_pseudoHeader src dst short]
    omega

/-- No addition of either implementation overflows, the fold of every `u32` sum ends after two turns
at most, and both compute the standard checksum. -/
theorem icmpv6_checksums_standard (src dst : Ipv6) (payload : List UInt8)
    (short : payload.length ≤ 65535) :
    TunRelay.icmpv6Checksum src dst payload = some (checksum src.val dst.val payload) ∧
      icmpv6Checksum src dst payload = some (checksum src.val dst.val payload) ∧
      TunRelay.icmpv6Checksum src dst payload = icmpv6Checksum src dst payload ∧
      ∀ sum < 2 ^ 32, foldLoop 2 sum = some (foldCarries sum) := by
  have relay := icmpv6Checksum_standard src dst short
  have daemon := icmpv6Checksum_eq src dst short
  exact ⟨relay, daemon, relay.trans daemon.symm, fun sum small => foldLoop_eq small⟩

theorem icmpv6_checksums_standard_odd :
    TunRelay.icmpv6Checksum gatewayIp6Ll allNodesIp6 [0x87, 0x00, 0xff] =
      icmpv6Checksum gatewayIp6Ll allNodesIp6 [0x87, 0x00, 0xff] :=
  (icmpv6_checksums_standard gatewayIp6Ll allNodesIp6 [0x87, 0x00, 0xff] (by decide)).2.2.1

/-! ## The frames -/

/-- The message that the daemon fills is 24 bytes and one option. -/
theorem neighbourMessage_eq (type flags option : UInt8) (en0Mac : Mac) (target : Ipv6) :
    ∃ fixed options, neighbourMessage type flags option en0Mac target =
        some (type :: 0 :: 0 :: 0 :: (fixed ++ options)) ∧
      fixed.length = 20 ∧ options.length = 8 ∧ Options options := by
  have ordered : Ordered 32 0 [⟨0, 1, [type]⟩, ⟨4, 5, [flags]⟩, ⟨8, 24, target.val⟩,
      ⟨24, 25, [option]⟩, ⟨25, 26, [1]⟩, ⟨26, 32, en0Mac.val⟩] := by
    simp [Ordered, target.property, en0Mac.property]
  refine ⟨[flags, 0, 0, 0] ++ target.val, option :: 1 :: en0Mac.val, ?_, ?_, ?_, ?_⟩
  · rw [neighbourMessage, fillArray_eq ordered]
    simp [laidOut, List.replicate_succ]
  · simp [target.property]
  · simp [en0Mac.property]
  · apply Options.single
    rw [en0Mac.property]
    rfl

/-- A checksum is stored in the third and fourth byte of a message. -/
theorem copyFromSlice_checksum (type : UInt8) (rest : List UInt8) (csum : UInt16) :
    ∃ high low, word high low = csum ∧
      copyFromSlice (type :: 0 :: 0 :: 0 :: rest) ⟨2, 4, toBigEndian 2 csum.toNat⟩ =
        some (type :: 0 :: high :: low :: rest) := by
  have small := csum.toNat_lt
  refine ⟨UInt8.ofNat (csum.toNat / 256), UInt8.ofNat csum.toNat, ?_, ?_⟩
  · apply UInt16.toNat_inj.mp
    rw [toNat_word, ofBigEndian_pair, UInt8.toNat_ofNat', UInt8.toNat_ofNat']
    omega
  · simp [copyFromSlice, toBigEndian]

theorem neighbourFrame_wellFormed {type flags option : UInt8} (dstMac en0Mac : Mac)
    (src dst target : Ipv6) (fixed_length : fixedLength type = some 24) :
    ∃ frame, neighbourFrame type flags option dstMac en0Mac src dst target = some frame ∧
      WellFormed frame := by
  obtain ⟨fixed, options, message_eq, fixed_eq, options_eq, tiled⟩ :=
    neighbourMessage_eq type flags option en0Mac target
  have ethernet_length : (dstMac.val ++ (en0Mac.val ++ [0x86, 0xdd])).length = 14 := by
    rw [List.length_append, List.length_append, dstMac.property, en0Mac.property]
    rfl
  have body_length (first second third fourth : UInt8) :
      (first :: second :: third :: fourth :: (fixed ++ options)).length = 32 := by
    simp only [List.length_cons, List.length_append, fixed_eq, options_eq]
  have short : (type :: 0 :: 0 :: 0 :: (fixed ++ options)).length ≤ 65535 := by
    rw [body_length]
    decide
  obtain ⟨high, low, stored, copied⟩ := copyFromSlice_checksum type (fixed ++ options)
    (checksum src.val dst.val (type :: 0 :: 0 :: 0 :: (fixed ++ options)))
  have ordered : Ordered 86 0 [⟨0, 6, dstMac.val⟩, ⟨6, 12, en0Mac.val⟩, ⟨12, 14, [0x86, 0xdd]⟩,
      ⟨14, 15, [0x60]⟩, ⟨18, 20, toBigEndian 2 32⟩, ⟨20, 21, [58]⟩, ⟨21, 22, [255]⟩,
      ⟨22, 38, src.val⟩, ⟨38, 54, dst.val⟩,
      ⟨54, 86, type :: 0 :: high :: low :: (fixed ++ options)⟩] := by
    simp [Ordered, dstMac.property, en0Mac.property, src.property, dst.property, fixed_eq,
      options_eq]
  have formed : WellFormed (assemble (dstMac.val ++ (en0Mac.val ++ [0x86, 0xdd])) src.val dst.val
      (type :: 0 :: high :: low :: (fixed ++ options))) := by
    apply wellFormed_assemble ethernet_length src.property dst.property ?_ stored ?_ tiled
    · rw [List.length_append, fixed_eq, options_eq]
      decide
    · rw [fixed_length, fixed_eq]
  refine ⟨_, ?_, formed⟩
  simp only [neighbourFrame, message_eq, icmpv6Checksum_eq src dst short, copied,
    Option.bind_eq_bind, Option.bind_some]
  rw [fillArray_eq ordered]
  simp [laidOut, assemble, ipv6Header, body_length, List.replicate_succ]

/-- Every frame that the relay or the daemon makes for neighbour discovery is well formed. -/
theorem neighbour_frames_wellFormed (guaPrefix : Ipv6) (vmMac : Mac) (targetIp6 dstIp6 : Ipv6)
    (en0Mac routerMac : Mac) (vmGua router : Ipv6) (written : Except String Unit) :
    (∃ frame, buildRa guaPrefix = some frame ∧ WellFormed frame) ∧
      (∃ frame, buildNdpNa vmMac targetIp6 dstIp6 = some frame ∧ WellFormed frame) ∧
      (∃ frame result, sendGratuitousNa written en0Mac vmGua = some (frame, result) ∧
        WellFormed frame) ∧
      ∃ frame result, sendNdpProbeNs written en0Mac routerMac vmGua router = some (frame, result) ∧
        WellFormed frame := by
  refine ⟨buildRa_wellFormed guaPrefix, buildNdpNa_wellFormed vmMac targetIp6 dstIp6, ?_, ?_⟩
  · obtain ⟨frame, made, formed⟩ := @neighbourFrame_wellFormed 136 0x20 2 allNodesMac en0Mac vmGua
      allNodesIp6 vmGua rfl
    refine ⟨frame, written.mapError ("BPF write: " ++ ·), ?_, formed⟩
    rw [sendGratuitousNa, made]
    rfl
  · obtain ⟨frame, made, formed⟩ := @neighbourFrame_wellFormed 135 0 1 routerMac en0Mac vmGua
      router router rfl
    refine ⟨frame, written.mapError ("BPF write NS: " ++ ·), ?_, formed⟩
    rw [sendNdpProbeNs, made]
    rfl

end Pelagos.Pfctl
