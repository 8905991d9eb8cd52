import Pelagos.Library.NeighbourDiscovery
import Pelagos.Library.Slices

/-!
# Frames that the relay makes

The relay answers the VM's ARP requests, neighbour solicitations and router solicitations itself.
-/

namespace Pelagos.TunRelay

open ByteStream InternetChecksum

abbrev Mac := List.Vector UInt8 6

abbrev Ipv4 := List.Vector UInt8 4

abbrev Ipv6 := List.Vector UInt8 16

def gatewayMac : Mac := ⟨[0x02, 0x00, 0x00, 0x00, 0x00, 0x01], rfl⟩

/-- `fe80::1`, the router that the advertisement names. -/
def gatewayIp6Ll : Ipv6 := ⟨[0xfe, 0x80, 0, 0, 0, 0, 0, 0, 0, 0, 0, 0, 0, 0, 0, 1], rfl⟩

/-- `fd00::1`, the static default gateway in the VM. -/
def gatewayIp6Ula : Ipv6 := ⟨[0xfd, 0x00, 0, 0, 0, 0, 0, 0, 0, 0, 0, 0, 0, 0, 0, 1], rfl⟩

def allNodesMac : Mac := ⟨[0x33, 0x33, 0x00, 0x00, 0x00, 0x01], rfl⟩

def allNodesIp6 : Ipv6 := ⟨[0xff, 0x02, 0, 0, 0, 0, 0, 0, 0, 0, 0, 0, 0, 0, 0, 1], rfl⟩

/-- An addition of `u32` numbers, undefined on overflow. -/
def addU32 (sum more : Nat) : Option Nat := if sum + more < 2 ^ 32 then some (sum + more) else none

/-- Add the words of the bytes to the sum. -/
def addWords : Nat → List UInt8 → Option Nat
  | sum, high :: low :: rest => do addWords (← addU32 sum (ofBigEndian [high, low])) rest
  | sum, [last] => addU32 sum (last.toNat <<< 8)
  | sum, [] => some sum

/-- The loop that folds the sum to 16 bits. -/
def foldCarries (sum : Nat) : Nat :=
  if sum >>> 16 = 0 then sum else foldCarries ((sum &&& 0xffff) + (sum >>> 16))
termination_by sum
decreasing_by
  rename_i carries
  rw [Nat.shiftRight_eq_div_pow] at carries ⊢
  rw [Nat.and_two_pow_sub_one_eq_mod sum 16]
  omega

/-- The first turns of that loop; its additions are of `u32` numbers. -/
def foldLoop : Nat → Nat → Option Nat
  | 0, sum => if sum >>> 16 = 0 then some sum else none
  | turns + 1, sum =>
      if sum >>> 16 = 0 then some sum
      else do foldLoop turns (← addU32 (sum &&& 0xffff) (sum >>> 16))

/-- `icmpv6_checksum`. -/
def icmpv6Checksum (src dst : Ipv6) (payload : List UInt8) : Option UInt16 := do
  let sum ← addWords 0 src.val
  let sum ← addWords sum dst.val
  let len := payload.length % 2 ^ 32
  let sum ← addU32 sum (len >>> 16)
  let sum ← addU32 sum (len &&& 0xffff)
  let sum ← addU32 sum 58
  let sum ← addWords sum payload
  return ~~~ UInt16.ofNat (foldCarries sum)

/-- An ICMPv6 message with its checksum filled in. -/
def withChecksum (icmp : List UInt8) (cksum : UInt16) : List UInt8 :=
  (icmp.set 2 (cksum >>> 8).toUInt8).set 3 (cksum &&& 0xff).toUInt8

/-- `build_arp_reply`. -/
def buildArpReply (vmMac : Mac) (vmIp4 gatewayIp4 : Ipv4) : List UInt8 :=
  vmMac.val ++ gatewayMac.val ++ [0x08, 0x06] ++ [0x00, 0x01, 0x08, 0x00, 6, 4, 0x00, 0x02] ++
    gatewayMac.val ++ gatewayIp4.val ++ vmMac.val ++ vmIp4.val

/-- The Ethernet and IPv6 headers that all ICMPv6 messages get. -/
def icmpv6Frame (dstMac : Mac) (payloadLength : Nat) (src dst : Ipv6) (icmp : List UInt8) :
    List UInt8 :=
  dstMac.val ++ gatewayMac.val ++ [0x86, 0xDD] ++ [0x60, 0x00, 0x00, 0x00] ++
    toBigEndian 2 payloadLength ++ [58, 255] ++ src.val ++ dst.val ++ icmp

/-- `build_ndp_na`: a neighbour advertisement for one of the gateway's addresses. -/
def buildNdpNa (vmMac : Mac) (targetIp6 dstIp6 : Ipv6) : Option (List UInt8) := do
  let icmp := [136, 0, 0, 0, 0x60, 0, 0, 0] ++ targetIp6.val ++ [2, 1] ++ gatewayMac.val
  let cksum ← icmpv6Checksum targetIp6 dstIp6 icmp
  return icmpv6Frame vmMac 32 targetIp6 dstIp6 (withChecksum icmp cksum)

/-- `build_ra`: a router advertisement with the prefix of the host. -/
def buildRa (guaPrefix : Ipv6) : Option (List UInt8) := do
  let icmp := [134, 0, 0, 0, 64, 0] ++ toBigEndian 2 1800 ++ List.replicate 8 0 ++
    [3, 4, 64, 0xC0] ++ toBigEndian 4 86400 ++ toBigEndian 4 14400 ++ List.replicate 4 0 ++
    guaPrefix.val ++ [1, 1] ++ gatewayMac.val
  let cksum ← icmpv6Checksum gatewayIp6Ll allNodesIp6 icmp
  return icmpv6Frame allNodesMac 56 gatewayIp6Ll allNodesIp6 (withChecksum icmp cksum)

theorem addU32_of_lt {sum more : Nat} (fits : sum + more < 2 ^ 32) :
    addU32 sum more = some (sum + more) := if_pos fits

theorem addWords_of_lt {sum : Nat} {bytes : List UInt8} (fits : sum + wordSum bytes < 2 ^ 32) :
    addWords sum bytes = some (sum + wordSum bytes) := by
  induction bytes using wordSum.induct generalizing sum with
  | case1 high low rest ih =>
      rw [wordSum, ← Nat.add_assoc] at fits
      have first_fits : sum + ofBigEndian [high, low] < 2 ^ 32 := by omega
      rw [addWords, addU32_of_lt first_fits, wordSum, ← Nat.add_assoc]
      exact ih fits
  | case2 last => exact addU32_of_lt fits
  | case3 => rfl

/-- The loop adds the carries as one's complement arithmetic does. -/
theorem foldCarries_eq (sum : Nat) : foldCarries sum = endAround sum := by
  fun_induction foldCarries sum with
  | case1 sum small =>
      rw [Nat.shiftRight_eq_div_pow] at small
      rw [endAround_of_le (by omega)]
  | case2 sum carries ih =>
      rw [Nat.shiftRight_eq_div_pow] at carries ih
      rw [Nat.and_two_pow_sub_one_eq_mod sum 16] at ih
      rw [Nat.shiftRight_eq_div_pow, Nat.and_two_pow_sub_one_eq_mod sum 16, ih]
      simp only [endAround]
      rw [if_neg (by omega), if_neg (by omega)]
      omega

/-- One turn of the loop on a `u32` sum does not overflow. -/
theorem foldLoop_succ {turns sum : Nat} (small : sum < 2 ^ 32)
    (rest : ∀ folded, folded = sum % 2 ^ 16 + sum / 2 ^ 16 →
      foldLoop turns folded = some (foldCarries folded)) :
    foldLoop (turns + 1) sum = some (foldCarries sum) := by
  rw [foldLoop, foldCarries]
  split
  case isTrue folded => rfl
  case isFalse carries =>
    have low_eq : sum &&& 0xffff = sum % 2 ^ 16 := Nat.and_two_pow_sub_one_eq_mod sum 16
    rw [Nat.shiftRight_eq_div_pow, low_eq, addU32_of_lt (by omega)]
    exact rest _ rfl

/-- Two turns fold every `u32` sum. -/
theorem foldLoop_eq {sum : Nat} (small : sum < 2 ^ 32) :
    foldLoop 2 sum = some (foldCarries sum) := by
  apply foldLoop_succ small
  intro once once_eq
  apply foldLoop_succ (by omega)
  intro twice twice_eq
  have no_carry : twice >>> 16 = 0 := by
    rw [Nat.shiftRight_eq_div_pow]
    omega
  rw [foldLoop, foldCarries, if_pos no_carry, if_pos no_carry]

theorem wordSum_ipv6_le (addr : Ipv6) : wordSum addr.val ≤ 32768 * 17 := by
  have bound := wordSum_le addr.val
  rwa [addr.property] at bound

/-- No addition overflows for a message that fits an IPv6 packet. -/
theorem icmpv6Checksum_eq (src dst : Ipv6) {payload : List UInt8}
    (short : payload.length ≤ 65535) :
    icmpv6Checksum src dst payload = some (~~~ UInt16.ofNat (foldCarries
      (wordSum src.val + wordSum dst.val + payload.length + 58 + wordSum payload))) := by
  have src_le := wordSum_ipv6_le src
  have dst_le := wordSum_ipv6_le dst
  have payload_le := wordSum_le payload
  have len_eq : payload.length % 2 ^ 32 = payload.length := Nat.mod_eq_of_lt (by omega)
  have high_eq : payload.length >>> 16 = 0 := by
    rw [Nat.shiftRight_eq_div_pow]
    omega
  have low_eq : payload.length &&& 0xffff = payload.length := by
    rw [Nat.and_two_pow_sub_one_eq_mod payload.length 16]
    omega
  simp only [icmpv6Checksum, len_eq, high_eq, low_eq, Option.pure_def, Option.bind_eq_bind]
  rw [addWords_of_lt (by omega), Option.bind_some, addWords_of_lt (by omega), Option.bind_some,
    addU32_of_lt (by omega), Option.bind_some, addU32_of_lt (by omega), Option.bind_some,
    addU32_of_lt (by omega), Option.bind_some, addWords_of_lt (by omega), Option.bind_some]
  simp only [Nat.zero_add, Nat.add_zero]

theorem wordSum_pseudoHeader (src dst : Ipv6) {length : Nat} (short : length ≤ 65535) :
    wordSum (NeighbourDiscovery.pseudoHeader src.val dst.val length) =
      wordSum src.val + wordSum dst.val + length + 58 := by
  have src_even : src.val.length % 2 = 0 := by rw [src.property]
  have addresses_even : (src.val ++ dst.val).length % 2 = 0 := by
    rw [List.length_append, src.property, dst.property]
  have lengths_even : (src.val ++ dst.val ++ toBigEndian 4 length).length % 2 = 0 := by
    rw [List.length_append, List.length_append, src.property, dst.property, length_toBigEndian]
  have length_sum : wordSum (toBigEndian 4 length) = length := by
    simp only [toBigEndian, List.nil_append, List.cons_append, wordSum, ofBigEndian_pair,
      UInt8.toNat_ofNat']
    omega
  rw [NeighbourDiscovery.pseudoHeader, wordSum_append lengths_even, wordSum_append addresses_even,
    wordSum_append src_even, length_sum]
  rfl

/-- The carries folded back in leave the one's complement sum. -/
theorem complement_foldCarries (src dst : Ipv6) {payload : List UInt8}
    (short : payload.length ≤ 65535) :
    ~~~ UInt16.ofNat (foldCarries
      (wordSum src.val + wordSum dst.val + payload.length + 58 + wordSum payload)) =
      NeighbourDiscovery.checksum src.val dst.val payload := by
  have even : (NeighbourDiscovery.pseudoHeader src.val dst.val payload.length).length % 2 = 0 := by
    simp [NeighbourDiscovery.pseudoHeader, src.property, dst.property]
  rw [NeighbourDiscovery.checksum, foldCarries_eq, ← wordSum_pseudoHeader src dst short,
    ← wordSum_append even, ← toNat_onesSum, UInt16.ofNat_toNat]

/-- The checksum of a message that fits an IPv6 packet is the standard one. -/
theorem icmpv6Checksum_standard (src dst : Ipv6) {payload : List UInt8}
    (short : payload.length ≤ 65535) :
    icmpv6Checksum src dst payload =
      some (NeighbourDiscovery.checksum src.val dst.val payload) := by
  rw [icmpv6Checksum_eq src dst short, complement_foldCarries src dst short]

/-- The two bytes that are stored hold the checksum. -/
theorem word_stored (cksum : UInt16) :
    word (cksum >>> 8).toUInt8 (cksum &&& 0xff).toUInt8 = cksum := by
  have small := cksum.toNat_lt
  have low_eq : cksum.toNat &&& 255 = cksum.toNat % 256 :=
    Nat.and_two_pow_sub_one_eq_mod cksum.toNat 8
  apply UInt16.toNat_inj.mp
  rw [toNat_word, ofBigEndian_pair, UInt16.toNat_toUInt8, UInt16.toNat_toUInt8,
    UInt16.toNat_shiftRight, UInt16.toNat_and]
  simp only [UInt16.reduceToNat, low_eq, Nat.shiftRight_eq_div_pow, Nat.reduceMod]
  omega

/-- A frame is well formed when its message stores its own checksum and ends in options. -/
theorem icmpv6Frame_wellFormed (dstMac : Mac) (src dst : Ipv6) {type : UInt8}
    {fixed options icmp : List UInt8} {length : Nat}
    (icmp_eq : icmp = type :: 0 :: 0 :: 0 :: (fixed ++ options)) (length_eq : icmp.length = length)
    (short : length < 2 ^ 16)
    (fixed_length : NeighbourDiscovery.fixedLength type = some (fixed.length + 4))
    (tiled : NeighbourDiscovery.Options options) :
    NeighbourDiscovery.WellFormed (icmpv6Frame dstMac length src dst
      (withChecksum icmp (NeighbourDiscovery.checksum src.val dst.val icmp))) := by
  subst icmp_eq length_eq
  have ethernet_length : (dstMac.val ++ (gatewayMac.val ++ [0x86, 0xDD])).length = 14 := by
    rw [List.length_append, List.length_append, dstMac.property, gatewayMac.property]
    rfl
  have stored := word_stored (NeighbourDiscovery.checksum src.val dst.val
    (type :: 0 :: 0 :: 0 :: (fixed ++ options)))
  have formed := NeighbourDiscovery.wellFormed_assemble ethernet_length src.property dst.property
    short stored fixed_length tiled
  simpa only [NeighbourDiscovery.assemble, NeighbourDiscovery.ipv6Header, icmpv6Frame,
    withChecksum, List.set_cons_succ, List.set_cons_zero, List.length_cons, List.append_assoc,
    List.cons_append, List.nil_append] using formed

theorem buildNdpNa_wellFormed (vmMac : Mac) (targetIp6 dstIp6 : Ipv6) :
    ∃ na, buildNdpNa vmMac targetIp6 dstIp6 = some na ∧ NeighbourDiscovery.WellFormed na := by
  have length_eq : ([136, 0, 0, 0, 0x60, 0, 0, 0] ++ targetIp6.val ++ [2, 1] ++
      gatewayMac.val).length = 32 := by
    simp [targetIp6.property, gatewayMac.property]
  have fixed_length : NeighbourDiscovery.fixedLength 136 =
      some (([0x60, 0, 0, 0] ++ targetIp6.val).length + 4) := by
    rw [List.length_append, targetIp6.property]
    rfl
  have tiled : NeighbourDiscovery.Options ([2, 1] ++ gatewayMac.val) :=
    NeighbourDiscovery.Options.single rfl
  rw [buildNdpNa, icmpv6Checksum_standard targetIp6 dstIp6 (by omega)]
  refine ⟨_, rfl, icmpv6Frame_wellFormed vmMac targetIp6 dstIp6 ?_ length_eq (by omega)
    fixed_length tiled⟩
  simp only [List.append_assoc, List.cons_append, List.nil_append]

theorem buildRa_wellFormed (guaPrefix : Ipv6) :
    ∃ ra, buildRa guaPrefix = some ra ∧ NeighbourDiscovery.WellFormed ra := by
  have length_eq : ([134, 0, 0, 0, 64, 0] ++ toBigEndian 2 1800 ++ List.replicate 8 0 ++
      [3, 4, 64, 0xC0] ++ toBigEndian 4 86400 ++ toBigEndian 4 14400 ++ List.replicate 4 0 ++
      guaPrefix.val ++ [1, 1] ++ gatewayMac.val).length = 56 := by
    simp [guaPrefix.property, gatewayMac.property]
  have fixed_length : NeighbourDiscovery.fixedLength 134 =
      some (([64, 0] ++ (toBigEndian 2 1800 ++ List.replicate 8 0)).length + 4) := rfl
  have prefix_length : ([64, 0xC0] ++ (toBigEndian 4 86400 ++ (toBigEndian 4 14400 ++
      (List.replicate 4 0 ++ guaPrefix.val)))).length + 2 = 8 * UInt8.toNat 4 := by
    simp [guaPrefix.property]
  have link_layer : NeighbourDiscovery.Options (1 :: 1 :: gatewayMac.val) :=
    NeighbourDiscovery.Options.single rfl
  have tiled : NeighbourDiscovery.Options (3 :: 4 :: ([64, 0xC0] ++ (toBigEndian 4 86400 ++
      (toBigEndian 4 14400 ++ (List.replicate 4 0 ++ guaPrefix.val))) ++
        1 :: 1 :: gatewayMac.val)) :=
    NeighbourDiscovery.Options.cons prefix_length link_layer
  rw [buildRa, icmpv6Checksum_standard gatewayIp6Ll allNodesIp6 (by omega)]
  refine ⟨_, rfl, icmpv6Frame_wellFormed allNodesMac gatewayIp6Ll allNodesIp6 ?_ length_eq
    (by omega) fixed_length tiled⟩
  simp only [List.append_assoc, List.cons_append, List.nil_append]

theorem buildNdpNa_defined (vmMac : Mac) (targetIp6 dstIp6 : Ipv6) :
    ∃ na, buildNdpNa vmMac targetIp6 dstIp6 = some na := by
  obtain ⟨na, made, -⟩ := buildNdpNa_wellFormed vmMac targetIp6 dstIp6
  exact ⟨na, made⟩

theorem buildRa_defined (guaPrefix : Ipv6) : ∃ ra, buildRa guaPrefix = some ra := by
  obtain ⟨ra, made, -⟩ := buildRa_wellFormed guaPrefix
  exact ⟨ra, made⟩

end Pelagos.TunRelay
