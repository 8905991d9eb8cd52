import Pelagos.Library.InternetChecksum

/-!
# Neighbour discovery packets

A neighbour discovery message stands in an Ethernet frame behind a 40-byte IPv6 header.  A fixed
part that depends on the type of the message comes first, then options in units of 8 bytes.  The
checksum in the third and fourth byte covers the message and a pseudo-header.
-/

namespace NeighbourDiscovery

open ByteStream InternetChecksum

/-- What the checksum of a message covers besides the message. -/
def pseudoHeader (src dst : List UInt8) (length : Nat) : List UInt8 :=
  src ++ dst ++ toBigEndian 4 length ++ [0, 0, 0, 58]

/-- The checksum of a message whose checksum field is zero. -/
def checksum (src dst message : List UInt8) : UInt16 :=
  ~~~ onesSum (pseudoHeader src dst message.length ++ message)

/-- The bytes are options one after the other, each as long as it says. -/
inductive Options : List UInt8 → Prop
  | nil : Options []
  | cons {type units : UInt8} {data rest : List UInt8}
      (sized : data.length + 2 = 8 * units.toNat) (more : Options rest) :
      Options (type :: units :: (data ++ rest))

theorem Options.single {type units : UInt8} {data : List UInt8}
    (sized : data.length + 2 = 8 * units.toNat) : Options (type :: units :: data) := by
  have ended : Options (type :: units :: (data ++ [])) := Options.cons sized Options.nil
  rwa [List.append_nil] at ended

/-- The length of a message before its options. -/
def fixedLength (type : UInt8) : Option Nat :=
  match type.toNat with
  | 133 => some 8
  | 134 => some 16
  | 135 => some 24
  | 136 => some 24
  | 137 => some 40
  | _ => none

/-! ## The parts of a frame -/

def payloadLength (frame : List UInt8) : Nat := ofBigEndian ((frame.drop 18).take 2)

def nextHeader (frame : List UInt8) : Option UInt8 := (frame.drop 20).head?

def hopLimit (frame : List UInt8) : Option UInt8 := (frame.drop 21).head?

def source (frame : List UInt8) : List UInt8 := (frame.drop 22).take 16

def destination (frame : List UInt8) : List UInt8 := (frame.drop 38).take 16

def message (frame : List UInt8) : List UInt8 := frame.drop 54

/-- What a receiver checks before it looks at a neighbour discovery message. -/
structure WellFormed (frame : List UInt8) : Prop where
  payload_length : payloadLength frame = (message frame).length
  next_header : nextHeader frame = some 58
  hop_limit : hopLimit frame = some 255
  options : ∃ type fixed, (message frame).head? = some type ∧ fixedLength type = some fixed ∧
    fixed ≤ (message frame).length ∧ Options ((message frame).drop fixed)
  checksum : onesSum (pseudoHeader (source frame) (destination frame) (payloadLength frame) ++
    message frame) = 0xffff

/-- The IPv6 header up to the addresses. -/
def ipv6Header (length : Nat) : List UInt8 :=
  [0x60, 0, 0, 0] ++ (toBigEndian 2 length ++ [58, 255])

/-- A frame with the given Ethernet header, addresses and message. -/
def assemble (ethernet src dst body : List UInt8) : List UInt8 :=
  ethernet ++ (ipv6Header body.length ++ (src ++ (dst ++ body)))

@[simp]
theorem length_ipv6Header (length : Nat) : (ipv6Header length).length = 8 := by
  rw [ipv6Header, List.length_append, List.length_append, length_toBigEndian]
  rfl

section Assemble

variable {ethernet src dst : List UInt8}

/-- The IPv6 header starts behind the Ethernet header. -/
theorem drop_ethernet (ethernet_length : ethernet.length = 14) (body : List UInt8) (count : Nat) :
    (assemble ethernet src dst body).drop (14 + count) =
      (ipv6Header body.length ++ (src ++ (dst ++ body))).drop count := by
  rw [← List.drop_drop, assemble, List.drop_left' ethernet_length]

theorem payloadLength_assemble (ethernet_length : ethernet.length = 14) {body : List UInt8}
    (short : body.length < 2 ^ 16) :
    payloadLength (assemble ethernet src dst body) = body.length := by
  have version_length : ([0x60, 0, 0, 0] : List UInt8).length = 4 := rfl
  rw [payloadLength, drop_ethernet ethernet_length body 4, ipv6Header, List.append_assoc,
    List.drop_left' version_length, List.append_assoc,
    List.take_left' (length_toBigEndian 2 body.length), ofBigEndian_toBigEndian]
  exact Nat.mod_eq_of_lt short

theorem nextHeader_assemble (ethernet_length : ethernet.length = 14) (body : List UInt8) :
    nextHeader (assemble ethernet src dst body) = some 58 := by
  rw [nextHeader, drop_ethernet ethernet_length body 6]
  rfl

theorem hopLimit_assemble (ethernet_length : ethernet.length = 14) (body : List UInt8) :
    hopLimit (assemble ethernet src dst body) = some 255 := by
  rw [hopLimit, drop_ethernet ethernet_length body 7]
  rfl

/-- The addresses follow the first 8 bytes of the IPv6 header. -/
theorem drop_header (ethernet_length : ethernet.length = 14) (body : List UInt8) (count : Nat) :
    (assemble ethernet src dst body).drop (22 + count) = (src ++ (dst ++ body)).drop count := by
  have start : 22 + count = 14 + (8 + count) := by omega
  rw [start, drop_ethernet ethernet_length, ← List.drop_drop,
    List.drop_left' (length_ipv6Header body.length)]

theorem source_assemble (ethernet_length : ethernet.length = 14) (src_length : src.length = 16)
    (body : List UInt8) : source (assemble ethernet src dst body) = src := by
  rw [source, drop_header ethernet_length body 0, List.drop_zero, List.take_left' src_length]

theorem destination_assemble (ethernet_length : ethernet.length = 14) (src_length : src.length = 16)
    (dst_length : dst.length = 16) (body : List UInt8) :
    destination (assemble ethernet src dst body) = dst := by
  rw [destination, drop_header ethernet_length body 16, List.drop_left' src_length,
    List.take_left' dst_length]

theorem message_assemble (ethernet_length : ethernet.length = 14) (src_length : src.length = 16)
    (dst_length : dst.length = 16) (body : List UInt8) :
    message (assemble ethernet src dst body) = body := by
  have addresses : (src ++ dst).length = 32 := by
    rw [List.length_append, src_length, dst_length]
  rw [message, drop_header ethernet_length body 32, ← List.append_assoc,
    List.drop_left' addresses]

/-- A frame is well formed when its message holds its own checksum and ends in options. -/
theorem wellFormed_assemble (ethernet_length : ethernet.length = 14) (src_length : src.length = 16)
    (dst_length : dst.length = 16) {type code high low : UInt8} {fixed options : List UInt8}
    (short : (fixed ++ options).length + 4 < 2 ^ 16)
    (stored : word high low = checksum src dst (type :: code :: 0 :: 0 :: (fixed ++ options)))
    (fixed_length : fixedLength type = some (fixed.length + 4)) (tiled : Options options) :
    WellFormed (assemble ethernet src dst (type :: code :: high :: low :: (fixed ++ options))) where
  payload_length := by
    have length_lt : (type :: code :: high :: low :: (fixed ++ options)).length < 2 ^ 16 := short
    rw [payloadLength_assemble ethernet_length length_lt,
      message_assemble ethernet_length src_length dst_length]
  next_header := nextHeader_assemble ethernet_length _
  hop_limit := hopLimit_assemble ethernet_length _
  options := by
    rw [message_assemble ethernet_length src_length dst_length]
    refine ⟨type, fixed.length + 4, rfl, fixed_length, ?_, ?_⟩
    · simp only [List.length_cons, List.length_append]
      omega
    · have options_eq : (type :: code :: high :: low :: (fixed ++ options)).drop
          (fixed.length + 4) = options := List.drop_left
      rwa [options_eq]
  checksum := by
    have even : (pseudoHeader src dst (type :: code :: high :: low :: (fixed ++ options)).length ++
        [type, code]).length % 2 = 0 := by
      simp [pseudoHeader, src_length, dst_length]
    have length_lt : (type :: code :: high :: low :: (fixed ++ options)).length < 2 ^ 16 := short
    rw [payloadLength_assemble ethernet_length length_lt,
      source_assemble ethernet_length src_length,
      destination_assemble ethernet_length src_length dst_length,
      message_assemble ethernet_length src_length dst_length]
    have verified : onesSum (pseudoHeader src dst
        (type :: code :: high :: low :: (fixed ++ options)).length ++ [type, code] ++ [high, low] ++
        (fixed ++ options)) = 0xffff := by
      apply onesSum_stored even
      rw [stored, checksum]
      simp only [List.append_assoc, List.cons_append, List.nil_append, List.length_cons]
    simpa only [List.append_assoc, List.cons_append, List.nil_append] using verified

end Assemble

end NeighbourDiscovery
