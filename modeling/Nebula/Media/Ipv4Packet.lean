import Mathlib.Data.List.Basic
import Nebula.Lib.OnesComplement

/- IPv4 packets that carry a UDP datagram to a peer, as they are written to a raw socket, and
   the checksum that is put into them. -/
namespace Ipv4
open ByteStrings OnesComplement

section Packets

def IPV4_HEADER_LEN : Nat := 20
def UDP_HEADER_LEN : Nat := 8

/-- The two headers are always there. -/
structure Ipv4Packet where
  inner : Bytes
  headers : IPV4_HEADER_LEN + UDP_HEADER_LEN ≤ inner.length

structure Ipv4Addr where
  a : UInt8
  b : UInt8
  c : UInt8
  d : UInt8
  deriving DecidableEq

def Ipv4Addr.octets (ip : Ipv4Addr) : Bytes := [ip.a, ip.b, ip.c, ip.d]

namespace Ipv4Packet

def put (packet : Ipv4Packet) (i : Nat) (byte : UInt8) : Ipv4Packet :=
  { inner := packet.inner.set i byte, headers := by
      rw [List.length_set]
      exact packet.headers }

def byte (packet : Ipv4Packet) (i : Nat) : UInt8 := packet.inner.getD i 0

def put16 (packet : Ipv4Packet) (co : Nat) (val : UInt16) : Ipv4Packet :=
  (packet.put co (val >>> 8).toUInt8).put (co + 1) val.toUInt8

def putAddr (packet : Ipv4Packet) (co : Nat) (ip : Ipv4Addr) : Ipv4Packet :=
  (((packet.put co ip.a).put (co + 1) ip.b).put (co + 2) ip.c).put (co + 3) ip.d

def setVersion (packet : Ipv4Packet) (val : UInt8) : Ipv4Packet :=
  packet.put 0 ((packet.byte 0 &&& (15 : UInt8)) ||| (val <<< (4 : UInt8)))

def setHeaderLength (packet : Ipv4Packet) (val : UInt8) : Ipv4Packet :=
  packet.put 0 ((packet.byte 0 &&& (240 : UInt8)) ||| (val / 4))

def setTotalLength (packet : Ipv4Packet) (val : UInt16) : Ipv4Packet :=
  (packet.put 2 ((val &&& 65280) >>> 8).toUInt8).put 3 val.toUInt8

def setTtl (packet : Ipv4Packet) (val : UInt8) : Ipv4Packet := packet.put 8 val

def setProtocol (packet : Ipv4Packet) (val : UInt8) : Ipv4Packet := packet.put 9 val

def setSourceIp (packet : Ipv4Packet) (ip : Ipv4Addr) : Ipv4Packet := packet.putAddr 12 ip

def setDestinationIp (packet : Ipv4Packet) (ip : Ipv4Addr) : Ipv4Packet := packet.putAddr 16 ip

def setSourcePort (packet : Ipv4Packet) (val : UInt16) : Ipv4Packet := packet.put16 20 val

def setDestinationPort (packet : Ipv4Packet) (val : UInt16) : Ipv4Packet := packet.put16 22 val

def setUdpLength (packet : Ipv4Packet) (val : UInt16) : Ipv4Packet := packet.put16 24 val

def new : Ipv4Packet :=
  ((((⟨List.replicate 28 0, by decide⟩ : Ipv4Packet).setVersion 4).setHeaderLength 20).setTtl
    64).setProtocol 17

end Ipv4Packet

/-- An addition on 32 bits, where it does not overflow. -/
def addByte (sum : Nat) (entry : UInt8 × Nat) : Option Nat :=
  let value := if entry.2 % 2 = 0 then entry.1.toNat * 256 else entry.1.toNat
  if sum + value < 2 ^ 32 then some (sum + value) else none

def foldCarries (sum : Nat) : Option Nat :=
  if 0xffff < sum then
    if sum + sum / 65536 < 2 ^ 32 then foldCarries ((sum + sum / 65536) % 65536) else none
  else some sum
termination_by sum
decreasing_by omega

def csum (sum : Nat) (data : Bytes) : Option Nat :=
  (data.zipIdx.foldlM addByte sum).bind foldCarries

/-- What stands behind the headers is replaced. -/
def Ipv4Packet.extended (packet : Ipv4Packet) (payload : Bytes) : Ipv4Packet :=
  { inner := packet.inner.take (IPV4_HEADER_LEN + UDP_HEADER_LEN) ++ payload, headers := by
      rw [List.length_append, List.length_take, Nat.min_eq_left packet.headers]
      exact Nat.le_add_right _ _ }

/-- The packet with a payload, before its checksum is known. -/
def Ipv4Packet.withPayload (packet : Ipv4Packet) (payload : Bytes) : Ipv4Packet :=
  (((((packet.extended payload).setUdpLength
    (UInt16.ofNat (payload.length + UDP_HEADER_LEN))).setTotalLength
    (UInt16.ofNat (payload.length + IPV4_HEADER_LEN + UDP_HEADER_LEN))).put 26 0).put 27 0)

/-- There is nothing where an addition overflows. -/
def Ipv4Packet.setPayload (packet : Ipv4Packet) (payload : Bytes) : Option Ipv4Packet :=
  let packet := packet.withPayload payload
  (csum 0 ((packet.inner.drop 12).take 8)).bind fun sum =>
    (csum sum [0, 17, 0, packet.byte 25, packet.byte 24]).bind fun sum =>
      (csum sum (packet.inner.drop 20)).map fun sum =>
        let sum := sum ^^^ 0xffff
        (packet.put 26 (UInt8.ofNat (sum / 256))).put 27 (UInt8.ofNat sum)

end Packets

section Layout

namespace Ipv4Packet

def addresses (packet : Ipv4Packet) : Bytes := (packet.inner.drop 12).take 8

def ports (packet : Ipv4Packet) : Bytes := (packet.inner.drop 20).take 4

/-- The datagram in the packet, from its header on. -/
def udp (packet : Ipv4Packet) : Bytes := packet.inner.drop IPV4_HEADER_LEN

end Ipv4Packet

theorem exists_front (bytes : Bytes) {n : Nat} (long : n ≤ bytes.length) :
    ∃ front back, bytes = front ++ back ∧ front.length = n ∧ back.length = bytes.length - n :=
  ⟨bytes.take n, bytes.drop n, (List.take_append_drop n bytes).symm,
    List.length_take_of_le long, List.length_drop ..⟩

theorem slice_eq {bytes front part back : Bytes} {n m : Nat} (whole : bytes = front ++ part ++ back)
    (start : front.length = n) (size : part.length = m) : (bytes.drop n).take m = part := by
  rw [whole, List.append_assoc, List.drop_left' start, List.take_left' size]

theorem put_inner {packet : Ipv4Packet} {front back : Bytes} {old : UInt8} {i : Nat} (byte : UInt8)
    (split : packet.inner = front ++ old :: back) (place : front.length = i) :
    (packet.put i byte).inner = front ++ byte :: back := by
  have same : (packet.put i byte).inner = packet.inner.set i byte := rfl
  rw [same, split, ← place]
  simp

theorem put_two {packet : Ipv4Packet} {front back : Bytes} {old next : UInt8} {i : Nat}
    (first second : UInt8) (split : packet.inner = front ++ old :: next :: back)
    (place : front.length = i) :
    ((packet.put i first).put (i + 1) second).inner = front ++ first :: second :: back := by
  have one := put_inner first split place
  have two := @put_inner _ (front ++ [first]) back next (i + 1) second (one.trans (by simp))
    (by rw [List.length_append, place, List.length_singleton])
  exact two.trans (by simp)

/-- The parts of the headers: both lengths and the checksum are two bytes. -/
theorem headers_split (packet : Ipv4Packet) : ∃ front t1 t2 middle l1 l2 c1 c2 rest,
    packet.inner = front ++ t1 :: t2 :: (middle ++ packet.addresses ++ packet.ports ++
      l1 :: l2 :: c1 :: c2 :: rest) ∧
    front.length = 2 ∧ middle.length = 8 ∧ packet.addresses.length = 8 ∧
    packet.ports.length = 4 ∧
    packet.inner.take (IPV4_HEADER_LEN + UDP_HEADER_LEN) =
      front ++ t1 :: t2 :: (middle ++ packet.addresses ++ packet.ports ++ [l1, l2, c1, c2]) := by
  have long : 28 ≤ packet.inner.length := packet.headers
  obtain ⟨front, back, whole, size, left⟩ := @exists_front packet.inner 2 (by omega)
  obtain ⟨total, back, rfl, totalSize, left⟩ := @exists_front back 2 (by omega)
  obtain ⟨middle, back, rfl, middleSize, left⟩ := @exists_front back 8 (by omega)
  obtain ⟨addresses, back, rfl, addressSize, left⟩ := @exists_front back 8 (by omega)
  obtain ⟨ports, back, rfl, portSize, left⟩ := @exists_front back 4 (by omega)
  obtain ⟨length, back, rfl, lengthSize, left⟩ := @exists_front back 2 (by omega)
  obtain ⟨check, rest, rfl, checkSize, _⟩ := @exists_front back 2 (by omega)
  obtain ⟨t1, t2, rfl⟩ := List.length_eq_two.mp totalSize
  obtain ⟨l1, l2, rfl⟩ := List.length_eq_two.mp lengthSize
  obtain ⟨c1, c2, rfl⟩ := List.length_eq_two.mp checkSize
  have before : (front ++ [t1, t2] ++ middle).length = 12 := by simp [size, middleSize]
  have own : packet.addresses = addresses :=
    @slice_eq _ _ _ (ports ++ [l1, l2, c1, c2] ++ rest) _ _ (whole.trans (by simp)) before
      addressSize
  have numbers : packet.ports = ports :=
    @slice_eq _ (front ++ [t1, t2] ++ middle ++ addresses) _ ([l1, l2, c1, c2] ++ rest) _ _
      (whole.trans (by simp))
      (by rw [List.length_append, before, addressSize]) portSize
  have headers : packet.inner.take 28 =
      front ++ t1 :: t2 :: (middle ++ addresses ++ ports ++ [l1, l2, c1, c2]) := by
    have split : packet.inner =
        (front ++ t1 :: t2 :: (middle ++ addresses ++ ports ++ [l1, l2, c1, c2])) ++ rest :=
      whole.trans (by simp)
    rw [split]
    exact List.take_left' (by simp [size, middleSize, addressSize, portSize])
  rw [own, numbers]
  exact ⟨front, t1, t2, middle, l1, l2, c1, c2, rest, whole.trans (by simp), size, middleSize,
    addressSize, portSize, headers⟩

/-- The bytes of a packet with both lengths in it, around the parts that stay. -/
def laid (front middle addresses ports check payload : Bytes) : Bytes :=
  front ++ bytes16 (payload.length + IPV4_HEADER_LEN + UDP_HEADER_LEN) ++ middle ++ addresses ++
    ports ++ bytes16 (payload.length + UDP_HEADER_LEN) ++ check ++ payload

theorem high_byte (n : Nat) : (UInt16.ofNat n >>> 8).toUInt8 = UInt8.ofNat (n / 256) := by
  apply UInt8.toNat_inj.mp
  simp only [UInt16.toNat_toUInt8, UInt16.toNat_shiftRight, UInt16.toNat_ofNat',
    UInt8.toNat_ofNat', UInt16.reduceToNat, Nat.shiftRight_eq_div_pow, Nat.reduceMod, Nat.reducePow]
  omega

theorem low_byte (n : Nat) : (UInt16.ofNat n).toUInt8 = UInt8.ofNat n := by
  apply UInt8.toNat_inj.mp
  simp only [UInt16.toNat_toUInt8, UInt16.toNat_ofNat', UInt8.toNat_ofNat']
  omega

theorem masked_high (val : UInt16) : ((val &&& 65280) >>> 8).toUInt8 = (val >>> 8).toUInt8 := by
  apply UInt8.toNat_inj.mp
  have low : val.toNat >>> 8 &&& 255 = val.toNat >>> 8 % 256 :=
    Nat.and_two_pow_sub_one_eq_mod (val.toNat >>> 8) 8
  simp only [UInt16.toNat_toUInt8, UInt16.toNat_shiftRight, UInt16.toNat_and, UInt16.reduceToNat,
    Nat.shiftRight_and_distrib, Nat.reduceMod, Nat.reducePow, Nat.reduceShiftRight, low,
    Nat.mod_mod]

theorem put_lengths {packet : Ipv4Packet} {front middle payload : Bytes} {t1 t2 l1 l2 c1 c2 : UInt8}
    (udp total : UInt16) (frontSize : front.length = 2) (middleSize : middle.length = 20)
    (split : packet.inner = front ++ t1 :: t2 :: (middle ++ l1 :: l2 :: c1 :: c2 :: payload)) :
    ((((packet.setUdpLength udp).setTotalLength total).put 26 0).put 27 0).inner =
      front ++ (total >>> 8).toUInt8 :: total.toUInt8 ::
        (middle ++ (udp >>> 8).toUInt8 :: udp.toUInt8 :: 0 :: 0 :: payload) := by
  have lengths := @put_two packet (front ++ t1 :: t2 :: middle) (c1 :: c2 :: payload) l1 l2 24
    (udp >>> 8).toUInt8 udp.toUInt8 (split.trans (by simp)) (by simp [frontSize, middleSize])
  have totals := @put_two (packet.setUdpLength udp) front
    (middle ++ (udp >>> 8).toUInt8 :: udp.toUInt8 :: c1 :: c2 :: payload) t1 t2 2
    ((total &&& 65280) >>> 8).toUInt8 total.toUInt8 (lengths.trans (by simp)) frontSize
  have zeros := @put_two ((packet.setUdpLength udp).setTotalLength total)
    (front ++ ((total &&& 65280) >>> 8).toUInt8 :: total.toUInt8 ::
      (middle ++ [(udp >>> 8).toUInt8, udp.toUInt8])) payload c1 c2 26 0 0
    (totals.trans (by simp)) (by simp [frontSize, middleSize])
  rw [masked_high] at zeros
  exact zeros.trans (by simp)

theorem withPayload_laid (packet : Ipv4Packet) (payload : Bytes) : ∃ front middle,
    front.length = 2 ∧ middle.length = 8 ∧ (packet.withPayload payload).inner =
      laid front middle packet.addresses packet.ports [0, 0] payload := by
  obtain ⟨front, t1, t2, middle, l1, l2, c1, c2, rest, _, frontSize, middleSize, addressSize,
    portSize, headers⟩ := headers_split packet
  refine ⟨front, middle, frontSize, middleSize, ?_⟩
  have first : (packet.extended payload).inner = front ++ t1 :: t2 :: ((middle ++
      packet.addresses ++ packet.ports) ++ l1 :: l2 :: c1 :: c2 :: payload) := by
    have same : (packet.extended payload).inner =
      packet.inner.take (IPV4_HEADER_LEN + UDP_HEADER_LEN) ++ payload := rfl
    rw [same, headers]
    simp
  have bytes := put_lengths (UInt16.ofNat (payload.length + UDP_HEADER_LEN))
    (UInt16.ofNat (payload.length + IPV4_HEADER_LEN + UDP_HEADER_LEN)) frontSize
    (by simp [middleSize, addressSize, portSize]) first
  refine Eq.trans bytes ?_
  rw [high_byte, high_byte, low_byte, low_byte]
  simp [laid, bytes16]

end Layout

section Sums

theorem addByte_high {sum k : Nat} {byte : UInt8} (even : k % 2 = 0)
    (bound : sum + byte.toNat * 256 < 2 ^ 32) :
    addByte sum (byte, k) = some (sum + byte.toNat * 256) := by
  unfold addByte
  dsimp only
  rw [if_pos even, if_pos bound]

theorem addByte_low {sum k : Nat} {byte : UInt8} (odd : k % 2 ≠ 0)
    (bound : sum + byte.toNat < 2 ^ 32) : addByte sum (byte, k) = some (sum + byte.toNat) := by
  unfold addByte
  dsimp only
  rw [if_neg odd, if_pos bound]

/-- Bytes are added as the words that they make up, from an even place on. -/
theorem addBytes_eq (data : Bytes) {sum k : Nat} (even : k % 2 = 0)
    (bound : sum + (words data).sum < 2 ^ 32) :
    (data.zipIdx k).foldlM addByte sum = some (sum + (words data).sum) := by
  fun_induction words data generalizing sum k with
  | case1 => rfl
  | case2 byte =>
    have word : word16 byte 0 = byte.toNat * 256 := Nat.add_zero _
    rw [List.sum_singleton, word] at bound ⊢
    rw [List.zipIdx_cons, List.foldlM_cons, addByte_high even bound]
    rfl
  | case3 high low rest ih =>
    rw [List.sum_cons, word16] at bound ⊢
    rw [← Nat.add_assoc, ← Nat.add_assoc] at bound ⊢
    have inner := Nat.lt_of_le_of_lt (Nat.le_add_right _ _) bound
    have first := addByte_high even (Nat.lt_of_le_of_lt (Nat.le_add_right _ _) inner)
    have second := @addByte_low _ (k + 1) low (by omega) inner
    have others := @ih _ (k + 1 + 1) (by omega) bound
    rw [List.zipIdx_cons, List.zipIdx_cons, List.foldlM_cons, first, Option.bind_eq_bind,
      Option.bind_some, List.foldlM_cons, second, Option.bind_eq_bind, Option.bind_some, others]

theorem foldCarries_eq {sum : Nat} (bound : sum + sum / 65536 < 2 ^ 32) :
    foldCarries sum = some (carried sum) := by
  have small := carried_lt sum
  rw [foldCarries]
  split
  · rw [foldCarries, if_neg (by unfold carried at small; omega)]
    rfl
  · rw [carried_small (by omega)]

theorem csum_eq {sum : Nat} {data : Bytes} (bound : sum + (words data).sum < 2 ^ 32 - 2 ^ 16) :
    csum sum data = some (carried (sum + (words data).sum)) := by
  unfold csum
  rw [addBytes_eq data (Nat.zero_mod 2) (by omega), Option.bind_some, foldCarries_eq (by omega)]

end Sums

section Parts

variable {packet : Ipv4Packet} {front middle addresses ports check payload : Bytes}

/-- A packet of known parts, which have the sizes that they should. -/
structure Laid (packet : Ipv4Packet) (front middle addresses ports check payload : Bytes) :
    Prop where
  whole : packet.inner = laid front middle addresses ports check payload
  frontSize : front.length = 2
  middleSize : middle.length = 8
  addressSize : addresses.length = 8
  portSize : ports.length = 4
  checkSize : check.length = 2

def Ipv4Packet.field16 (packet : Ipv4Packet) (co : Nat) : Nat :=
  word16 (packet.byte co) (packet.byte (co + 1))

theorem byte_eq {left right : Bytes} {b : UInt8} {i : Nat}
    (split : packet.inner = left ++ b :: right) (place : left.length = i) : packet.byte i = b := by
  rw [Ipv4Packet.byte, split, ← place, List.getD_append_right _ _ _ _ (Nat.le_refl _)]
  rw [Nat.sub_self, List.getD_cons_zero]

theorem field16_eq {left right : Bytes} {n i : Nat}
    (split : packet.inner = left ++ bytes16 n ++ right) (place : left.length = i) :
    packet.field16 i = n % 65536 := by
  have high := @byte_eq packet left (UInt8.ofNat n :: right) (UInt8.ofNat (n / 256)) i
    (split.trans (by simp [bytes16])) place
  have low := @byte_eq packet (left ++ [UInt8.ofNat (n / 256)]) right (UInt8.ofNat n) (i + 1)
    (split.trans (by simp [bytes16])) (by rw [List.length_append, place, List.length_singleton])
  rw [Ipv4Packet.field16, high, low, word16_bytes]

theorem Laid.addresses_eq (own : Laid packet front middle addresses ports check payload) :
    packet.addresses = addresses :=
  @slice_eq _ (front ++ bytes16 (payload.length + IPV4_HEADER_LEN + UDP_HEADER_LEN) ++ middle) _
    (ports ++ bytes16 (payload.length + UDP_HEADER_LEN) ++ check ++ payload) _ _
    (own.whole.trans (by simp [laid])) (by simp [own.frontSize, own.middleSize, bytes16_length])
    own.addressSize

theorem Laid.ports_eq (own : Laid packet front middle addresses ports check payload) :
    packet.ports = ports :=
  @slice_eq _ (front ++ bytes16 (payload.length + IPV4_HEADER_LEN + UDP_HEADER_LEN) ++ middle ++
      addresses) _ (bytes16 (payload.length + UDP_HEADER_LEN) ++ check ++ payload) _ _
    (own.whole.trans (by simp [laid]))
    (by simp [own.frontSize, own.middleSize, own.addressSize, bytes16_length]) own.portSize

theorem Laid.udp_eq (own : Laid packet front middle addresses ports check payload) :
    packet.udp = ports ++ bytes16 (payload.length + UDP_HEADER_LEN) ++ check ++ payload := by
  have split : packet.inner = (front ++
      bytes16 (payload.length + IPV4_HEADER_LEN + UDP_HEADER_LEN) ++ middle ++ addresses) ++
      (ports ++ bytes16 (payload.length + UDP_HEADER_LEN) ++ check ++ payload) :=
    own.whole.trans (by simp [laid])
  rw [Ipv4Packet.udp, split]
  exact List.drop_left' (by
    simp [own.frontSize, own.middleSize, own.addressSize, bytes16_length, IPV4_HEADER_LEN])

theorem Laid.length_eq (own : Laid packet front middle addresses ports check payload) :
    packet.inner.length = payload.length + 28 := by
  rw [own.whole]
  simp [laid, own.frontSize, own.middleSize, own.addressSize, own.portSize, own.checkSize,
    bytes16_length]
  omega

theorem Laid.totalLength_eq (own : Laid packet front middle addresses ports check payload) :
    packet.field16 2 = (payload.length + 28) % 65536 :=
  @field16_eq packet front _ (payload.length + IPV4_HEADER_LEN + UDP_HEADER_LEN) 2
    (own.whole.trans (by simp [laid]; rfl)) own.frontSize

theorem Laid.udpLength_eq (own : Laid packet front middle addresses ports check payload) :
    packet.field16 24 = (payload.length + 8) % 65536 :=
  @field16_eq packet (front ++ bytes16 (payload.length + IPV4_HEADER_LEN + UDP_HEADER_LEN) ++
      middle ++ addresses ++ ports) (check ++ payload) (payload.length + UDP_HEADER_LEN) 24
    (own.whole.trans (by simp [laid]))
    (by simp [own.frontSize, own.middleSize, own.addressSize, own.portSize, bytes16_length])

theorem Laid.checksum_eq {n : Nat}
    (own : Laid packet front middle addresses ports (bytes16 n) payload) :
    packet.field16 26 = n % 65536 :=
  @field16_eq packet (front ++ bytes16 (payload.length + IPV4_HEADER_LEN + UDP_HEADER_LEN) ++
      middle ++ addresses ++ ports ++ bytes16 (payload.length + UDP_HEADER_LEN)) payload n 26
    (own.whole.trans (by simp [laid]))
    (by simp [own.frontSize, own.middleSize, own.addressSize, own.portSize, bytes16_length])

theorem Laid.payload_eq (own : Laid packet front middle addresses ports check payload) :
    packet.inner.drop (IPV4_HEADER_LEN + UDP_HEADER_LEN) = payload := by
  rw [own.whole, laid]
  exact List.drop_left' (by simp [own.frontSize, own.middleSize, own.addressSize, own.portSize,
    own.checkSize, bytes16_length, IPV4_HEADER_LEN, UDP_HEADER_LEN])

end Parts

section Checksum

variable (packet : Ipv4Packet) (payload : Bytes)

/-- The plain sums of the addresses, of the protocol and length, and of the datagram with no
    checksum in it. -/
def Ipv4Packet.addressSum : Nat := (words packet.addresses).sum

def lengthSum : Nat := 17 + (payload.length + UDP_HEADER_LEN)

def Ipv4Packet.udpSum : Nat :=
  (words (packet.ports ++ bytes16 (payload.length + UDP_HEADER_LEN) ++ [0, 0] ++ payload)).sum

/-- What is left of the sums, as the code adds them. -/
def Ipv4Packet.remainder : Nat :=
  carried (carried (carried packet.addressSum + lengthSum payload) + packet.udpSum payload)

theorem complement {n : Nat} (small : n < 65536) : n ^^^ 0xffff = 65535 - n := by
  have bits := congrArg BitVec.toNat (@BitVec.xor_allOnes 16 (BitVec.ofNat 16 n))
  rw [BitVec.toNat_xor, BitVec.toNat_not, BitVec.toNat_ofNat, Nat.mod_eq_of_lt small] at bits
  exact bits

/-- The length stands in the sum with its bytes in the other order, at other places. -/
theorem length_words (low high : UInt8) :
    (words [0, 17, 0, low, high]).sum = 17 + word16 high low := by
  have zero : (0 : UInt8).toNat = 0 := rfl
  have protocol : (17 : UInt8).toNat = 17 := rfl
  simp only [words, word16, List.sum_cons, List.sum_nil, zero, protocol]
  omega

theorem setPayload_laid (fits : payload.length ≤ 65507) : ∃ after front middle,
    packet.setPayload payload = some after ∧ Laid after front middle packet.addresses packet.ports
      (bytes16 (65535 - packet.remainder payload)) payload := by
  obtain ⟨front, middle, frontSize, middleSize, whole⟩ := withPayload_laid packet payload
  obtain ⟨_, _, _, _, _, _, _, _, _, _, _, _, addressSize, portSize, _⟩ := headers_split packet
  have own : Laid (packet.withPayload payload) front middle packet.addresses packet.ports [0, 0]
      payload := ⟨whole, frontSize, middleSize, addressSize, portSize, rfl⟩
  have addressBound := words_sum_le packet.addresses
  rw [addressSize] at addressBound
  have first : csum 0 (((packet.withPayload payload).inner.drop 12).take 8) =
      some (carried packet.addressSum) := by
    have read : ((packet.withPayload payload).inner.drop 12).take 8 = packet.addresses :=
      own.addresses_eq
    rw [read, csum_eq (by omega), Nat.zero_add]
    rfl
  have second : csum (carried packet.addressSum) [0, 17, 0, (packet.withPayload payload).byte 25,
      (packet.withPayload payload).byte 24] =
      some (carried (carried packet.addressSum + lengthSum payload)) := by
    have small := carried_lt packet.addressSum
    have length := own.udpLength_eq
    rw [Ipv4Packet.field16, Nat.mod_eq_of_lt (by omega)] at length
    have total : (words [0, 17, 0, (packet.withPayload payload).byte 25,
        (packet.withPayload payload).byte 24]).sum = lengthSum payload := by
      rw [length_words, length]
      rfl
    have bound : lengthSum payload ≤ 65532 := by
      unfold lengthSum UDP_HEADER_LEN
      omega
    rw [csum_eq (by omega), total]
  have third : csum (carried (carried packet.addressSum + lengthSum payload))
      ((packet.withPayload payload).inner.drop 20) = some (packet.remainder payload) := by
    have small := carried_lt (carried packet.addressSum + lengthSum payload)
    have bound := words_sum_le (packet.withPayload payload).udp
    have size : (packet.withPayload payload).udp.length = payload.length + 8 := by
      rw [own.udp_eq]
      simp [portSize, bytes16_length]
      omega
    have read : (words (packet.withPayload payload).udp).sum = packet.udpSum payload := by
      rw [own.udp_eq]
      rfl
    have drop : (packet.withPayload payload).inner.drop 20 = (packet.withPayload payload).udp := rfl
    rw [size] at bound
    rw [drop, csum_eq (by omega), read]
    rfl
  have check : packet.remainder payload ^^^ 0xffff = 65535 - packet.remainder payload :=
    complement (carried_lt _)
  refine ⟨((packet.withPayload payload).put 26
      (UInt8.ofNat ((65535 - packet.remainder payload) / 256))).put 27
      (UInt8.ofNat (65535 - packet.remainder payload)), front, middle, ?_,
    ?_, frontSize, middleSize, addressSize, portSize, rfl⟩
  · unfold Ipv4Packet.setPayload
    dsimp only
    rw [first, Option.bind_some, second, Option.bind_some, third, Option.map_some, check]
  · have written := @put_two (packet.withPayload payload)
      (front ++ bytes16 (payload.length + IPV4_HEADER_LEN + UDP_HEADER_LEN) ++ middle ++
        packet.addresses ++ packet.ports ++ bytes16 (payload.length + UDP_HEADER_LEN)) payload
      0 0 26
      (UInt8.ofNat ((65535 - packet.remainder payload) / 256))
      (UInt8.ofNat (65535 - packet.remainder payload)) (whole.trans (by simp [laid]))
      (by simp [frontSize, middleSize, addressSize, portSize, bytes16_length])
    refine Eq.trans written ?_
    simp [laid, bytes16]

theorem carried_pos {total : Nat} (keeps : KeepsCarries total) (pos : 0 < total) :
    0 < carried total := by
  obtain ⟨_, _, _, zero⟩ := reduce_cases total
  rw [carried_keeps keeps] at zero
  omega

/-- The sum of all words is zero modulo 65535 if no carry is lost; the second of the three sums
    is too small to lose one. -/
theorem remainder_iff {a l w : Nat} (first : a ≤ 262140) (least : 17 ≤ l) (most : l ≤ 65532)
    (last : w ≤ 65535 * 32758) :
    ((a + l + w + (65535 - carried (carried (carried a + l) + w))) % 65535 = 0 ∧
      65535 - carried (carried (carried a + l) + w) ≠ 0) ↔
    KeepsCarries a ∧ KeepsCarries (reduce (a + l) + w) ∧ (a + l + w) % 65535 ≠ 0 := by
  have small := carried_lt a
  have middle := carried_lt (carried a + l)
  have final := carried_lt (carried (carried a + l) + w)
  have keeps : KeepsCarries (carried a + l) := by
    unfold KeepsCarries
    omega
  have pos := carried_pos keeps (by omega)
  have second : carried a + l = carried (carried a + l) + 65535 * ((carried a + l) / 65536) := by
    obtain ⟨carries, ⟨_, whole⟩ | ⟨lost, _⟩⟩ := carried_cases (carried a + l) (by omega)
    · omega
    · exact absurd keeps lost
  obtain ⟨q1, ⟨keeps1, whole1⟩ | ⟨lost1, whole1⟩⟩ := carried_cases a (by omega)
  · have same : reduce (a + l) = carried (carried a + l) :=
      @reduce_eq _ _ (q1 + (carried a + l) / 65536) (by omega) (by omega) (by omega)
    rw [same]
    obtain ⟨q3, ⟨keeps3, whole3⟩ | ⟨lost3, whole3⟩⟩ :=
      carried_cases (carried (carried a + l) + w) (by omega)
    · have some_ := carried_pos keeps3 (by omega)
      have whole : a + l + w = carried (carried (carried a + l) + w) +
          65535 * (q1 + (carried a + l) / 65536 + q3) := by omega
      constructor
      · exact fun both => ⟨keeps1, keeps3, by omega⟩
      · exact fun all => by omega
    · constructor
      · intro both
        omega
      · exact fun all => absurd all.2.1 lost3
  · constructor
    · intro both
      obtain ⟨q3, ⟨_, whole3⟩ | ⟨_, whole3⟩⟩ :=
        carried_cases (carried (carried a + l) + w) (by omega)
      · omega
      · omega
    · exact fun all => absurd all.1 lost1

/-- What the checksum covers: addresses, protocol and length of the datagram, and all of it. -/
def Ipv4Packet.covered : Bytes :=
  packet.addresses ++ [0, 17] ++ bytes16 packet.udp.length ++ packet.udp

/-- The other packet takes the payload to the same place, and its lengths are the real ones. -/
structure Delivers (packet : Ipv4Packet) (payload : Bytes) (after : Ipv4Packet) : Prop where
  addresses : after.addresses = packet.addresses
  ports : after.ports = packet.ports
  payload : after.inner.drop (IPV4_HEADER_LEN + UDP_HEADER_LEN) = payload
  totalLength : after.field16 2 = after.inner.length
  udpLength : after.field16 24 = after.udp.length

theorem words_bytes16 (n : Nat) : words (bytes16 n) = [n % 65536] := by
  rw [bytes16, words, word16_bytes]
  rfl

/-- The plain sum of a datagram is the sum without its checksum and the checksum. -/
theorem udp_words {ports : Bytes} (even : ports.length = 4) (length check : Nat) :
    (words (ports ++ bytes16 length ++ bytes16 check ++ payload)).sum =
      (words (ports ++ bytes16 length ++ [0, 0] ++ payload)).sum + check % 65536 := by
  have first : (ports ++ bytes16 length).length % 2 = 0 := by simp [even, bytes16_length]
  have split : ∀ bytes : Bytes, bytes.length = 2 →
      (words (ports ++ bytes16 length ++ bytes ++ payload)).sum =
        (words (ports ++ bytes16 length)).sum + (words bytes).sum + (words payload).sum := by
    intro bytes two
    rw [List.append_assoc, words_append _ _ first, words_append bytes payload (by rw [two]),
      List.sum_append, List.sum_append, Nat.add_assoc]
  have zero : words [0, 0] = [0] := rfl
  rw [split _ (bytes16_length check), split [0, 0] rfl, words_bytes16, zero, List.sum_singleton,
    List.sum_singleton]
  omega

theorem covered_words {after : Ipv4Packet} (even : after.addresses.length = 8) :
    (words after.covered).sum =
      after.addressSum + (17 + after.udp.length % 65536) + (words after.udp).sum := by
  have protocol : words [0, 17] = [17] := rfl
  rw [Ipv4Packet.covered, words_append _ _ (by simp [even, bytes16_length]),
    words_append _ _ (by simp [even]), words_append _ _ (by rw [even]), words_bytes16, protocol]
  simp only [List.sum_append, List.sum_cons, List.sum_nil, Ipv4Packet.addressSum]
  omega

theorem setPayload_spec (fits : payload.length ≤ 65507) : ∃ after,
    packet.setPayload payload = some after ∧ Delivers packet payload after ∧
      after.field16 26 = 65535 - packet.remainder payload ∧
      OnesComplement.sum (words after.covered) = reduce (packet.addressSum + lengthSum payload +
        packet.udpSum payload + (65535 - packet.remainder payload)) := by
  obtain ⟨after, front, middle, run, own⟩ := setPayload_laid packet payload fits
  have udpSize : after.udp.length = payload.length + 8 := by
    rw [own.udp_eq]
    simp [own.portSize, bytes16_length]
    omega
  refine ⟨after, run, ⟨own.addresses_eq, own.ports_eq, own.payload_eq, ?_, ?_⟩, ?_, ?_⟩
  · rw [own.totalLength_eq, own.length_eq, Nat.mod_eq_of_lt (by omega)]
  · rw [own.udpLength_eq, udpSize, Nat.mod_eq_of_lt (by omega)]
  · rw [own.checksum_eq, Nat.mod_eq_of_lt (by omega)]
  · rw [sum_eq (words_bounded _), covered_words (by rw [own.addresses_eq, own.addressSize]),
      udpSize, own.udp_eq, udp_words payload own.portSize, Ipv4Packet.addressSum, own.addresses_eq,
      Nat.mod_eq_of_lt (by omega), Nat.mod_eq_of_lt (by omega)]
    congr 1
    unfold Ipv4Packet.addressSum lengthSum Ipv4Packet.udpSum UDP_HEADER_LEN
    omega

end Checksum

section Sending

/-- What a peer is reached through: a channel in the process, a UDP socket, or a raw socket. -/
inductive PeerTransport where
  | localPeer
  | peerConnection (ip : Ipv4Addr) (port : UInt16)
  | sessionSocket (packet : Ipv4Packet) (ip : Ipv4Addr) (port : UInt16)

/-- The packet of a new session socket. -/
def sessionPacket (mediaIp : Ipv4Addr) (localPort : UInt16) (peerIp : Ipv4Addr)
    (peerPort : UInt16) : Ipv4Packet :=
  (((Ipv4Packet.new.setSourceIp mediaIp).setSourcePort localPort).setDestinationIp
    peerIp).setDestinationPort peerPort

/-- The bytes given to the channel or socket. -/
def PeerTransport.send (transport : PeerTransport) (buf : Bytes) : Option Bytes :=
  match transport with
  | localPeer => some buf
  | peerConnection _ _ => some buf
  | sessionSocket packet _ _ => (packet.setPayload buf).map Ipv4Packet.inner

def PeerTransport.setPeerAddr (transport : PeerTransport) (peerIp : Ipv4Addr) (peerPort : UInt16) :
    PeerTransport :=
  match transport with
  | localPeer => localPeer
  | peerConnection _ _ => peerConnection peerIp peerPort
  | sessionSocket packet _ _ =>
    sessionSocket ((packet.setDestinationIp peerIp).setDestinationPort peerPort) peerIp peerPort

theorem putAddr_inner (packet : Ipv4Packet) (co : Nat) (ip : Ipv4Addr) :
    (packet.putAddr co ip).inner = (((packet.inner.set co ip.a).set (co + 1) ip.b).set (co + 2)
      ip.c).set (co + 3) ip.d := rfl

theorem put16_inner (packet : Ipv4Packet) (co : Nat) (val : UInt16) :
    (packet.put16 co val).inner =
      (packet.inner.set co (val >>> 8).toUInt8).set (co + 1) val.toUInt8 := rfl

theorem new_inner : Ipv4Packet.new.inner =
    ([69, 0, 0, 0, 0, 0, 0, 0, 64, 17, 0, 0] : Bytes) ++ List.replicate 16 0 := by
  decide

theorem sessionPacket_inner (mediaIp peerIp : Ipv4Addr) (localPort peerPort : UInt16) :
    (sessionPacket mediaIp localPort peerIp peerPort).inner =
      ([69, 0, 0, 0, 0, 0, 0, 0, 64, 17, 0, 0] : Bytes) ++ mediaIp.octets ++ peerIp.octets ++
        [(localPort >>> 8).toUInt8, localPort.toUInt8, (peerPort >>> 8).toUInt8, peerPort.toUInt8,
          0, 0, 0, 0] := by
  rw [sessionPacket, Ipv4Packet.setDestinationPort, put16_inner, Ipv4Packet.setDestinationIp,
    putAddr_inner, Ipv4Packet.setSourcePort, put16_inner, Ipv4Packet.setSourceIp, putAddr_inner,
    new_inner]
  simp [Ipv4Addr.octets, List.replicate]

theorem sessionPacket_peers (mediaIp peerIp : Ipv4Addr) (localPort peerPort : UInt16) :
    (sessionPacket mediaIp localPort peerIp peerPort).addresses = mediaIp.octets ++ peerIp.octets ∧
      (sessionPacket mediaIp localPort peerIp peerPort).ports =
        [(localPort >>> 8).toUInt8, localPort.toUInt8, (peerPort >>> 8).toUInt8,
          peerPort.toUInt8] := by
  rw [Ipv4Packet.addresses, Ipv4Packet.ports, sessionPacket_inner]
  exact ⟨rfl, rfl⟩

/-- A session packet for other peers is the packet of a session with them. -/
theorem setPeerAddr_sessionPacket (mediaIp peerIp ip : Ipv4Addr)
    (localPort peerPort port : UInt16) :
    (PeerTransport.sessionSocket (sessionPacket mediaIp localPort peerIp peerPort) peerIp
      peerPort).setPeerAddr ip port =
      .sessionSocket (sessionPacket mediaIp localPort ip port) ip port := by
  have same : ∀ {left right : Ipv4Packet}, left.inner = right.inner → left = right := by
    intro left right equal
    cases left
    cases right
    cases equal
    rfl
  refine congrArg (fun packet => PeerTransport.sessionSocket packet ip port) (same ?_)
  rw [Ipv4Packet.setDestinationPort, put16_inner, Ipv4Packet.setDestinationIp, putAddr_inner,
    sessionPacket_inner, sessionPacket_inner]
  simp [Ipv4Addr.octets]

end Sending

section Guarantee

/-- No carry is lost when the sums of the addresses and of the datagram are folded, and the sum
    of all words is no multiple of 65535. -/
def Checkable (packet : Ipv4Packet) (payload : Bytes) : Prop :=
  KeepsCarries packet.addressSum ∧
    KeepsCarries (reduce (packet.addressSum + lengthSum payload) + packet.udpSum payload) ∧
    (packet.addressSum + lengthSum payload + packet.udpSum payload) % 65535 ≠ 0

instance (packet : Ipv4Packet) (payload : Bytes) : Decidable (Checkable packet payload) :=
  inferInstanceAs (Decidable (_ ∧ _ ∧ _))

/-- The words that the checksum covers add up to 0xffff, with a checksum that is not 0, exactly
    where no carry is lost and the sum is no multiple of 65535. -/
theorem setPayload_checked_iff (packet : Ipv4Packet) (payload : Bytes)
    (fits : payload.length ≤ 65507) :
    (∃ after, packet.setPayload payload = some after ∧ Delivers packet payload after ∧
        OnesComplement.sum (words after.covered) = 0xffff ∧ after.field16 26 ≠ 0) ↔
      Checkable packet payload := by
  obtain ⟨after, run, delivers, check, total⟩ := setPayload_spec packet payload fits
  have addressBound : packet.addressSum ≤ 262140 := by
    obtain ⟨_, _, _, _, _, _, _, _, _, _, _, _, size, _⟩ := headers_split packet
    have bound := words_sum_le packet.addresses
    rw [size] at bound
    exact bound
  have lengthBounds : 17 ≤ lengthSum payload ∧ lengthSum payload ≤ 65532 := by
    unfold lengthSum UDP_HEADER_LEN
    omega
  have udpBound : packet.udpSum payload ≤ 65535 * 32758 := by
    obtain ⟨_, _, _, _, _, _, _, _, _, _, _, _, _, size, _⟩ := headers_split packet
    have bound := words_sum_le
      (packet.ports ++ bytes16 (payload.length + UDP_HEADER_LEN) ++ [0, 0] ++ payload)
    simp only [List.length_append, size, bytes16_length, List.length_cons, List.length_nil] at bound
    unfold Ipv4Packet.udpSum
    omega
  have sums := remainder_iff addressBound lengthBounds.1 lengthBounds.2 udpBound
  rw [Checkable, ← sums]
  constructor
  · rintro ⟨other, again, _, ones, set⟩
    obtain rfl := Option.some.inj (again.symm.trans run)
    rw [total, reduce_eq_ones] at ones
    rw [check] at set
    exact ⟨ones.2, set⟩
  · rintro ⟨multiple, set⟩
    refine ⟨after, run, delivers, ?_, ?_⟩
    · rw [total, reduce_eq_ones]
      exact ⟨by omega, multiple⟩
    · rw [check]
      exact set

theorem setPayload_checked_short :
    ∃ after, (sessionPacket ⟨192, 168, 0, 10⟩ 20000 ⟨203, 0, 113, 7⟩ 30000).setPayload [1, 2] =
        some after ∧
      Delivers (sessionPacket ⟨192, 168, 0, 10⟩ 20000 ⟨203, 0, 113, 7⟩ 30000) [1, 2] after ∧
      OnesComplement.sum (words after.covered) = 0xffff ∧ after.field16 26 ≠ 0 :=
  (setPayload_checked_iff _ [1, 2] (by decide)).mpr (by decide +kernel)

/-- Two bytes that leave the checksum 0, and four that lose a carry. -/
theorem setPayload_unchecked :
    let packet := sessionPacket ⟨192, 168, 0, 10⟩ 20000 ⟨203, 0, 113, 7⟩ 30000
    (∃ after, packet.setPayload [63, 207] = some after ∧ after.field16 26 = 0) ∧
      ∃ after, packet.setPayload [255, 255, 63, 204] = some after ∧
        OnesComplement.sum (words after.covered) ≠ 0xffff := by
  intro packet
  constructor
  · obtain ⟨after, run, _, check, _⟩ := setPayload_spec packet [63, 207] (by decide)
    have zero : 65535 - packet.remainder [63, 207] = 0 := by decide +kernel
    exact ⟨after, run, check.trans zero⟩
  · obtain ⟨after, run, _, _, total⟩ := setPayload_spec packet [255, 255, 63, 204] (by decide)
    refine ⟨after, run, ?_⟩
    rw [total]
    decide +kernel

end Guarantee

end Ipv4
