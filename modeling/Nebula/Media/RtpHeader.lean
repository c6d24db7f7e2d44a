import Mathlib.Data.List.Basic
import Nebula.Media.Packet

/- A packet as the fields of its header and a payload: what the accessors read, and what the
   setters leave. -/
namespace RtpPacket
open ByteStrings

def setPacketSsrc (buf : Bytes) (ssrc : Nat) : Outcome Bytes :=
  writeAt buf SSRC_OFFSET_RTP (bytes32 ssrc)

def getPayload (buf : Bytes) : Outcome Bytes := do
  let offset ← payloadOffset buf
  sliceFrom buf offset

def hasMarker (buf : Bytes) : Outcome Bool := do
  let byte ← byteAt buf MARKER_PT_OFFSET
  pure (decide ((0 : UInt8) < (byte >>> 7) &&& 0x1))

/-- The header up to the payload: two bytes of flags, counters and type, the fields, the
    sources that contributed and the extension block. -/
structure RtpHeader where
  first : UInt8
  second : UInt8
  sequence : UInt16
  timestamp : UInt32
  ssrc : UInt32
  csrc : Bytes
  block : Bytes
  csrcLength : csrc.length = (first &&& CC_MASK).toNat * 4
  blockValid : ExtensionBlock first block

namespace RtpHeader

def bytes (header : RtpHeader) : Bytes :=
  header.first :: header.second :: (bytes16 header.sequence.toNat ++
    (bytes32 header.timestamp.toNat ++ (bytes32 header.ssrc.toNat ++
      (header.csrc ++ header.block))))

/-- The fields that every header has, after its first byte. -/
def fixed (header : RtpHeader) : Bytes :=
  header.second :: (bytes16 header.sequence.toNat ++ bytes32 header.timestamp.toNat ++
    bytes32 header.ssrc.toNat)

def payloadType (header : RtpHeader) : UInt8 := header.second &&& PT_MASK

def typed (byte payloadType : UInt8) : UInt8 :=
  (byte &&& (byte ^^^ PT_MASK)) ||| (payloadType &&& PT_MASK)

def marked (byte : UInt8) (marker : Bool) : UInt8 :=
  if marker then byte ||| MARKER_BIT else byte &&& (byte ^^^ MARKER_BIT)

end RtpHeader

theorem typed_type (byte payloadType : UInt8) :
    RtpHeader.typed byte payloadType &&& PT_MASK = payloadType &&& PT_MASK := by
  apply UInt8.eq_of_toBitVec_eq
  apply BitVec.eq_of_getLsbD_eq
  intro i small
  unfold RtpHeader.typed
  simp only [UInt8.toBitVec_and, UInt8.toBitVec_or, UInt8.toBitVec_xor, BitVec.getLsbD_and,
    BitVec.getLsbD_or, BitVec.getLsbD_xor]
  cases byte.toBitVec.getLsbD i <;> cases PT_MASK.toBitVec.getLsbD i <;> simp

/-- The type that was overwritten, written back. -/
theorem typed_back (byte other : UInt8) :
    RtpHeader.typed (RtpHeader.typed byte other) (byte &&& PT_MASK) = byte := by
  apply UInt8.eq_of_toBitVec_eq
  apply BitVec.eq_of_getLsbD_eq
  intro i small
  unfold RtpHeader.typed
  simp only [UInt8.toBitVec_and, UInt8.toBitVec_or, UInt8.toBitVec_xor, BitVec.getLsbD_and,
    BitVec.getLsbD_or, BitVec.getLsbD_xor]
  cases byte.toBitVec.getLsbD i <;> cases PT_MASK.toBitVec.getLsbD i <;> simp

section Accessors
variable (header : RtpHeader) (payload : Bytes)

theorem getSequence_header : getSequence (header.bytes ++ payload) = .ok header.sequence.toNat := by
  have fits := header.sequence.toNat_lt
  have read : getSequence (header.bytes ++ payload) = .ok (word16
      (UInt8.ofNat (header.sequence.toNat / 256)) (UInt8.ofNat header.sequence.toNat)) := rfl
  rw [read, word16_bytes, Nat.mod_eq_of_lt (by omega)]

theorem getSsrc_header : getSsrc (header.bytes ++ payload) = .ok header.ssrc.toNat := by
  have fits := header.ssrc.toNat_lt
  have read : getSsrc (header.bytes ++ payload) = .ok
      (word16 (UInt8.ofNat (header.ssrc.toNat / 65536 / 256))
        (UInt8.ofNat (header.ssrc.toNat / 65536)) * 65536 +
        word16 (UInt8.ofNat (header.ssrc.toNat / 256)) (UInt8.ofNat header.ssrc.toNat)) := rfl
  rw [read, word16_bytes, word16_bytes]
  congr 1
  omega

theorem setSequence_header (sequence : UInt16) :
    setSequence (header.bytes ++ payload) sequence.toNat =
      .ok ({ header with sequence }.bytes ++ payload) := by
  unfold setSequence writeAt
  rw [if_pos (by simp [RtpHeader.bytes, bytes16, SEQUENCE_OFFSET])]
  rfl

theorem setPacketSsrc_header (ssrc : UInt32) :
    setPacketSsrc (header.bytes ++ payload) ssrc.toNat =
      .ok ({ header with ssrc }.bytes ++ payload) := by
  unfold setPacketSsrc writeAt
  rw [if_pos (by simp [RtpHeader.bytes, bytes16, bytes32, SSRC_OFFSET_RTP, TIMESTAMP_OFFSET,
    SEQUENCE_OFFSET])]
  rfl

theorem getTimestamp_header :
    getTimestamp (header.bytes ++ payload) = .ok header.timestamp.toNat := by
  have fits := header.timestamp.toNat_lt
  have read : getTimestamp (header.bytes ++ payload) = .ok
      (word16 (UInt8.ofNat (header.timestamp.toNat / 65536 / 256))
        (UInt8.ofNat (header.timestamp.toNat / 65536)) * 65536 +
        word16 (UInt8.ofNat (header.timestamp.toNat / 256))
          (UInt8.ofNat header.timestamp.toNat)) := rfl
  rw [read, word16_bytes, word16_bytes]
  congr 1
  omega

theorem setTimestamp_header (timestamp : UInt32) :
    setTimestamp (header.bytes ++ payload) timestamp.toNat =
      .ok ({ header with timestamp }.bytes ++ payload) := by
  unfold setTimestamp writeAt
  rw [if_pos (by simp [RtpHeader.bytes, bytes16, bytes32, TIMESTAMP_OFFSET, SEQUENCE_OFFSET])]
  rfl

theorem setMarker_header (marker : Bool) :
    setMarker (header.bytes ++ payload) marker =
      .ok ({ header with second := RtpHeader.marked header.second marker }.bytes ++ payload) := by
  have byte : byteAt (header.bytes ++ payload) MARKER_PT_OFFSET = .ok header.second := rfl
  unfold setMarker
  rw [byte, ok_bind]
  unfold writeAt
  rw [if_pos (by simp [RtpHeader.bytes, MARKER_PT_OFFSET])]
  rfl

theorem setPayloadType_header (payloadType : UInt8) :
    setPayloadType (header.bytes ++ payload) payloadType =
      .ok ({ header with second := RtpHeader.typed header.second payloadType }.bytes ++ payload) := by
  have byte : byteAt (header.bytes ++ payload) MARKER_PT_OFFSET = .ok header.second := rfl
  unfold setPayloadType
  rw [byte, ok_bind]
  unfold writeAt
  rw [if_pos (by simp [RtpHeader.bytes, MARKER_PT_OFFSET])]
  rfl

end Accessors

section Payload
variable (header : RtpHeader) (payload : Bytes)

/-- The marker is read back. -/
theorem hasMarker_header (marker : Bool) :
    hasMarker ({ header with second := RtpHeader.marked header.second marker }.bytes ++ payload) =
      .ok marker := by
  have own : ∀ byte : UInt8, ∀ marker : Bool,
      decide ((0 : UInt8) < (RtpHeader.marked byte marker >>> 7) &&& 0x1) = marker :=
    forall_byte (by decide +kernel)
  exact congrArg Except.ok (own header.second marker)

theorem header_length :
    header.bytes.length = header.csrc.length + RTP_HEADER_LEN + header.block.length := by
  simp [RtpHeader.bytes, bytes16, bytes32, RTP_HEADER_LEN]
  omega

theorem fixed_length : header.fixed.length = 11 := by
  simp [RtpHeader.fixed, bytes16, bytes32]

theorem header_split : header.bytes ++ payload =
    header.first :: header.fixed ++ header.csrc ++ header.block ++ payload := by
  simp [RtpHeader.bytes, RtpHeader.fixed]

theorem payloadOffset_header :
    payloadOffset (header.bytes ++ payload) = .ok header.bytes.length := by
  have count : getCsrcCount (header.bytes ++ payload) =
      .ok (header.first &&& CC_MASK).toNat := rfl
  have measured := extensionLength_of_block payload (fixed_length header) header.csrcLength
    header.blockValid
  rw [← header_split] at measured
  unfold payloadOffset
  rw [count, measured, header_length, header.csrcLength]
  rfl

theorem getPayload_header : getPayload (header.bytes ++ payload) = .ok payload := by
  unfold getPayload
  rw [payloadOffset_header, ok_bind]
  exact sliceFrom_append header.bytes payload

end Payload

section WellFormed

theorem bytes16_add (n m : Nat) : bytes16 (n * 65536 + m) = bytes16 m := by
  have high : UInt8.ofNat ((n * 65536 + m) / 256) = UInt8.ofNat (m / 256) := by
    apply UInt8.toNat_inj.mp
    rw [UInt8.toNat_ofNat', UInt8.toNat_ofNat']
    omega
  have low : UInt8.ofNat (n * 65536 + m) = UInt8.ofNat m := by
    apply UInt8.toNat_inj.mp
    rw [UInt8.toNat_ofNat', UInt8.toNat_ofNat']
    omega
  unfold bytes16
  rw [high, low]

theorem exists_bytes16 {word : Bytes} (two : word.length = 2) :
    ∃ value, value < 65536 ∧ bytes16 value = word := by
  obtain ⟨high, low, rfl⟩ := List.length_eq_two.mp two
  exact ⟨word16 high low, word16_lt high low, bytes16_word16 high low⟩

theorem exists_bytes32 {word : Bytes} (four : word.length = 4) :
    ∃ value, value < 4294967296 ∧ bytes32 value = word := by
  obtain ⟨high, highFits, highBytes⟩ :=
    exists_bytes16 (show (word.take 2).length = 2 by rw [List.length_take, four]; rfl)
  obtain ⟨low, lowFits, lowBytes⟩ :=
    exists_bytes16 (show (word.drop 2).length = 2 by rw [List.length_drop, four])
  have quotient : (high * 65536 + low) / 65536 = high := by omega
  refine ⟨high * 65536 + low, by omega, ?_⟩
  unfold bytes32
  rw [quotient, bytes16_add, highBytes, lowBytes, List.take_append_drop]

/-- The well-formed packets are those with such a header. -/
theorem wellFormed_iff_header (packet : Bytes) :
    WellFormed packet ↔ ∃ (header : RtpHeader) (payload : Bytes),
      packet = header.bytes ++ payload := by
  constructor
  · rintro ⟨first, head, csrc, block, payload, rfl, headLength, csrcLength, valid⟩
    obtain ⟨second, fields, rfl⟩ := List.exists_cons_of_length_eq_add_one headLength
    have ten : fields.length = 10 := by simpa using headLength
    obtain ⟨sequence, sequenceFits, sequenceBytes⟩ :=
      exists_bytes16 (show (fields.take 2).length = 2 by rw [List.length_take, ten]; rfl)
    obtain ⟨timestamp, timestampFits, timestampBytes⟩ :=
      exists_bytes32 (show ((fields.drop 2).take 4).length = 4 by
        rw [List.length_take, List.length_drop, ten]; rfl)
    obtain ⟨ssrc, ssrcFits, ssrcBytes⟩ :=
      exists_bytes32 (show (fields.drop 6).length = 4 by rw [List.length_drop, ten])
    have rest : (fields.drop 2).take 4 ++ fields.drop 6 = fields.drop 2 := by
      have later : fields.drop 6 = (fields.drop 2).drop 4 := by rw [List.drop_drop]
      rw [later, List.take_append_drop]
    refine ⟨⟨first, second, UInt16.ofNat sequence, UInt32.ofNat timestamp, UInt32.ofNat ssrc, csrc,
      block, csrcLength, valid⟩, payload, ?_⟩
    unfold RtpHeader.bytes
    rw [UInt16.toNat_ofNat_of_lt' sequenceFits, UInt32.toNat_ofNat_of_lt' timestampFits,
      UInt32.toNat_ofNat_of_lt' ssrcFits, sequenceBytes, timestampBytes, ssrcBytes,
      ← List.append_assoc ((fields.drop 2).take 4), rest, ← List.append_assoc (fields.take 2),
      List.take_append_drop]
    simp
  · rintro ⟨header, payload, rfl⟩
    exact ⟨header.first, header.fixed, header.csrc, header.block, payload,
      header_split header payload, fixed_length header, header.csrcLength, header.blockValid⟩

theorem take_of_readU16 {buf : Bytes} {i value : Nat} (read : readU16 buf i = .ok value) :
    i + 2 ≤ buf.length ∧ (buf.drop i).take 2 = bytes16 value := by
  obtain ⟨high, first, rest⟩ := bind_ok_inv read
  obtain ⟨low, second, last⟩ := bind_ok_inv rest
  cases last
  obtain ⟨_, here⟩ := List.getElem?_eq_some_iff.mp (byteAt_ok_iff.mp first)
  obtain ⟨inside, next⟩ := List.getElem?_eq_some_iff.mp (byteAt_ok_iff.mp second)
  refine ⟨by omega, ?_⟩
  rw [List.drop_eq_getElem_cons (by omega), here, List.drop_eq_getElem_cons inside, next,
    bytes16_word16]
  rfl

/-- The extension block of a packet that is long enough for it. -/
theorem extensionBlock_of_length {first : UInt8} {rest : Bytes} {extension : Nat}
    (measured : getExtensionLength (first :: rest) = .ok extension)
    (inside : (first &&& CC_MASK).toNat * 4 + RTP_HEADER_LEN + extension ≤
      (first :: rest).length) :
    ExtensionBlock first
      (((first :: rest).drop ((first &&& CC_MASK).toNat * 4 + RTP_HEADER_LEN)).take extension) := by
  have bit : getExtensionBit (first :: rest) =
      .ok (first &&& EXTENSION_BIT == EXTENSION_BIT) := rfl
  have count : getCsrcCount (first :: rest) = .ok (first &&& CC_MASK).toNat := rfl
  unfold ExtensionBlock
  unfold getExtensionLength at measured
  rw [bit, ok_bind, count] at measured
  split
  · rename_i set
    rw [if_pos (beq_iff_eq.mpr set), ok_bind] at measured
    obtain ⟨words, read, last⟩ := bind_ok_inv measured
    cases last
    have fits := readU16_lt read
    have word := (take_of_readU16 read).2
    clear measured read
    revert inside word
    generalize (first &&& CC_MASK).toNat * 4 + RTP_HEADER_LEN = start
    generalize first :: rest = packet
    intro inside word
    refine ⟨(packet.drop start).take 2, (packet.drop (start + 4)).take (words * 4), words,
      ?_, ?_, fits, ?_⟩
    · rw [List.length_take, List.length_drop]
      omega
    · rw [List.length_take, List.length_drop]
      omega
    · have parts : (words + 1) * 4 = 2 + (2 + words * 4) := by omega
      rw [parts, List.take_add, List.take_add, List.drop_drop, List.drop_drop, word,
        List.append_assoc]
  · rename_i clear
    rw [if_neg (by simpa using clear)] at measured
    cases measured
    rfl

/-- The well-formed packets are those that reach as far as their payload offset. -/
theorem wellFormed_iff_offset (packet : Bytes) :
    WellFormed packet ↔ ∃ offset, payloadOffset packet = .ok offset ∧ offset ≤ packet.length := by
  refine ⟨wellFormed_payloadOffset, ?_⟩
  rintro ⟨offset, read, inside⟩
  obtain ⟨count, extension, counted, measured, rfl⟩ := payloadOffset_inv read
  obtain ⟨first, byte, same⟩ := bind_ok_inv counted
  cases same
  cases packet with
  | nil => cases byte
  | cons own rest =>
    cases byte
    have block := extensionBlock_of_length measured inside
    have header : (first :: rest).take 12 = first :: rest.take 11 := rfl
    have csrc : ((first :: rest).drop 12).take ((first &&& CC_MASK).toNat * 4) =
        (rest.drop 11).take ((first &&& CC_MASK).toNat * 4) := rfl
    revert inside block
    simp only [RTP_HEADER_LEN, Nat.add_comm _ 12]
    intro inside block
    refine ⟨first, rest.take 11, (rest.drop 11).take ((first &&& CC_MASK).toNat * 4), _,
      (first :: rest).drop (12 + (first &&& CC_MASK).toNat * 4 + extension), ?_, ?_, ?_, block⟩
    · rw [← header, ← csrc, List.append_assoc, List.append_assoc, ← List.drop_drop,
        ← List.drop_drop, ← List.drop_drop, List.take_append_drop, List.take_append_drop,
        List.take_append_drop]
    · rw [List.length_take]
      simp only [List.length_cons] at inside
      omega
    · rw [List.length_take, List.length_drop]
      simp only [List.length_cons] at inside
      omega

end WellFormed

end RtpPacket
