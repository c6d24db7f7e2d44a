import Nebula.Lib.ByteStrings

/- RTP and RTCP packets as the byte strings the media service handles, with the
   header accessors of the packet module. An access past the end panics. -/
namespace RtpPacket
open ByteStrings

def RTP_HEADER_LEN : Nat := 12
def MARKER_PT_OFFSET : Nat := 1
def SEQUENCE_OFFSET : Nat := 2
def TIMESTAMP_OFFSET : Nat := SEQUENCE_OFFSET + 2
def SSRC_OFFSET_RTP : Nat := TIMESTAMP_OFFSET + 4
def PT_MASK : UInt8 := 0x7f
def CC_MASK : UInt8 := 0x0f
def EXTENSION_BIT : UInt8 := 0x10
def MARKER_BIT : UInt8 := 0x80

def getSsrc (buf : Bytes) : Outcome Nat := readU32 buf SSRC_OFFSET_RTP

def getSequence (buf : Bytes) : Outcome Nat := readU16 buf SEQUENCE_OFFSET

def setSequence (buf : Bytes) (seq : Nat) : Outcome Bytes :=
  writeAt buf SEQUENCE_OFFSET (bytes16 seq)

def getTimestamp (buf : Bytes) : Outcome Nat := readU32 buf TIMESTAMP_OFFSET

def setTimestamp (buf : Bytes) (ts : Nat) : Outcome Bytes :=
  writeAt buf TIMESTAMP_OFFSET (bytes32 ts)

def setPayloadType (buf : Bytes) (pt : UInt8) : Outcome Bytes := do
  let b ← byteAt buf MARKER_PT_OFFSET
  writeAt buf MARKER_PT_OFFSET [(b &&& (b ^^^ PT_MASK)) ||| (pt &&& PT_MASK)]

def setMarker (buf : Bytes) (m : Bool) : Outcome Bytes := do
  let b ← byteAt buf MARKER_PT_OFFSET
  writeAt buf MARKER_PT_OFFSET [if m then b ||| MARKER_BIT else b &&& (b ^^^ MARKER_BIT)]

def getCsrcCount (buf : Bytes) : Outcome Nat := do
  let b ← byteAt buf 0
  pure (b &&& CC_MASK).toNat

def getExtensionBit (buf : Bytes) : Outcome Bool := do
  let b ← byteAt buf 0
  pure (b &&& EXTENSION_BIT == EXTENSION_BIT)

/- The offset is at most 15 * 4 + 12 + 2, so neither the byte product nor the
   16-bit cast of the source can overflow. -/
def getExtensionLength (buf : Bytes) : Outcome Nat := do
  if ← getExtensionBit buf then
    let count ← getCsrcCount buf
    let len ← readU16 buf (count * 4 + RTP_HEADER_LEN + 2)
    pure ((len + 1) * 4)
  else pure 0

def payloadOffset (buf : Bytes) : Outcome Nat := do
  let count ← getCsrcCount buf
  let extension ← getExtensionLength buf
  pure (count * 4 + RTP_HEADER_LEN + extension)

/-- Truncation past the end keeps the whole buffer. -/
def setPaylod (buf : Bytes) (payload : Bytes) : Outcome Bytes := do
  let offset ← payloadOffset buf
  pure (buf.take offset ++ payload)

def succU16 (seq : Nat) : Nat := if seq + 1 < 65536 then seq + 1 else 0

def checkedAddU32 (a b : Nat) : Nat := if a + b < 4294967296 then a + b else 0

def nextSeq (buf : Bytes) : Outcome Bytes := do
  let seq ← getSequence buf
  setSequence buf (succU16 seq)

def next (buf : Bytes) (ptime : Nat) : Outcome Bytes := do
  let advanced ← nextSeq buf
  let ts ← getTimestamp advanced
  setTimestamp advanced (checkedAddU32 ts ptime)

theorem succU16_eq_mod {seq : Nat} (bound : seq < 65536) : succU16 seq = (seq + 1) % 65536 := by
  simp only [succU16]
  split <;> omega

/- The header is in the clear and never longer than the payload offset, so two
   packets that agree up to that offset have the same layout. -/
theorem csrcCount_agree {p q : Bytes} {n : Nat} (same : p.take n = q.take n) (pos : 0 < n) :
    getCsrcCount p = getCsrcCount q := by
  simp only [getCsrcCount, byteAt_agree same pos]

theorem extensionLength_agree {p q : Bytes} {n count extension : Nat}
    (same : p.take n = q.take n) (counted : getCsrcCount p = .ok count)
    (run : getExtensionLength p = .ok extension)
    (covers : count * 4 + RTP_HEADER_LEN + extension ≤ n) :
    getExtensionLength q = .ok extension := by
  have pos : 0 < n := by simp only [RTP_HEADER_LEN] at covers; omega
  have countQ := (csrcCount_agree same pos).symm.trans counted
  have bit : getExtensionBit p = getExtensionBit q := by
    simp only [getExtensionBit, byteAt_agree same pos]
  obtain ⟨set, first, rest⟩ := bind_ok_inv run
  unfold getExtensionLength
  rw [← bit, first]
  cases set with
  | false => exact rest
  | true =>
    obtain ⟨c, eqc, tail⟩ := bind_ok_inv rest
    obtain ⟨len, read, last⟩ := bind_ok_inv tail
    cases eqc.symm.trans counted
    cases last
    have readQ : readU16 q (count * 4 + RTP_HEADER_LEN + 2) = .ok len := by
      rw [← read]
      exact (readU16_agree same (by omega)).symm
    simp [countQ, readQ]

theorem payloadOffset_inv {p : Bytes} {off : Nat} (run : payloadOffset p = .ok off) :
    ∃ count extension, getCsrcCount p = .ok count ∧ getExtensionLength p = .ok extension ∧
      off = count * 4 + RTP_HEADER_LEN + extension := by
  obtain ⟨count, counted, rest⟩ := bind_ok_inv run
  obtain ⟨extension, measured, last⟩ := bind_ok_inv rest
  cases last
  exact ⟨count, extension, counted, measured, rfl⟩

theorem payloadOffset_ge {p : Bytes} {off : Nat} (run : payloadOffset p = .ok off) :
    RTP_HEADER_LEN ≤ off := by
  obtain ⟨count, extension, _, _, eq⟩ := payloadOffset_inv run
  omega

theorem payloadOffset_agree {p q : Bytes} {off : Nat} (run : payloadOffset p = .ok off)
    (same : p.take off = q.take off) : payloadOffset q = .ok off := by
  obtain ⟨count, extension, counted, measured, eq⟩ := payloadOffset_inv run
  have pos : 0 < off := by simp only [RTP_HEADER_LEN] at eq; omega
  have countQ := (csrcCount_agree same pos).symm.trans counted
  have extensionQ := extensionLength_agree same counted measured (by omega)
  unfold payloadOffset
  rw [countQ, extensionQ, eq]
  rfl

theorem getSequence_agree {p q : Bytes} {n : Nat} (same : p.take n = q.take n)
    (covers : RTP_HEADER_LEN ≤ n) : getSequence p = getSequence q :=
  readU16_agree same (by simp only [RTP_HEADER_LEN] at covers; simp only [SEQUENCE_OFFSET]; omega)

theorem getSsrc_agree {p q : Bytes} {n : Nat} (same : p.take n = q.take n)
    (covers : RTP_HEADER_LEN ≤ n) : getSsrc p = getSsrc q :=
  readU32_agree same (by
    simp only [RTP_HEADER_LEN] at covers
    simp only [SSRC_OFFSET_RTP, TIMESTAMP_OFFSET, SEQUENCE_OFFSET]
    omega)

/- A packet is well formed when it is a fixed header, the CSRC entries its count
   announces, an extension block exactly when the extension bit is set, and a
   payload of any length. -/
def ExtensionBlock (first : UInt8) (block : Bytes) : Prop :=
  if first &&& EXTENSION_BIT = EXTENSION_BIT then
    ∃ profile data words, profile.length = 2 ∧ data.length = words * 4 ∧ words < 65536 ∧
      block = profile ++ bytes16 words ++ data
  else block = []

def WellFormed (p : Bytes) : Prop :=
  ∃ first head csrc block payload, p = first :: head ++ csrc ++ block ++ payload ∧
    head.length = 11 ∧ csrc.length = (first &&& CC_MASK).toNat * 4 ∧ ExtensionBlock first block

theorem extensionLength_of_block {first : UInt8} {head csrc block : Bytes} (payload : Bytes)
    (headLen : head.length = 11) (csrcLen : csrc.length = (first &&& CC_MASK).toNat * 4)
    (valid : ExtensionBlock first block) :
    getExtensionLength (first :: head ++ csrc ++ block ++ payload) = .ok block.length := by
  have bit : getExtensionBit (first :: head ++ csrc ++ block ++ payload) =
      .ok (first &&& EXTENSION_BIT == EXTENSION_BIT) := rfl
  have count : getCsrcCount (first :: head ++ csrc ++ block ++ payload) =
      .ok (first &&& CC_MASK).toNat := rfl
  unfold getExtensionLength
  rw [bit]
  unfold ExtensionBlock at valid
  split at valid
  · rename_i set
    obtain ⟨profile, data, words, profileLen, dataLen, small, eq⟩ := valid
    subst eq
    have read : readU16 (first :: head ++ csrc ++ (profile ++ bytes16 words ++ data) ++ payload)
        ((first &&& CC_MASK).toNat * 4 + RTP_HEADER_LEN + 2) = .ok words := by
      have at_words := readU16_bytes16 (first :: head ++ csrc ++ profile) (data ++ payload) words
      have start : (first :: head ++ csrc ++ profile).length =
          (first &&& CC_MASK).toNat * 4 + RTP_HEADER_LEN + 2 := by
        simp [headLen, csrcLen, profileLen, RTP_HEADER_LEN]
        omega
      rw [start, Nat.mod_eq_of_lt small] at at_words
      simpa [List.append_assoc] using at_words
    simp only [set, beq_self_eq_true, ok_bind, ↓reduceIte, count, read, pure_eq_ok,
      List.length_append, profileLen, bytes16_length, dataLen]
    congr 1
    omega
  · rename_i clear
    subst valid
    have off : (first &&& EXTENSION_BIT == EXTENSION_BIT) = false := by simp [clear]
    rw [off]
    rfl

theorem wellFormed_payloadOffset {p : Bytes} (h : WellFormed p) :
    ∃ off, payloadOffset p = .ok off ∧ off ≤ p.length := by
  obtain ⟨first, head, csrc, block, payload, eq, headLen, csrcLen, valid⟩ := h
  have measured := extensionLength_of_block payload headLen csrcLen valid
  refine ⟨(first &&& CC_MASK).toNat * 4 + RTP_HEADER_LEN + block.length, ?_, ?_⟩
  · rw [eq]
    unfold payloadOffset
    rw [measured]
    rfl
  · simp [eq, headLen, csrcLen, RTP_HEADER_LEN]
    omega

theorem wellFormed_length {p : Bytes} (h : WellFormed p) : RTP_HEADER_LEN ≤ p.length := by
  obtain ⟨off, run, inside⟩ := wellFormed_payloadOffset h
  exact Nat.le_trans (payloadOffset_ge run) inside

theorem getSequence_ok {p : Bytes} (long : RTP_HEADER_LEN ≤ p.length) :
    ∃ seq, getSequence p = .ok seq ∧ seq < 65536 := by
  simp only [RTP_HEADER_LEN] at long
  have run : getSequence p = .ok _ := readU16_eq_ok (by simp only [SEQUENCE_OFFSET]; omega)
  exact ⟨_, run, word16_lt _ _⟩

theorem getSsrc_ok {p : Bytes} (long : RTP_HEADER_LEN ≤ p.length) :
    ∃ ssrc, getSsrc p = .ok ssrc := by
  simp only [RTP_HEADER_LEN] at long
  have hi : readU16 p SSRC_OFFSET_RTP = .ok _ :=
    readU16_eq_ok (by simp only [SSRC_OFFSET_RTP, TIMESTAMP_OFFSET, SEQUENCE_OFFSET]; omega)
  have lo : readU16 p (SSRC_OFFSET_RTP + 2) = .ok _ :=
    readU16_eq_ok (by simp only [SSRC_OFFSET_RTP, TIMESTAMP_OFFSET, SEQUENCE_OFFSET]; omega)
  unfold getSsrc readU32
  rw [hi, lo]
  exact ⟨_, rfl⟩

end RtpPacket

namespace RtcpPacket
open ByteStrings

def RTCP_HEADER_LEN : Nat := 4
def RTCP_SSRC_LEN : Nat := 4

def getSsrc (buf : Bytes) : Outcome Nat := readU32 buf 4

def payloadOffset : Nat := RTCP_HEADER_LEN + RTCP_SSRC_LEN

end RtcpPacket
