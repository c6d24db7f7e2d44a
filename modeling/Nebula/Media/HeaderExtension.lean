import Nebula.Media.RtpHeader

/- The header extension that carries the ids of a packet between nodes: three ways to write it,
   and how it is read. -/
namespace RtpPacket
open ByteStrings

section Setters

def getPayloadType (buf : Bytes) : Outcome UInt8 := do
  let byte ← byteAt buf MARKER_PT_OFFSET
  pure (byte &&& PT_MASK)

/-- The list of the sources that contributed. -/
def csrcList (buf : Bytes) : Outcome Bytes := do
  let count ← getCsrcCount buf
  let header ← sliceTo buf (count * 4 + RTP_HEADER_LEN)
  pure (header.drop RTP_HEADER_LEN)

/-- A new block after some bytes and before the others: its header with the length in words, the
    data with zeros before it, and the bit in the first byte. -/
def appendExtension (base data tail : Bytes) : Outcome Bytes := do
  let newExtWords := (data.length + 3) / 4 % 65536
  let paddedLen := newExtWords * 4
  let marked := base ++ [0xBE, 0xDE, 0, 0]
  let hdrLenPos ← checkedSub marked.length 2
  let written ← writeAt marked hdrLenPos (bytes16 newExtWords)
  let pad ← checkedSub paddedLen data.length
  let whole := written ++ List.replicate pad 0 ++ data ++ tail
  let first ← byteAt whole 0
  writeAt whole 0 [first ||| EXTENSION_BIT]

/-- A buffer of its own takes the header, the new block and what follows the old one. -/
def setExtension (buf data : Bytes) : Outcome Bytes := do
  let count ← getCsrcCount buf
  let offset := count * 4 + RTP_HEADER_LEN
  let oldExtLen ← getExtensionLength buf
  let _needed ← checkedSub buf.length oldExtLen
  let head ← sliceTo buf offset
  let tail ← sliceFrom buf (offset + oldExtLen)
  appendExtension head data tail

/-- The same steps on a buffer that goes back to a pool; one from the pool is emptied first. -/
def setExtensionPooled (buf data : Bytes) : Outcome Bytes := do
  let count ← getCsrcCount buf
  let offset := count * 4 + RTP_HEADER_LEN
  let oldExtLen ← getExtensionLength buf
  let _needed ← checkedSub buf.length oldExtLen
  let head ← sliceTo buf offset
  let tail ← sliceFrom buf (offset + oldExtLen)
  appendExtension head data tail

/-- In place: what follows the old block is split off, and the old block stays. -/
def setExtensionBytesmut (buf data : Bytes) : Outcome Bytes := do
  let count ← getCsrcCount buf
  let offset := count * 4 + RTP_HEADER_LEN
  let oldExtLen ← getExtensionLength buf
  let tail ← sliceFrom buf (offset + oldExtLen)
  let kept ← sliceTo buf (offset + oldExtLen)
  appendExtension kept data tail

def getExtension (buf : Bytes) : Outcome (Option Bytes) := do
  let extensionLength ← getExtensionLength buf
  if extensionLength = 0 then pure none
  else
    let count ← getCsrcCount buf
    let offset := count * 4 + RTP_HEADER_LEN
    let upTo ← sliceTo buf (offset + extensionLength)
    let slice ← sliceFrom upTo (offset + 4)
    pure (some slice)

end Setters

section Blocks

/-- The data with zeros before it up to whole words. -/
def padded (data : Bytes) : Bytes :=
  List.replicate ((data.length + 3) / 4 * 4 - data.length) 0 ++ data

def newBlock (data : Bytes) : Bytes :=
  [0xBE, 0xDE] ++ bytes16 ((data.length + 3) / 4) ++ padded data

theorem padded_length (data : Bytes) : (padded data).length = (data.length + 3) / 4 * 4 := by
  unfold padded
  rw [List.length_append, List.length_replicate]
  omega

/-- The longest data whose words can be counted in 16 bits. -/
def MAX_EXTENSION_DATA : Nat := 262140

theorem newWords_fit {data : Bytes} (fits : data.length ≤ MAX_EXTENSION_DATA) :
    (data.length + 3) / 4 < 65536 := by
  unfold MAX_EXTENSION_DATA at fits
  omega

theorem appendExtension_eq {data : Bytes} (fits : data.length ≤ MAX_EXTENSION_DATA) (first : UInt8)
    (base tail : Bytes) :
    appendExtension (first :: base) data tail =
      .ok ((first ||| EXTENSION_BIT) :: (base ++ newBlock data ++ tail)) := by
  have words := Nat.mod_eq_of_lt (newWords_fit fits)
  have position : checkedSub (first :: base ++ [0xBE, 0xDE, 0, 0]).length 2 =
      .ok (first :: base ++ [0xBE, 0xDE]).length := by
    unfold checkedSub
    rw [if_pos (by simp)]
    simp
  have written : writeAt (first :: base ++ [0xBE, 0xDE, 0, 0]) (first :: base ++ [0xBE, 0xDE]).length
      (bytes16 ((data.length + 3) / 4)) =
        .ok (first :: base ++ [0xBE, 0xDE] ++ bytes16 ((data.length + 3) / 4)) := by
    have parts : first :: base ++ [0xBE, 0xDE, 0, 0] =
        (first :: base ++ [0xBE, 0xDE]) ++ [0, 0] := by simp
    rw [parts]
    unfold writeAt
    rw [if_pos (by simp [bytes16_length]), List.take_left, List.drop_of_length_le (by
      simp [bytes16_length]), List.append_nil]
  have pad : checkedSub ((data.length + 3) / 4 * 4) data.length =
      .ok ((data.length + 3) / 4 * 4 - data.length) := if_pos (by omega)
  unfold appendExtension
  simp only [words, position, ok_bind, written, pad]
  unfold newBlock padded
  simp [byteAt, writeAt]

end Blocks

section Headers

theorem extended_first : ∀ byte : UInt8,
    (byte ||| EXTENSION_BIT) &&& CC_MASK = byte &&& CC_MASK ∧
      (byte ||| EXTENSION_BIT) &&& EXTENSION_BIT = EXTENSION_BIT ∧
      (byte ||| EXTENSION_BIT) ||| EXTENSION_BIT = byte ||| EXTENSION_BIT :=
  forall_byte (by decide +kernel)

/-- The header with a new extension in the place of its own, if it has one. -/
def RtpHeader.extended (header : RtpHeader) (data : Bytes)
    (fits : data.length ≤ MAX_EXTENSION_DATA) : RtpHeader where
  first := header.first ||| EXTENSION_BIT
  second := header.second
  sequence := header.sequence
  timestamp := header.timestamp
  ssrc := header.ssrc
  csrc := header.csrc
  block := newBlock data
  csrcLength := by rw [(extended_first header.first).1, header.csrcLength]
  blockValid := by
    unfold ExtensionBlock
    rw [if_pos (extended_first header.first).2.1]
    exact ⟨[0xBE, 0xDE], padded data, (data.length + 3) / 4, rfl, padded_length data,
      newWords_fit fits, rfl⟩

variable (header : RtpHeader) (payload : Bytes)

theorem bytes_split :
    header.bytes = header.first :: (header.fixed ++ header.csrc ++ header.block) := by
  have split := header_split header []
  rw [List.append_nil, List.append_nil] at split
  exact split

theorem getCsrcCount_header :
    getCsrcCount (header.bytes ++ payload) = .ok (header.first &&& CC_MASK).toNat := rfl

theorem getExtensionLength_header :
    getExtensionLength (header.bytes ++ payload) = .ok header.block.length := by
  rw [header_split]
  exact extensionLength_of_block payload (fixed_length header) header.csrcLength header.blockValid

theorem offset_header : (header.first &&& CC_MASK).toNat * 4 + RTP_HEADER_LEN =
    (header.first :: header.fixed ++ header.csrc).length := by
  rw [← header.csrcLength, List.length_append, List.length_cons, fixed_length]
  exact Nat.add_comm _ _

theorem sliceTo_header :
    sliceTo (header.bytes ++ payload) ((header.first &&& CC_MASK).toNat * 4 + RTP_HEADER_LEN) =
      .ok (header.first :: header.fixed ++ header.csrc) := by
  rw [header_split, offset_header, List.append_assoc]
  exact sliceTo_append _ _

theorem end_header : (header.first &&& CC_MASK).toNat * 4 + RTP_HEADER_LEN + header.block.length =
    header.bytes.length := by
  rw [header_length, header.csrcLength]

/-- The new extension takes the place of the old one. -/
theorem setExtension_header {data : Bytes} (fits : data.length ≤ MAX_EXTENSION_DATA) :
    setExtension (header.bytes ++ payload) data =
      .ok ((header.extended data fits).bytes ++ payload) := by
  have needed : checkedSub (header.bytes ++ payload).length header.block.length =
      .ok ((header.bytes ++ payload).length - header.block.length) := by
    refine if_pos ?_
    rw [List.length_append, header_length]
    omega
  unfold setExtension
  rw [getCsrcCount_header, ok_bind, getExtensionLength_header, ok_bind, needed, ok_bind,
    sliceTo_header, ok_bind, end_header, sliceFrom_append, ok_bind, List.cons_append,
    appendExtension_eq fits]
  rw [header_split (header.extended data fits) payload]
  rfl

/-- The old extension stays before the new one. -/
theorem setExtensionBytesmut_header {data : Bytes} (fits : data.length ≤ MAX_EXTENSION_DATA) :
    setExtensionBytesmut (header.bytes ++ payload) data =
      .ok ((header.first ||| EXTENSION_BIT) ::
        (header.fixed ++ header.csrc ++ header.block ++ newBlock data ++ payload)) := by
  unfold setExtensionBytesmut
  rw [getCsrcCount_header, ok_bind, getExtensionLength_header, ok_bind, end_header,
    sliceFrom_append, ok_bind, sliceTo_append, ok_bind, bytes_split header,
    appendExtension_eq fits]

theorem getExtension_header {block start : Bytes} (four : start.length = 4)
    (parts : header.block = start ++ block) :
    getExtension (header.bytes ++ payload) = .ok (some block) := by
  have some_length : header.block.length ≠ 0 := by
    rw [parts, List.length_append, four]
    omega
  have before : (header.first :: header.fixed ++ header.csrc ++ start).length =
      (header.first &&& CC_MASK).toNat * 4 + RTP_HEADER_LEN + 4 := by
    rw [List.length_append, ← offset_header, four]
  have own : header.bytes = header.first :: header.fixed ++ header.csrc ++ start ++ block := by
    rw [bytes_split header, parts, ← List.append_assoc]
    rfl
  unfold getExtension
  simp only [getExtensionLength_header, ok_bind, getCsrcCount_header, if_neg some_length,
    end_header, sliceTo_append]
  rw [← before, own, sliceFrom_append]
  rfl

theorem csrcList_header : csrcList (header.bytes ++ payload) = .ok header.csrc := by
  have drop : (header.first :: header.fixed ++ header.csrc).drop RTP_HEADER_LEN = header.csrc :=
    List.drop_left' (by rw [List.length_cons, fixed_length]; rfl)
  unfold csrcList
  rw [getCsrcCount_header, ok_bind, sliceTo_header, ok_bind, drop]
  rfl

end Headers

section Rewriting

/-- What is left of a packet and what is new in it. -/
structure Rewritten (packet data result : Bytes) : Prop where
  extension : getExtension result = .ok (some (padded data))
  payload : getPayload result = getPayload packet
  csrc : csrcList result = csrcList packet
  ssrc : getSsrc result = getSsrc packet
  sequence : getSequence result = getSequence packet
  timestamp : getTimestamp result = getTimestamp packet
  marker : hasMarker result = hasMarker packet
  payloadType : getPayloadType result = getPayloadType packet

/-- The three ways agree, the result is the packet with the data as its extension, and a second
    extension takes the place of the first. -/
structure RewritesAlike (packet data second : Bytes) : Prop where
  pooled : setExtensionPooled packet data = setExtension packet data
  inPlace : setExtensionBytesmut packet data = setExtension packet data
  rewritten : ∃ result, setExtension packet data = .ok result ∧ Rewritten packet data result ∧
    setExtension result second = setExtension packet second ∧
    setExtensionPooled result second = setExtensionPooled packet second

theorem rewritten_header (header : RtpHeader) (payload : Bytes) {data : Bytes}
    (fits : data.length ≤ MAX_EXTENSION_DATA) :
    Rewritten (header.bytes ++ payload) data ((header.extended data fits).bytes ++ payload) where
  extension := @getExtension_header (header.extended data fits) payload (padded data)
    ([0xBE, 0xDE] ++ bytes16 ((data.length + 3) / 4)) rfl rfl
  payload := by rw [getPayload_header, getPayload_header]
  csrc := by rw [csrcList_header, csrcList_header]; rfl
  ssrc := by rw [getSsrc_header, getSsrc_header]; rfl
  sequence := by rw [getSequence_header, getSequence_header]; rfl
  timestamp := by rw [getTimestamp_header, getTimestamp_header]; rfl
  marker := rfl
  payloadType := rfl

theorem extended_again (header : RtpHeader) {data second : Bytes}
    (fits : data.length ≤ MAX_EXTENSION_DATA) (secondFits : second.length ≤ MAX_EXTENSION_DATA) :
    ((header.extended data fits).extended second secondFits).bytes =
      (header.extended second secondFits).bytes := by
  unfold RtpHeader.bytes RtpHeader.extended
  simp only [(extended_first header.first).2.2]

theorem block_empty_iff (header : RtpHeader) :
    header.block = [] ↔ ¬ header.first &&& EXTENSION_BIT = EXTENSION_BIT := by
  have valid := header.blockValid
  unfold ExtensionBlock at valid
  split at valid
  · rename_i set
    obtain ⟨profile, data, words, profileLength, _, _, parts⟩ := valid
    refine iff_of_false (fun empty => ?_) (fun clear => clear set)
    rw [parts] at empty
    have length := congrArg List.length empty
    simp [bytes16_length, profileLength] at length
  · rename_i clear
    exact iff_of_true valid clear

/-- The third way differs exactly by the old block. -/
theorem inPlace_header_iff (header : RtpHeader) (payload : Bytes) {data : Bytes}
    (fits : data.length ≤ MAX_EXTENSION_DATA) :
    setExtensionBytesmut (header.bytes ++ payload) data =
        setExtension (header.bytes ++ payload) data ↔ header.block = [] := by
  rw [setExtensionBytesmut_header header payload fits, setExtension_header header payload fits,
    header_split (header.extended data fits) payload, Except.ok.injEq]
  constructor
  · intro same
    have lengths := congrArg List.length same
    simp only [RtpHeader.extended, RtpHeader.fixed, List.length_cons, List.length_append] at lengths
    exact List.length_eq_zero_iff.mp (by omega)
  · intro empty
    rw [empty, List.append_nil]
    rfl

theorem rewrites_alike_iff {packet data second : Bytes} (valid : WellFormed packet)
    (fits : data.length ≤ MAX_EXTENSION_DATA) (secondFits : second.length ≤ MAX_EXTENSION_DATA) :
    RewritesAlike packet data second ↔ getExtensionBit packet = .ok false := by
  obtain ⟨header, payload, rfl⟩ := (wellFormed_iff_header packet).mp valid
  have bit : getExtensionBit (header.bytes ++ payload) = .ok false ↔ header.block = [] := by
    have read : getExtensionBit (header.bytes ++ payload) =
        .ok (header.first &&& EXTENSION_BIT == EXTENSION_BIT) := rfl
    rw [read, Except.ok.injEq, block_empty_iff, beq_eq_false_iff_ne]
  rw [bit, ← inPlace_header_iff header payload fits]
  constructor
  · intro alike
    exact alike.inPlace
  · intro same
    refine ⟨rfl, same, _, setExtension_header header payload fits,
      rewritten_header header payload fits, ?_, ?_⟩
    · rw [setExtension_header _ payload secondFits, setExtension_header header payload secondFits,
        extended_again]
    · show setExtension _ _ = setExtension _ _
      rw [setExtension_header _ payload secondFits, setExtension_header header payload secondFits,
        extended_again]

/-- A packet with one source that contributed and a payload of three bytes, and the same packet
    with an extension of one word. -/
def plainPacket : Bytes := [0x81, 96, 0, 7, 0, 0, 0, 1, 0, 0, 0, 9, 1, 2, 3, 4, 7, 8, 9]

def taggedPacket : Bytes :=
  [0x91, 96, 0, 7, 0, 0, 0, 1, 0, 0, 0, 9, 1, 2, 3, 4, 0xBE, 0xDE, 0, 1, 5, 5, 5, 5, 7, 8, 9]

theorem plainPacket_wellFormed : WellFormed plainPacket :=
  (wellFormed_iff_offset plainPacket).mpr ⟨16, rfl, by decide⟩

theorem taggedPacket_wellFormed : WellFormed taggedPacket :=
  (wellFormed_iff_offset taggedPacket).mpr ⟨24, rfl, by decide⟩

theorem rewrites_alike_plain : RewritesAlike plainPacket [1, 2, 3] [6] ↔
    getExtensionBit plainPacket = .ok false :=
  rewrites_alike_iff plainPacket_wellFormed (by simp [MAX_EXTENSION_DATA])
    (by simp [MAX_EXTENSION_DATA])

theorem old_extension_stays :
    ¬ ∀ packet data second : Bytes, WellFormed packet → data.length ≤ MAX_EXTENSION_DATA →
      second.length ≤ MAX_EXTENSION_DATA → RewritesAlike packet data second := by
  intro claimed
  have alike := claimed taggedPacket [1, 2, 3] [6] taggedPacket_wellFormed
    (by simp [MAX_EXTENSION_DATA]) (by simp [MAX_EXTENSION_DATA])
  have inPlace : setExtensionBytesmut taggedPacket [1, 2, 3] =
      .ok [0x91, 96, 0, 7, 0, 0, 0, 1, 0, 0, 0, 9, 1, 2, 3, 4, 0xBE, 0xDE, 0, 1, 5, 5, 5, 5,
        0xBE, 0xDE, 0, 1, 0, 1, 2, 3, 7, 8, 9] := by decide +kernel
  have rebuilt : setExtension taggedPacket [1, 2, 3] =
      .ok [0x91, 96, 0, 7, 0, 0, 0, 1, 0, 0, 0, 9, 1, 2, 3, 4,
        0xBE, 0xDE, 0, 1, 0, 1, 2, 3, 7, 8, 9] := by decide +kernel
  have same := alike.inPlace
  rw [inPlace, rebuilt] at same
  exact absurd same (by decide)

end Rewriting

end RtpPacket
