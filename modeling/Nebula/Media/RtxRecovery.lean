import Nebula.Media.VideoReceiver

/- Retransmissions from end to end: the packet that a sender makes of an old one, and what the
   receiver makes of it. -/
namespace VideoReceiver
open ByteStrings RtpPacket

section Resent

def packetToRtx (packet : Bytes) (ssrc seq : Nat) : Outcome Bytes := do
  let payload ← getPayload packet
  let offset ← payloadOffset packet
  let header ← sliceTo packet offset
  let header ← setSequence header seq
  let header ← setPacketSsrc header ssrc
  let originalSeq ← getSequence packet
  pure (header ++ bytes16 originalSeq ++ payload)

/-- The packet that goes out for a NACK. -/
def resent (typeNumber : UInt8) (packet : Bytes) (ssrc : UInt32) (seq : UInt16) : Outcome Bytes := do
  let rtx ← packetToRtx packet ssrc.toNat seq.toNat
  setPayloadType rtx (typeNumber + 1)

/-- The packet that the receiver goes on with when it gets a retransmission. -/
def recovered (unmarshal : Bytes → Option Rtp) (quotient : Nat → Nat → Nat)
    (receiver : VideoStreamReceiver) (packet : Bytes) (ssrc : UInt32) (seq : UInt16)
    (readings : Readings) : Outcome (Option Bytes) := do
  let rtx ← resent receiver.typeNumber packet ssrc seq
  let after ← receiveRtpPacket unmarshal quotient receiver rtx readings
  pure (after.2.map Handled.packet)

theorem packetToRtx_header (header : RtpHeader) (payload : Bytes) (ssrc : UInt32) (seq : UInt16) :
    packetToRtx (header.bytes ++ payload) ssrc.toNat seq.toNat =
      .ok ({ header with sequence := seq, ssrc }.bytes ++
        (bytes16 header.sequence.toNat ++ payload)) := by
  have first := setSequence_header header [] seq
  have second := setPacketSsrc_header { header with sequence := seq } [] ssrc
  rw [List.append_nil, List.append_nil] at first second
  unfold packetToRtx
  rw [getPayload_header, ok_bind, payloadOffset_header, ok_bind, sliceTo_append, ok_bind, first,
    ok_bind, second, ok_bind, getSequence_header, ok_bind, pure_eq_ok, List.append_assoc]

theorem resent_header (typeNumber : UInt8) (header : RtpHeader) (payload : Bytes) (ssrc : UInt32)
    (seq : UInt16) :
    resent typeNumber (header.bytes ++ payload) ssrc seq =
      .ok ({ header with
        second := RtpHeader.typed header.second (typeNumber + 1), sequence := seq, ssrc }.bytes ++
          (bytes16 header.sequence.toNat ++ payload)) := by
  unfold resent
  rw [packetToRtx_header, ok_bind, setPayloadType_header]

end Resent

section Extensions

def ridOf (ext : Extension) : Option String :=
  if ext.id = 10 ∨ ext.id = 11 then fromUtf8 ext.payload else none

/-- The RID that the packet is taken to have. -/
def lastRid (extensions : List Extension) : String :=
  (extensions.filterMap ridOf).getLast?.getD ""

/-- The RIDs that the packet has as one that is not retransmitted. -/
def ownRids (extensions : List Extension) : List String :=
  (extensions.filter fun ext => ext.id == 10).filterMap ridOf

def Numbered (extensions : List Extension) : Prop :=
  ∀ ext ∈ extensions, ext.id = 3 → 2 ≤ ext.payload.length

theorem readU16_start (payload : Bytes) :
    readU16 payload 0 = if 2 ≤ payload.length then
      .ok (word16 (payload.getD 0 0) (payload.getD 1 0)) else .error .panic := by
  cases payload with
  | nil => rfl
  | cons first rest =>
    cases rest with
    | nil => rfl
    | cons second rest => simp [readU16, byteAt]

theorem readExtensions_eq (ssrc : UInt32) (extensions : List Extension) (rid : String)
    (ridSsrcs : IndexMap String UInt32) (numbered : Numbered extensions) :
    readExtensions ssrc extensions (rid, ridSsrcs) =
      .ok ((extensions.filterMap ridOf).getLast?.getD rid,
        (ownRids extensions).foldl (fun table own => table.insert own ssrc) ridSsrcs) := by
  induction extensions generalizing rid ridSsrcs with
  | nil => rfl
  | cons ext rest ih =>
    have later : Numbered rest := fun other member => numbered other (List.mem_cons_of_mem _ member)
    unfold readExtensions
    by_cases named : ext.id = 10 ∨ ext.id = 11
    · rw [if_pos named]
      cases text : fromUtf8 ext.payload with
      | none =>
        have unread : ridOf ext = none := by rw [ridOf, if_pos named, text]
        rw [ih rid ridSsrcs later]
        by_cases own : ext.id = 10 <;> simp [ownRids, own, unread]
      | some found =>
        have readRid : ridOf ext = some found := by rw [ridOf, if_pos named, text]
        simp only
        rw [ih found _ later]
        by_cases own : ext.id = 10 <;>
          simp [ownRids, own, readRid, List.getLast?_cons]
    · have unread : ridOf ext = none := by rw [ridOf, if_neg named]
      have notOwn : ¬ ext.id = 10 := fun own => named (Or.inl own)
      rw [if_neg named, ih rid ridSsrcs later]
      by_cases counted : ext.id = 3
      · have long := numbered ext List.mem_cons_self counted
        rw [if_pos counted, readU16_start, if_pos long, ok_bind]
        simp [ownRids, notOwn, unread]
      · rw [if_neg counted]
        simp [ownRids, notOwn, unread]

theorem readExtensions_panics (ssrc : UInt32) (extensions : List Extension)
    (found : String × IndexMap String UInt32) (short : ¬ Numbered extensions) :
    readExtensions ssrc extensions found = .error .panic := by
  induction extensions generalizing found with
  | nil => exact absurd (fun ext member => by cases member) short
  | cons ext rest ih =>
    unfold readExtensions
    by_cases later : Numbered rest
    · have counted : ext.id = 3 ∧ ¬ 2 ≤ ext.payload.length := by
        by_contra fine
        refine short fun other member is => ?_
        rcases List.mem_cons.mp member with rfl | member
        · by_contra lacks
          exact fine ⟨is, lacks⟩
        · exact later other member is
      have unnamed : ¬ (ext.id = 10 ∨ ext.id = 11) := by omega
      rw [if_neg unnamed, if_pos counted.1, readU16_start, if_neg counted.2]
      rfl
    · split
      · split
        · exact ih _ later
        · exact ih _ later
      · split
        · rw [ih found later, readU16_start]
          split
          · rfl
          · rfl
        · exact ih _ later

theorem lookup_own (ssrc : UInt32) (own : List String) (ridSsrcs : IndexMap String UInt32)
    (rid : String) :
    (own.foldl (fun table name => table.insert name ssrc) ridSsrcs).entries.lookup rid =
      if rid ∈ own then some ssrc else ridSsrcs.entries.lookup rid := by
  induction own generalizing ridSsrcs with
  | nil => simp
  | cons name rest ih =>
    rw [List.foldl_cons, ih, IndexMap.lookup_insert]
    by_cases later : rid ∈ rest
    · simp [later]
    · by_cases same : rid = name <;> simp [later, same]

end Extensions

section Recovery

/-- The packets with this header are read as the format has them; their extensions do not depend
    on the fields that a retransmission changes. -/
structure ReadAs (unmarshal : Bytes → Option Rtp) (header : RtpHeader)
    (extensions : List Extension) : Prop where
  unpadded : header.first &&& 0x20 = 0
  read : ∀ (second : UInt8) (sequence : UInt16) (ssrc : UInt32) (payload : Bytes),
    unmarshal ({ header with second, sequence, ssrc }.bytes ++ payload) =
      some ⟨ssrc, sequence, second &&& PT_MASK, extensions, payload⟩

/-- When the receiver finds the stream of the packet again: by the RID that the packet ends with,
    where the retransmission does not take the RID for its own stream first. -/
structure Restorable (receiver : VideoStreamReceiver) (header : RtpHeader)
    (extensions : List Extension) : Prop where
  nextType : header.payloadType ≠ 127
  numbered : Numbered extensions
  notOwn : lastRid extensions ∉ ownRids extensions
  known : receiver.ridSsrcs.entries.lookup (lastRid extensions) = some header.ssrc

theorem next_type : ∀ byte : UInt8,
    ((byte &&& PT_MASK) + 1 &&& PT_MASK = (byte &&& PT_MASK) + 1 ↔ byte &&& PT_MASK ≠ 127) ∧
      (byte &&& PT_MASK) + 1 &&& PT_MASK ≠ byte &&& PT_MASK :=
  forall_byte (by decide +kernel)

variable {unmarshal : Bytes → Option Rtp} {header : RtpHeader} {extensions : List Extension}

/-- The rewriting gives the packet back, but for the stream. -/
theorem recoverRtx_header (reads : ReadAs unmarshal header extensions) (payload : Bytes)
    (other : UInt8) (seq : UInt16) (ssrc : UInt32) (original : Option UInt32) :
    recoverRtx unmarshal header.payloadType original
        ({ header with
          second := RtpHeader.typed header.second other, sequence := seq, ssrc }.bytes ++
            (bytes16 header.sequence.toNat ++ payload))
        (bytes16 header.sequence.toNat ++ payload) =
      .ok (some ({ header with ssrc := original.getD ssrc }.bytes ++ payload,
        ⟨original.getD ssrc, header.sequence, header.payloadType, extensions, payload⟩)) := by
  have number : readU16 (bytes16 header.sequence.toNat ++ payload) 0 =
      .ok header.sequence.toNat := by
    have fits := header.sequence.toNat_lt
    have start := readU16_bytes16 [] payload header.sequence.toNat
    rwa [Nat.mod_eq_of_lt (by omega)] at start
  have back := typed_back header.second other
  have kept := reads.read header.second header.sequence
  unfold recoverRtx
  rw [number, ok_bind, setSequence_header, ok_bind, setPayloadType_header, ok_bind,
    payloadOffset_header, ok_bind]
  simp only [RtpHeader.payloadType, back, List.take_left, List.drop_left' (bytes16_length _), kept]
  cases original with
  | none => rfl
  | some own =>
    simp only [setPacketSsrc_header, ok_bind, kept]
    rfl

variable {quotient : Nat → Nat → Nat} {receiver : VideoStreamReceiver} {readings : Readings}

/-- What goes on to the destinations, where the packet is not refused. -/
theorem receive_packet (room : receiver.hasCodec = false) (unmuted : receiver.muted = false)
    {packet : Bytes} {rtp : Rtp} (read : unmarshal packet = some rtp)
    {found : String × IndexMap String UInt32}
    (taken : readExtensions rtp.ssrc rtp.extensions ("", receiver.ridSsrcs) = .ok found) :
    (do
      let after ← receiveRtpPacket unmarshal quotient receiver packet readings
      pure (after.2.map Handled.packet) : Outcome (Option Bytes)) =
    (do
      let original ← originalPacket unmarshal receiver.typeNumber
        (found.2.entries.lookup found.1) packet rtp
      pure (original.map Prod.fst)) := by
  unfold receiveRtpPacket
  simp only [room, unmuted, Bool.false_eq_true, or_self, if_false, read, taken, ok_bind]
  cases originalPacket unmarshal receiver.typeNumber (found.2.entries.lookup found.1) packet rtp with
  | error fault => rfl
  | ok original =>
    cases original with
    | none => rfl
    | some given => rfl

theorem header_bytes_inj {payload : Bytes} {ssrc : UInt32}
    (same : { header with ssrc }.bytes ++ payload = header.bytes ++ payload) :
    ssrc = header.ssrc := by
  have left := getSsrc_header { header with ssrc } payload
  rw [same, getSsrc_header] at left
  exact (UInt32.toNat_inj.mp (Except.ok.inj left)).symm

/-- A retransmission gives the packet back, its stream included, exactly where the receiver knows
    the stream by a RID that the packet has for retransmissions. -/
theorem recovered_iff (reads : ReadAs unmarshal header extensions) {payload : Bytes}
    (filled : payload ≠ []) (own : header.payloadType = receiver.typeNumber)
    (room : receiver.hasCodec = false) (unmuted : receiver.muted = false)
    {ssrc : UInt32} (another : ssrc ≠ header.ssrc) (seq : UInt16) :
    recovered unmarshal quotient receiver (header.bytes ++ payload) ssrc seq readings =
        .ok (some (header.bytes ++ payload)) ↔
      Restorable receiver header extensions := by
  have types := next_type header.second
  have rtxType := typed_type header.second (receiver.typeNumber + 1)
  have rtx := reads.read (RtpHeader.typed header.second (receiver.typeNumber + 1)) seq ssrc
    (bytes16 header.sequence.toNat ++ payload)
  have long : 2 < (bytes16 header.sequence.toNat ++ payload).length := by
    have some_byte := List.length_pos_of_ne_nil filled
    rw [List.length_append, bytes16_length]
    omega
  unfold recovered
  rw [resent_header, ok_bind]
  by_cases numbered : Numbered extensions
  · have taken := readExtensions_eq ssrc extensions "" receiver.ridSsrcs numbered
    have known := lookup_own ssrc (ownRids extensions) receiver.ridSsrcs (lastRid extensions)
    have type_moves : RtpHeader.typed header.second (receiver.typeNumber + 1) &&& PT_MASK ≠
        receiver.typeNumber := by
      rw [rtxType, ← own]
      exact types.2
    rw [receive_packet room unmuted rtx taken]
    unfold originalPacket
    rw [if_pos type_moves]
    by_cases next : header.payloadType = 127
    · have unknown : ¬ RtpHeader.typed header.second (receiver.typeNumber + 1) &&& PT_MASK =
          receiver.typeNumber + 1 := by
        rw [rtxType, ← own]
        exact fun same => types.1.mp same next
      rw [if_neg fun both => unknown both.1]
      constructor
      · intro given
        cases given
      · exact fun restorable => absurd next restorable.nextType
    · have announced : RtpHeader.typed header.second (receiver.typeNumber + 1) &&& PT_MASK =
          receiver.typeNumber + 1 := by
        rw [rtxType, ← own]
        exact types.1.mpr next
      have whole := recoverRtx_header reads payload (receiver.typeNumber + 1) seq ssrc
        (if lastRid extensions ∈ ownRids extensions then some ssrc
          else receiver.ridSsrcs.entries.lookup (lastRid extensions))
      rw [own] at whole
      rw [if_pos ⟨announced, long⟩]
      change (recoverRtx unmarshal receiver.typeNumber
        (List.lookup (lastRid extensions) _) _ _ >>= _) = _ ↔ _
      rw [known, whole]
      constructor
      · intro given
        have same := header_bytes_inj (Option.some.inj (Except.ok.inj given))
        by_cases taking : lastRid extensions ∈ ownRids extensions
        · rw [if_pos taking] at same
          exact absurd same another
        · rw [if_neg taking] at same
          cases held : receiver.ridSsrcs.entries.lookup (lastRid extensions) with
          | none =>
            rw [held] at same
            exact absurd same another
          | some kept =>
            rw [held] at same
            exact ⟨next, numbered, taking, held.trans (congrArg some same)⟩
      · intro restorable
        rw [if_neg restorable.notOwn, restorable.known]
        rfl
  · have panics := readExtensions_panics ssrc extensions ("", receiver.ridSsrcs) numbered
    constructor
    · intro given
      unfold receiveRtpPacket at given
      simp only [room, unmuted, Bool.false_eq_true, or_self, if_false, rtx, panics,
        error_bind] at given
      cases given
    · exact fun restorable => absurd restorable.numbered numbered

end Recovery

section Streams

def oneByteExtensions : Nat → Bytes → List Extension
  | 0, _ => []
  | _ + 1, [] => []
  | fuel + 1, byte :: rest =>
    if byte = 0 then oneByteExtensions fuel rest
    else if byte.toNat / 16 = 15 then []
    else ⟨byte.toNat / 16, rest.take (byte.toNat % 16 + 1)⟩ ::
      oneByteExtensions fuel (rest.drop (byte.toNat % 16 + 1))

/-- A reader for packets without padding whose extensions have headers of one byte. -/
def readOneByte (packet : Bytes) : Option Rtp :=
  Except.toOption do
    let second ← byteAt packet MARKER_PT_OFFSET
    let sequence ← getSequence packet
    let ssrc ← getSsrc packet
    let count ← getCsrcCount packet
    let offset ← payloadOffset packet
    let block := (packet.take offset).drop (count * 4 + RTP_HEADER_LEN)
    pure ⟨UInt32.ofNat ssrc, UInt16.ofNat sequence, second &&& PT_MASK,
      oneByteExtensions block.length (block.drop 4), packet.drop offset⟩

theorem readOneByte_header (header : RtpHeader) (payload : Bytes) :
    readOneByte (header.bytes ++ payload) = some ⟨header.ssrc, header.sequence, header.payloadType,
      oneByteExtensions header.block.length (header.block.drop 4), payload⟩ := by
  have second : byteAt (header.bytes ++ payload) MARKER_PT_OFFSET = .ok header.second := rfl
  have count : getCsrcCount (header.bytes ++ payload) =
      .ok (header.first &&& CC_MASK).toNat := rfl
  have block : header.bytes.drop ((header.first &&& CC_MASK).toNat * 4 + RTP_HEADER_LEN) =
      header.block := by
    have split := header_split header []
    have before : (header.first :: header.fixed ++ header.csrc).length =
        (header.first &&& CC_MASK).toNat * 4 + RTP_HEADER_LEN := by
      rw [List.length_append, List.length_cons, fixed_length, header.csrcLength, RTP_HEADER_LEN]
      omega
    rw [List.append_nil, List.append_nil] at split
    rw [split]
    exact List.drop_left' before
  unfold readOneByte
  rw [second, ok_bind, getSequence_header, ok_bind, getSsrc_header, ok_bind, count, ok_bind,
    payloadOffset_header, ok_bind]
  simp only [List.take_left, List.drop_left, block, UInt32.ofNat_toNat, UInt16.ofNat_toNat]
  rfl

theorem readAs_oneByte (header : RtpHeader) (unpadded : header.first &&& 0x20 = 0) :
    ReadAs readOneByte header
      (oneByteExtensions header.block.length (header.block.drop 4)) where
  unpadded := unpadded
  read := fun second sequence ssrc payload =>
    readOneByte_header { header with second, sequence, ssrc } payload

/-- A packet without extensions, and one with a RID of one letter. -/
def plainHeader : RtpHeader where
  first := 0x80
  second := 96
  sequence := 5
  timestamp := 0
  ssrc := 17
  csrc := []
  block := []
  csrcLength := rfl
  blockValid := rfl

def ridHeader (id letter : UInt8) (ssrc : UInt32) : RtpHeader where
  first := 0x90
  second := 96
  sequence := 5
  timestamp := 0
  ssrc := ssrc
  csrc := []
  block := [0xbe, 0xde, 0, 1, id * 16, letter, 0, 0]
  csrcLength := rfl
  blockValid := ⟨[0xbe, 0xde], [id * 16, letter, 0, 0], 1, rfl, rfl, by decide, rfl⟩

/-- A stream is seen for the first time, then its packet comes again on stream 9. -/
def replayed (header : RtpHeader) (payload : Bytes) : Option Bytes := do
  let seen ← (receiveRtpPacket readOneByte (fun bits _ => bits)
    (VideoStreamReceiver.new header.payloadType false) (header.bytes ++ payload)
    ⟨0, 0, 0, 0, 0⟩).toOption
  let _ ← seen.2
  let again ← (recovered readOneByte (fun bits _ => bits) seen.1 (header.bytes ++ payload) 9 7
    ⟨0, 0, 0, 0, 0⟩).toOption
  again

/-- Without a RID the stream is not looked for at all; with the RID of id 10 the retransmission's
    own stream is found. -/
theorem stream_not_restored :
    (ReadAs readOneByte plainHeader [] ∧
      replayed plainHeader [16, 1, 2] =
        some ({ plainHeader with ssrc := 9 }.bytes ++ [16, 1, 2]) ∧
      { plainHeader with ssrc := 9 }.bytes ++ [16, 1, 2] ≠ plainHeader.bytes ++ [16, 1, 2]) ∧
    ReadAs readOneByte (ridHeader 10 108 17) [⟨10, [108]⟩] ∧
      replayed (ridHeader 10 108 17) [16, 1, 2] =
        some ({ ridHeader 10 108 17 with ssrc := 9 }.bytes ++ [16, 1, 2]) ∧
      { ridHeader 10 108 17 with ssrc := 9 }.bytes ++ [16, 1, 2] ≠ (ridHeader 10 108 17).bytes ++ [16, 1, 2] :=
  ⟨⟨readAs_oneByte plainHeader (by decide), by decide +kernel, by decide +kernel⟩,
    readAs_oneByte (ridHeader 10 108 17) (by decide), by decide +kernel, by decide +kernel⟩

/-- A receiver that has seen the stream with its RID gets the packet back that has the RID of
    retransmissions. -/
theorem stream_restored :
    ∃ receiver, ((receiveRtpPacket readOneByte (fun bits _ => bits)
        (VideoStreamReceiver.new 96 false) ((ridHeader 10 108 17).bytes ++ [16, 1, 2])
        ⟨0, 0, 0, 0, 0⟩).toOption.map Prod.fst) = some receiver ∧
      recovered readOneByte (fun bits _ => bits) receiver ((ridHeader 11 108 17).bytes ++ [16, 1, 2]) 9 7
        ⟨0, 0, 0, 0, 0⟩ = .ok (some ((ridHeader 11 108 17).bytes ++ [16, 1, 2])) := by
  have seen : ((receiveRtpPacket readOneByte (fun bits _ => bits)
      (VideoStreamReceiver.new 96 false) ((ridHeader 10 108 17).bytes ++ [16, 1, 2])
      ⟨0, 0, 0, 0, 0⟩).toOption.map Prod.fst).all (fun receiver =>
        decide (receiver.typeNumber = 96 ∧ receiver.hasCodec = false ∧ receiver.muted = false ∧
          receiver.ridSsrcs.entries = [("l", 17)])) = true ∧
      ((receiveRtpPacket readOneByte (fun bits _ => bits)
        (VideoStreamReceiver.new 96 false) ((ridHeader 10 108 17).bytes ++ [16, 1, 2])
        ⟨0, 0, 0, 0, 0⟩).toOption.map Prod.fst).isSome = true := by
    decide +kernel
  obtain ⟨receiver, held⟩ := Option.isSome_iff_exists.mp seen.2
  have state := of_decide_eq_true ((Option.all_eq_true _ _).mp seen.1 receiver held)
  refine ⟨receiver, held, (recovered_iff (readAs_oneByte (ridHeader 11 108 17) (by decide)) (by decide)
    ?_ state.2.1 state.2.2.1 (by decide) 7).mpr ?_⟩
  · rw [state.1]
    decide
  · refine ⟨by decide, by unfold Numbered; decide, by decide +kernel, ?_⟩
    rw [state.2.2.2]
    decide +kernel

end Streams

end VideoReceiver
