import Mathlib.Logic.Function.Iterate
import Nebula.Media.SrtpAuth

/- Decryption undoes encryption. The header stays in the clear, so both sides
   read the same sequence number, SSRC and payload offset; the SRTCP trailer
   carries the 31-bit index the counter block was built from. -/
namespace SrtpRoundTrip
open ByteStrings Srtp SrtpAuth

theorem decryptRtp_encryptRtp (prim : Primitives) {cs : CryptoState} (short : cs.tagLen ≤ 20)
    (roc : Nat) {packet : Bytes} (formed : RtpPacket.WellFormed packet) :
    ∃ sealed, encryptRtp prim cs roc packet = .ok sealed ∧
      decryptRtp prim cs roc sealed = .ok packet := by
  have long := RtpPacket.wellFormed_length formed
  obtain ⟨seq, numbered, _⟩ := RtpPacket.getSequence_ok long
  obtain ⟨ssrc, sourced⟩ := RtpPacket.getSsrc_ok long
  obtain ⟨offset, measured, inside⟩ := RtpPacket.wellFormed_payloadOffset formed
  obtain ⟨data, tag, layout, tagged, run⟩ :=
    encryptRtp_layout prim short roc numbered sourced measured inside
  refine ⟨data ++ tag, run, ?_⟩
  have header : data.take offset = packet.take offset := by
    rw [layout, List.take_append_of_le_length (by simp; omega), List.take_take, Nat.min_self]
  have payload : data.drop offset =
      xorStream (prim.keystream cs.key (generateCounter cs.salt ssrc seq roc))
        (packet.drop offset) := by
    rw [layout, List.drop_append_of_le_length (by simp; omega)]
    simp
  have dataLen : data.length = packet.length := by
    rw [layout]
    simp [xorStream_length]
    omega
  have clear : (data ++ tag).take offset = packet.take offset := by
    rw [List.take_append_of_le_length (by omega), header]
  have covers := RtpPacket.payloadOffset_ge measured
  have seqSealed := (RtpPacket.getSequence_agree clear covers).trans numbered
  have ssrcSealed := (RtpPacket.getSsrc_agree clear covers).trans sourced
  have offsetData := RtpPacket.payloadOffset_agree measured header.symm
  have cut : checkedSub (data ++ tag).length cs.tagLen = .ok data.length := by
    rw [← generateAuthTag_length tagged, checkedSub_append]
  have rest : sliceFrom data offset = .ok (data.drop offset) := if_pos (by omega)
  unfold decryptRtp
  simp only [seqSealed, ssrcSealed, auth_of_tag prim tagged, cut, sliceTo_append, offsetData, rest,
    ok_bind, payload, xorStream_involutive, header]
  simp

/- The trailer of an index below 2^31 has the E bit set and gives the index back. -/
theorem trailer_word {index : Nat} (small : index ≤ MAX_SRTCP_INDEX) :
    (index % 4294967296) ||| (1 <<< 31) = index + 2147483648 := by
  simp only [MAX_SRTCP_INDEX] at small
  rw [Nat.mod_eq_of_lt (by omega)]
  have disjoint := Nat.two_pow_add_eq_or_of_lt (i := 31) (b := index) (by omega) 1
  rw [Nat.or_comm]
  simpa [Nat.add_comm] using disjoint.symm

theorem trailer_index {index : Nat} (small : index ≤ MAX_SRTCP_INDEX) :
    (index + 2147483648) % 4294967296 &&& 0x7FFFFFFF = index := by
  simp only [MAX_SRTCP_INDEX] at small
  have mask := Nat.and_two_pow_sub_one_eq_mod ((index + 2147483648) % 4294967296) 31
  simp only [Nat.reducePow, Nat.reduceSub] at mask
  rw [mask]
  omega

theorem trailer_eBit (data : Bytes) {index : Nat} (small : index ≤ MAX_SRTCP_INDEX) :
    eBit (data ++ bytes32 (index + 2147483648)) = true := by
  simp only [MAX_SRTCP_INDEX] at small
  have first : (data ++ bytes32 (index + 2147483648)).getD
      ((data ++ bytes32 (index + 2147483648)).length - 4) 0 =
      UInt8.ofNat ((index + 2147483648) / 65536 / 256) := by
    simp [bytes32, bytes16, List.getD]
  have high : 128 ≤ (UInt8.ofNat ((index + 2147483648) / 65536 / 256)).toNat := by
    rw [UInt8.toNat_ofNat']
    omega
  simp only [eBit, first, bne_iff_ne, ne_eq]
  intro zero
  have shifted := congrArg UInt8.toNat zero
  rw [UInt8.toNat_shiftRight] at shifted
  simp [Nat.shiftRight_eq_div_pow] at shifted
  omega

theorem encryptRtcp_ok (prim : Primitives) {cs : CryptoState} (short : cs.tagLen ≤ 20)
    {packet : Bytes} {index ssrc : Nat} (small : index ≤ MAX_SRTCP_INDEX)
    (sourced : RtcpPacket.getSsrc packet = .ok ssrc) (long : 8 ≤ packet.length) :
    ∃ data tag, data = packet.take 8 ++
        xorStream (prim.keystream cs.rtcpKey (generateCounter cs.rtcpSalt ssrc (index &&& 0xFFFF)
          ((index >>> 16) % 4294967296))) (packet.drop 8) ∧
      generateAuthTag prim cs none (data ++ bytes32 (index + 2147483648)) = .ok tag ∧
      encryptRtcp prim cs packet index =
        .ok (data ++ bytes32 (index + 2147483648) ++ tag) := by
  obtain ⟨tag, tagged⟩ := generateAuthTag_ok prim short none (packet.take 8 ++
    xorStream (prim.keystream cs.rtcpKey (generateCounter cs.rtcpSalt ssrc (index &&& 0xFFFF)
      ((index >>> 16) % 4294967296))) (packet.drop 8) ++ bytes32 (index + 2147483648))
  refine ⟨_, tag, rfl, tagged, ?_⟩
  have offset : RtcpPacket.payloadOffset = 8 := rfl
  have rest : sliceFrom packet 8 = .ok (packet.drop 8) := if_pos long
  unfold encryptRtcp
  rw [sourced, trailer_word small, offset]
  simp only [rest, ok_bind, tagged]
  rfl

theorem rtcpSsrc_ok {packet : Bytes} (long : 8 ≤ packet.length) :
    ∃ ssrc, RtcpPacket.getSsrc packet = .ok ssrc := by
  unfold RtcpPacket.getSsrc readU32
  rw [readU16_eq_ok (by omega), readU16_eq_ok (by omega)]
  exact ⟨_, rfl⟩

theorem decryptRtcp_encryptRtcp (prim : Primitives) {cs : CryptoState} (short : cs.tagLen ≤ 20)
    {packet : Bytes} {index : Nat} (small : index ≤ MAX_SRTCP_INDEX) (long : 8 ≤ packet.length) :
    ∃ sealed, encryptRtcp prim cs packet index = .ok sealed ∧
      decryptRtcp prim cs sealed = .ok packet := by
  obtain ⟨ssrc, sourced⟩ := rtcpSsrc_ok long
  obtain ⟨data, tag, layout, tagged, run⟩ := encryptRtcp_ok prim short small sourced long
  refine ⟨_, run, ?_⟩
  have header : data.take 8 = packet.take 8 := by
    rw [layout, List.take_append_of_le_length (by simp; omega), List.take_take, Nat.min_self]
  have payload : data.drop 8 = xorStream (prim.keystream cs.rtcpKey (generateCounter cs.rtcpSalt
      ssrc (index &&& 0xFFFF) ((index >>> 16) % 4294967296))) (packet.drop 8) := by
    rw [layout, List.drop_append_of_le_length (by simp; omega)]
    simp
  have dataLen : data.length = packet.length := by
    rw [layout]
    simp [xorStream_length]
    omega
  have bodyLen : (data ++ bytes32 (index + 2147483648)).length = data.length + 4 := by
    simp [bytes32_length]
  have clear : (data ++ bytes32 (index + 2147483648) ++ tag).take 8 = packet.take 8 := by
    rw [List.append_assoc, List.take_append_of_le_length (by omega), header]
  have ssrcSealed : RtcpPacket.getSsrc (data ++ bytes32 (index + 2147483648) ++ tag) = .ok ssrc :=
    (readU32_agree clear (by omega)).trans sourced
  obtain ⟨untagged, tail, first⟩ :=
    trailer_reads (generateAuthTag_length tagged) (bodyLen ▸ Nat.le_add_left 4 data.length)
  have encrypted : ¬ ((data ++ bytes32 (index + 2147483648)).getD
      ((data ++ bytes32 (index + 2147483648)).length - 4) 0 >>> 7 == 0) = true := by
    simpa [eBit] using trailer_eBit data small
  have start : (data ++ bytes32 (index + 2147483648)).length - 4 = data.length := by omega
  have offset : RtcpPacket.payloadOffset = 8 := rfl
  have cut : sliceTo (data ++ bytes32 (index + 2147483648) ++ tag) data.length = .ok data := by
    rw [List.append_assoc, sliceTo_append]
  have rest : sliceFrom data 8 = .ok (data.drop 8) := if_pos (by omega)
  unfold decryptRtcp
  rw [untagged, ok_bind, tail, ok_bind, first, ok_bind, if_neg encrypted, start, offset]
  simp only [auth_of_tag prim tagged, ssrcSealed, readU32_bytes32, trailer_index small, cut, rest,
    ok_bind, payload, xorStream_involutive, header]
  simp

theorem nextRtcpIndex_bound (ctx : CryptoContext) :
    ctx.nextRtcpIndex.rtcpIndex ≤ MAX_SRTCP_INDEX := by
  unfold CryptoContext.nextRtcpIndex
  split
  · exact Nat.zero_le _
  · rename_i below
    exact Nat.le_of_not_lt below

/- Whatever number of RTCP packets was sent before, the index fits the trailer. -/
theorem rtcpIndex_run {ctx : CryptoContext} (started : ctx.rtcpIndex = 0) (sent : Nat) :
    (CryptoContext.nextRtcpIndex^[sent] ctx).rtcpIndex ≤ MAX_SRTCP_INDEX := by
  cases sent with
  | zero => exact Nat.le_trans (Nat.le_of_eq started) (Nat.zero_le _)
  | succ sent =>
    rw [Function.iterate_succ_apply']
    exact nextRtcpIndex_bound _

theorem decrypt_undoes_encrypt {prim : Primitives} {ctx : CryptoContext}
    (short : ctx.state.tagLen ≤ 20) (started : ctx.rtcpIndex = 0) :
    (∀ roc packet, RtpPacket.WellFormed packet →
      ∃ sealed, encryptRtp prim ctx.state roc packet = .ok sealed ∧
        decryptRtp prim ctx.state roc sealed = .ok packet) ∧
      ∀ sent packet, 8 ≤ packet.length →
        ∃ sealed, encryptRtcp prim ctx.state packet
            (CryptoContext.nextRtcpIndex^[sent] ctx).rtcpIndex = .ok sealed ∧
          decryptRtcp prim ctx.state sealed = .ok packet := by
  constructor
  · intro roc packet formed
    exact decryptRtp_encryptRtp prim short roc formed
  · intro sent packet long
    exact decryptRtcp_encryptRtcp prim short (rtcpIndex_run started sent) long

theorem decrypt_undoes_encrypt_vectors :
    (∃ sealed, encryptRtp Primitives.vectors CryptoContext.sample.state 0
        [128, 0, 0, 1, 0, 0, 0, 0, 0, 0, 0, 1, 170] = .ok sealed ∧
      decryptRtp Primitives.vectors CryptoContext.sample.state 0 sealed =
        .ok [128, 0, 0, 1, 0, 0, 0, 0, 0, 0, 0, 1, 170]) ∧
      ∃ sealed, encryptRtcp Primitives.vectors CryptoContext.sample.state
          [128, 201, 0, 1, 0, 0, 0, 1, 187]
          (CryptoContext.nextRtcpIndex^[1] CryptoContext.sample).rtcpIndex = .ok sealed ∧
        decryptRtcp Primitives.vectors CryptoContext.sample.state sealed =
          .ok [128, 201, 0, 1, 0, 0, 0, 1, 187] := by
  have law := @decrypt_undoes_encrypt Primitives.vectors CryptoContext.sample
    (by decide) rfl
  have plain : RtpPacket.ExtensionBlock 128 [] := by
    rw [RtpPacket.ExtensionBlock, if_neg (by decide)]
  exact ⟨law.1 0 _ ⟨128, [0, 0, 1, 0, 0, 0, 0, 0, 0, 0, 1], [], [], [170], rfl, rfl, rfl, plain⟩,
    law.2 1 _ (by decide)⟩

end SrtpRoundTrip
