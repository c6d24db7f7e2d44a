import Nebula.Media.Srtp

/- What an authentication tag decides. For a packet split into a body and a
   trailing tag of the configured length, the check compares that tag with the
   digest of the body, and only SRTCP packets that carry the E bit reach it. -/
namespace SrtpAuth
open ByteStrings Srtp

theorem generateAuthTag_length {prim : Primitives} {cs : CryptoState} {roc : Option Nat}
    {body tag : Bytes} (run : generateAuthTag prim cs roc body = .ok tag) :
    tag.length = cs.tagLen := by
  obtain ⟨inside, taken⟩ := sliceTo_ok_iff.mp run
  rw [← taken, List.length_take]
  omega

theorem generateAuthTag_ok (prim : Primitives) {cs : CryptoState} (short : cs.tagLen ≤ 20)
    (roc : Option Nat) (body : Bytes) : ∃ tag, generateAuthTag prim cs roc body = .ok tag := by
  cases roc with
  | none => exact ⟨_, sliceTo_ok_iff.mpr ⟨by rw [prim.hmacSha1_length]; exact short, rfl⟩⟩
  | some roc => exact ⟨_, sliceTo_ok_iff.mpr ⟨by rw [prim.hmacSha1_length]; exact short, rfl⟩⟩

/- An encrypted packet is the clear header, the payload under the keystream and
   the tag of both. -/
theorem encryptRtp_layout (prim : Primitives) {cs : CryptoState} (short : cs.tagLen ≤ 20) (roc : Nat)
    {packet : Bytes} {seq ssrc offset : Nat} (numbered : RtpPacket.getSequence packet = .ok seq)
    (sourced : RtpPacket.getSsrc packet = .ok ssrc)
    (measured : RtpPacket.payloadOffset packet = .ok offset) (inside : offset ≤ packet.length) :
    ∃ data tag, data = packet.take offset ++
        xorStream (prim.keystream cs.key (generateCounter cs.salt ssrc seq roc))
          (packet.drop offset) ∧
      generateAuthTag prim cs (some roc) data = .ok tag ∧
      encryptRtp prim cs roc packet = .ok (data ++ tag) := by
  obtain ⟨tag, tagged⟩ := generateAuthTag_ok prim short (some roc) (packet.take offset ++
    xorStream (prim.keystream cs.key (generateCounter cs.salt ssrc seq roc)) (packet.drop offset))
  refine ⟨_, tag, rfl, tagged, ?_⟩
  simp [encryptRtp, numbered, sourced, measured, sliceFrom, inside, tagged]

theorem auth_append (prim : Primitives) {cs : CryptoState} (roc : Option Nat) {body tag : Bytes}
    (len : tag.length = cs.tagLen) :
    auth prim cs roc (body ++ tag) =
      (generateAuthTag prim cs roc body >>= fun expected => pure (tag == expected)) := by
  unfold auth
  rw [← len, checkedSub_append]
  simp only [ok_bind, sliceFrom_append, sliceTo_append]

theorem auth_of_tag (prim : Primitives) {cs : CryptoState} {roc : Option Nat} {body tag : Bytes}
    (tagged : generateAuthTag prim cs roc body = .ok tag) :
    auth prim cs roc (body ++ tag) = .ok true := by
  rw [auth_append prim roc (generateAuthTag_length tagged), tagged]
  simp

theorem tag_of_auth {prim : Primitives} {cs : CryptoState} {roc : Option Nat} {body tag : Bytes}
    (len : tag.length = cs.tagLen) (accepted : auth prim cs roc (body ++ tag) = .ok true) :
    generateAuthTag prim cs roc body = .ok tag := by
  rw [auth_append prim roc len] at accepted
  obtain ⟨expected, run, last⟩ := bind_ok_inv accepted
  simp only [pure_eq_ok, Except.ok.injEq, beq_iff_eq] at last
  rw [run, last]

/-- The E bit of the trailer that ends the body of an SRTCP packet. -/
def eBit (body : Bytes) : Bool := body.getD (body.length - 4) 0 >>> 7 != 0

/- The three reads that lead to the E bit, on a packet long enough for them. -/
theorem trailer_reads {body tag : Bytes} {tagLen : Nat} (len : tag.length = tagLen)
    (long : 4 ≤ body.length) :
    checkedSub (body ++ tag).length tagLen = .ok body.length ∧
      checkedSub body.length 4 = .ok (body.length - 4) ∧
      byteAt (body ++ tag) (body.length - 4) = .ok (body.getD (body.length - 4) 0) := by
  refine ⟨?_, if_pos long, ?_⟩
  · rw [← len, checkedSub_append]
  · rw [byteAt_ok_iff, List.getElem?_append_left (by omega), List.getD_eq_getElem?_getD,
      List.getElem?_eq_getElem (by omega)]
    rfl

theorem decryptRtcp_clear (prim : Primitives) {cs : CryptoState} {body tag : Bytes}
    (len : tag.length = cs.tagLen) (long : 4 ≤ body.length) (clear : eBit body = false) :
    decryptRtcp prim cs (body ++ tag) = .ok (body.take (body.length - 4)) := by
  obtain ⟨untagged, tail, first⟩ := trailer_reads len long
  have zero : (body.getD (body.length - 4) 0 >>> 7 == 0) = true := by
    simpa [eBit] using clear
  unfold decryptRtcp
  rw [untagged, ok_bind, tail, ok_bind, first, ok_bind, if_pos zero]
  refine sliceTo_ok_iff.mpr ⟨by simp only [List.length_append]; omega, ?_⟩
  exact List.take_append_of_le_length (by omega)

theorem decryptRtcp_authenticates {prim : Primitives} {cs : CryptoState} {body tag plain : Bytes}
    (len : tag.length = cs.tagLen) (long : 4 ≤ body.length) (set : eBit body = true)
    (run : decryptRtcp prim cs (body ++ tag) = .ok plain) :
    generateAuthTag prim cs none body = .ok tag := by
  obtain ⟨untagged, tail, first⟩ := trailer_reads len long
  have nonzero : ¬ (body.getD (body.length - 4) 0 >>> 7 == 0) = true := by
    simpa [eBit] using set
  unfold decryptRtcp at run
  rw [untagged, ok_bind, tail, ok_bind, first, ok_bind, if_neg nonzero] at run
  obtain ⟨accepted, checked, rest⟩ := bind_ok_inv run
  cases accepted with
  | true => exact tag_of_auth len checked
  | false => cases rest

/-- Every accepted tag is the digest of the body, and no two tags are accepted. -/
def AcceptsOnlyDigest (prim : Primitives) (cs : CryptoState) (body : Bytes) : Prop :=
  (∀ tag plain, tag.length = cs.tagLen → decryptRtcp prim cs (body ++ tag) = .ok plain →
      generateAuthTag prim cs none body = .ok tag) ∧
    ∀ tag tag' plain plain', tag.length = cs.tagLen → tag'.length = cs.tagLen →
      decryptRtcp prim cs (body ++ tag) = .ok plain →
      decryptRtcp prim cs (body ++ tag') = .ok plain' → tag = tag'

theorem acceptsOnlyDigest_of_encrypted (prim : Primitives) {cs : CryptoState} {body : Bytes}
    (long : 4 ≤ body.length) (set : eBit body = true) : AcceptsOnlyDigest prim cs body := by
  constructor
  · intro tag plain len run
    exact decryptRtcp_authenticates len long set run
  · intro tag tag' plain plain' len len' run run'
    have first := decryptRtcp_authenticates len long set run
    have second := decryptRtcp_authenticates len' long set run'
    cases first.symm.trans second
    rfl

theorem acceptsOnlyDigest_of_untagged (prim : Primitives) {cs : CryptoState} (body : Bytes)
    (untagged : cs.tagLen = 0) : AcceptsOnlyDigest prim cs body := by
  have empty : ∀ tag : Bytes, tag.length = cs.tagLen → tag = [] := by
    intro tag len
    exact List.eq_nil_of_length_eq_zero (len.trans untagged)
  constructor
  · intro tag plain len run
    obtain ⟨expected, made⟩ := generateAuthTag_ok prim
      (Nat.le_trans (Nat.le_of_eq untagged) (Nat.zero_le _)) none body
    rw [empty tag len, made, empty expected (generateAuthTag_length made)]
  · intro tag tag' plain plain' len len' _ _
    rw [empty tag len, empty tag' len']

theorem clear_accepts_two (prim : Primitives) {cs : CryptoState} {body : Bytes}
    (long : 4 ≤ body.length) (clear : eBit body = false) (tagged : 0 < cs.tagLen) :
    ¬ AcceptsOnlyDigest prim cs body := by
  intro law
  have same := law.2 (List.replicate cs.tagLen 0) (List.replicate cs.tagLen 1) _ _
    (by simp) (by simp) (decryptRtcp_clear prim (by simp) long clear)
    (decryptRtcp_clear prim (by simp) long clear)
  have head := congrArg (fun tag => tag.getD 0 0) same
  simp [List.getD, tagged] at head

/- SRTCP acceptance is decided by the tag exactly when the E bit is set, or when
   the suite has no tag at all. -/
theorem decryptRtcp_checks_tag_iff {prim : Primitives} {cs : CryptoState} {body : Bytes}
    (long : 4 ≤ body.length) :
    AcceptsOnlyDigest prim cs body ↔ eBit body = true ∨ cs.tagLen = 0 := by
  constructor
  · intro law
    by_cases set : eBit body = true
    · exact Or.inl set
    · right
      by_contra tagged
      exact clear_accepts_two prim long (by simpa using set) (by omega) law
  · intro either
    rcases either with set | untagged
    · exact acceptsOnlyDigest_of_encrypted prim long set
    · exact acceptsOnlyDigest_of_untagged prim body untagged

theorem decryptRtcp_checks_tag_encrypted :
    AcceptsOnlyDigest Primitives.vectors CryptoContext.sample.state
        [128, 201, 0, 1, 0, 0, 0, 1, 128, 0, 0, 1] ↔
      eBit [128, 201, 0, 1, 0, 0, 0, 1, 128, 0, 0, 1] = true ∨
        CryptoContext.sample.state.tagLen = 0 :=
  decryptRtcp_checks_tag_iff (by decide)

/- With the E bit clear a tag of ten zero bytes is accepted, and so is any other. -/
theorem decryptRtcp_forged_accepted :
    decryptRtcp Primitives.vectors CryptoContext.sample.state
        ([128, 201, 0, 1, 0, 0, 0, 1, 0, 0, 0, 1] ++ List.replicate 10 0) =
        .ok [128, 201, 0, 1, 0, 0, 0, 1] ∧
      generateAuthTag Primitives.vectors CryptoContext.sample.state none
        [128, 201, 0, 1, 0, 0, 0, 1, 0, 0, 0, 1] =
        .ok [219, 107, 203, 17, 152, 238, 45, 33, 236, 2] ∧
      ¬ AcceptsOnlyDigest Primitives.vectors CryptoContext.sample.state
        [128, 201, 0, 1, 0, 0, 0, 1, 0, 0, 0, 1] :=
  ⟨by decide, by decide, clear_accepts_two _ (by decide) (by decide) (by decide)⟩

end SrtpAuth
