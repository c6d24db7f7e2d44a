import Mathlib.Logic.Function.Basic
import Nebula.Media.Packet

/- Secure RTP: key derivation, per-SSRC rollover counters and the packet
   transforms. AES-CTR and HMAC-SHA1 are parameters; all that is used of them is
   that a keystream is determined by key and nonce and that a digest has 20
   bytes. Unsigned arithmetic wraps, as in the release profile. -/
namespace Srtp
open ByteStrings

def MAX_ROCDISORDER : Nat := 100
def MAX_SEQUENCE_NUMBER : Nat := 65535
def MAX_SRTCP_INDEX : Nat := 0x7FFFFFFF

structure Primitives where
  keystream : Bytes → Bytes → Nat → UInt8
  hmacSha1 : Bytes → Bytes → Bytes
  hmacSha1_length : ∀ key message, (hmacSha1 key message).length = 20

/-- The hashes nebula:media_stream:{uuid}, restricted to their roc:{ssrc} fields;
    none stands for a key that does not exist. -/
structure RocStore where
  hash : String → Option (Nat → Option Nat)

/-- A value that is no 32-bit number fails to parse and reads as absent. -/
def RocStore.hget (redis : RocStore) (uuid : String) (ssrc : Nat) : Option Nat :=
  (redis.hash uuid).bind fun fields => (fields ssrc).filter fun roc => roc < 4294967296

def RocStore.hsetex (redis : RocStore) (uuid : String) (ssrc roc : Nat) : RocStore :=
  match redis.hash uuid with
  | some fields =>
    ⟨Function.update redis.hash uuid (some (Function.update fields ssrc (some roc)))⟩
  | none => redis

structure SSRCState where
  ssrc : Nat
  roc : Nat
  rocHasProcessed : Bool
  lastSeq : Nat
  deriving DecidableEq, Repr

/-- The lengths the ciphers demand are those key derivation produces. -/
structure CryptoState where
  key : Bytes
  authHash : Bytes
  salt : Bytes
  rtcpKey : Bytes
  rtcpAuthHash : Bytes
  rtcpSalt : Bytes
  tagLen : Nat
  key_length : key.length = 16
  salt_length : salt.length = 14
  rtcpKey_length : rtcpKey.length = 16
  rtcpSalt_length : rtcpSalt.length = 14
  deriving DecidableEq, Repr

structure CryptoContext where
  uuid : String
  state : CryptoState
  ssrc : Nat → Option SSRCState
  rtcpIndex : Nat

/-- A store with one stream and no counter saved. -/
def RocStore.started : RocStore :=
  ⟨fun uuid => if uuid = "m1" then some fun _ => none else none⟩

/- Key derivation. Both slices are taken of caller-supplied byte vectors and
   panic when these are too short. -/
def computeNonce (salt : Bytes) (label : UInt8) : Outcome Bytes :=
  if 14 ≤ salt.length then
    .ok (salt.take 7 ++ (List.range 7).map (fun k =>
      UInt8.ofNat ((label.toNat <<< 48) >>> (8 * (6 - k))) ^^^ salt.getD (7 + k) 0) ++ [0, 0])
  else .error .panic

def generateKey (prim : Primitives) (len : Nat) (masterKey masterSalt : Bytes) (label : UInt8) :
    Outcome { derived : Bytes // derived.length = len } := do
  let nonce ← computeNonce masterSalt label
  if masterKey.length = 16 then
    pure ⟨xorStream (prim.keystream masterKey nonce) (List.replicate len 0), by simp [xorStream]⟩
  else throw .panic

def CryptoContext.new (prim : Primitives) (uuid : String) (masterKey masterSalt : Bytes)
    (tagLen : Nat) : Outcome CryptoContext := do
  let key ← generateKey prim 16 masterKey masterSalt 0x00
  let authTag ← generateKey prim 20 masterKey masterSalt 0x01
  let salt ← generateKey prim 14 masterKey masterSalt 0x02
  let rtcpKey ← generateKey prim 16 masterKey masterSalt 0x03
  let rtcpAuthTag ← generateKey prim 20 masterKey masterSalt 0x04
  let rtcpSalt ← generateKey prim 14 masterKey masterSalt 0x05
  pure {
    uuid := uuid
    state := ⟨key.1, authTag.1, salt.1, rtcpKey.1, rtcpAuthTag.1, rtcpSalt.1, tagLen,
      key.2, salt.2, rtcpKey.2, rtcpSalt.2⟩
    ssrc := fun _ => none
    rtcpIndex := 0 }

/- The four branches of the rollover update and the fall-through. -/
inductive RocBranch where
  | load
  | keep
  | increment
  | decrement
  deriving DecidableEq, Repr

def SSRCState.branch (st : SSRCState) (seq : Nat) : RocBranch :=
  if !st.rocHasProcessed then .load
  else if seq = 0 then
    if MAX_ROCDISORDER < st.lastSeq then .increment else .keep
  else if st.lastSeq < MAX_ROCDISORDER ∧ MAX_SEQUENCE_NUMBER - MAX_ROCDISORDER < seq then
    .decrement
  else if seq < MAX_ROCDISORDER ∧ MAX_SEQUENCE_NUMBER - MAX_ROCDISORDER < st.lastSeq then
    .increment
  else .keep

def wrapIncr (roc : Nat) : Nat := (roc + 1) % 4294967296

def wrapDecr (roc : Nat) : Nat := (roc + 4294967295) % 4294967296

def SSRCState.updateRoc (st : SSRCState) (uuid : String) (redis : RocStore) (seq : Nat) :
    SSRCState × RocStore :=
  match st.branch seq with
  | .load =>
    ({ st with
      roc := (redis.hget uuid st.ssrc).getD 0
      rocHasProcessed := true
      lastSeq := seq }, redis)
  | .keep => ({ st with lastSeq := seq }, redis)
  | .increment =>
    ({ st with roc := wrapIncr st.roc, lastSeq := seq },
      redis.hsetex uuid st.ssrc (wrapIncr st.roc))
  | .decrement =>
    ({ st with roc := wrapDecr st.roc, lastSeq := seq },
      redis.hsetex uuid st.ssrc (wrapDecr st.roc))

/-- The entry of an SSRC, created on its first packet. -/
def CryptoContext.entry (ctx : CryptoContext) (ssrc : Nat) : SSRCState :=
  (ctx.ssrc ssrc).getD ⟨ssrc, 0, false, 0⟩

def CryptoContext.record (ctx : CryptoContext) (ssrc : Nat) (entry : SSRCState) : CryptoContext :=
  { ctx with ssrc := Function.update ctx.ssrc ssrc (some entry) }

def CryptoContext.updateRoc (ctx : CryptoContext) (redis : RocStore) (packet : Bytes) :
    Outcome (Nat × CryptoContext × RocStore) := do
  let seq ← RtpPacket.getSequence packet
  let ssrc ← RtpPacket.getSsrc packet
  let (entry, redis') := (ctx.entry ssrc).updateRoc ctx.uuid redis seq
  pure (entry.roc, ctx.record ssrc entry, redis')

def CryptoContext.nextRtcpIndex (ctx : CryptoContext) : CryptoContext :=
  if MAX_SRTCP_INDEX < ctx.rtcpIndex + 1 then { ctx with rtcpIndex := 0 }
  else { ctx with rtcpIndex := ctx.rtcpIndex + 1 }

def generateCounter (salt : Bytes) (ssrc seq roc : Nat) : Bytes :=
  let index := (roc <<< 16) ||| seq
  (List.range 4).map (fun i => salt.getD i 0) ++
    (bytes32 ssrc).mapIdx (fun i b => b ^^^ salt.getD (4 + i) 0) ++
    (List.range 6).map (fun k => UInt8.ofNat (index >>> ((5 - k) * 8)) ^^^ salt.getD (8 + k) 0) ++
    [0, 0]

def generateAuthTag (prim : Primitives) (cs : CryptoState) (roc : Option Nat) (packet : Bytes) :
    Outcome Bytes :=
  let expected := match roc with
    | some roc => prim.hmacSha1 cs.authHash (packet ++ bytes32 roc)
    | none => prim.hmacSha1 cs.rtcpAuthHash packet
  sliceTo expected cs.tagLen

def auth (prim : Primitives) (cs : CryptoState) (roc : Option Nat) (packet : Bytes) :
    Outcome Bool := do
  let cut ← checkedSub packet.length cs.tagLen
  let authTag ← sliceFrom packet cut
  let body ← sliceTo packet cut
  let expected ← generateAuthTag prim cs roc body
  pure (authTag == expected)

def encryptRtp (prim : Primitives) (cs : CryptoState) (roc : Nat) (packet : Bytes) :
    Outcome Bytes := do
  let seq ← RtpPacket.getSequence packet
  let ssrc ← RtpPacket.getSsrc packet
  let iv := generateCounter cs.salt ssrc seq roc
  let offset ← RtpPacket.payloadOffset packet
  let payload ← sliceFrom packet offset
  let data := packet.take offset ++ xorStream (prim.keystream cs.key iv) payload
  let authTag ← generateAuthTag prim cs (some roc) data
  pure (data ++ authTag)

def decryptRtp (prim : Primitives) (cs : CryptoState) (roc : Nat) (packet : Bytes) :
    Outcome Bytes := do
  let seq ← RtpPacket.getSequence packet
  let ssrc ← RtpPacket.getSsrc packet
  if !(← auth prim cs (some roc) packet) then throw (.error "can't auth the srtp packet")
  let iv := generateCounter cs.salt ssrc seq roc
  let cut ← checkedSub packet.length cs.tagLen
  let data ← sliceTo packet cut
  let offset ← RtpPacket.payloadOffset data
  let payload ← sliceFrom data offset
  pure (data.take offset ++ xorStream (prim.keystream cs.key iv) payload)

def encryptRtcp (prim : Primitives) (cs : CryptoState) (packet : Bytes) (index : Nat) :
    Outcome Bytes := do
  let ssrc ← RtcpPacket.getSsrc packet
  let iv := generateCounter cs.rtcpSalt ssrc (index &&& 0xFFFF) ((index >>> 16) % 4294967296)
  let payload ← sliceFrom packet RtcpPacket.payloadOffset
  let data := packet.take RtcpPacket.payloadOffset ++
    xorStream (prim.keystream cs.rtcpKey iv) payload
  let trailed := data ++ bytes32 ((index % 4294967296) ||| (1 <<< 31))
  let authTag ← generateAuthTag prim cs none trailed
  pure (trailed ++ authTag)

def decryptRtcp (prim : Primitives) (cs : CryptoState) (packet : Bytes) : Outcome Bytes := do
  let untagged ← checkedSub packet.length cs.tagLen
  let tailOffset ← checkedSub untagged 4
  let first ← byteAt packet tailOffset
  if first >>> 7 == 0 then sliceTo packet tailOffset
  else
    if !(← auth prim cs none packet) then throw (.error "can't auth the srtcp packet")
    let ssrc ← RtcpPacket.getSsrc packet
    let trailer ← readU32 packet tailOffset
    let index := trailer &&& 0x7FFFFFFF
    let iv := generateCounter cs.rtcpSalt ssrc (index &&& 0xFFFF) ((index >>> 16) % 4294967296)
    let data ← sliceTo packet tailOffset
    let payload ← sliceFrom data RtcpPacket.payloadOffset
    pure (data.take RtcpPacket.payloadOffset ++ xorStream (prim.keystream cs.rtcpKey iv) payload)

theorem new_fresh {prim : Primitives} {uuid : String} {masterKey masterSalt : Bytes}
    {tagLen : Nat} {ctx : CryptoContext}
    (made : CryptoContext.new prim uuid masterKey masterSalt tagLen = .ok ctx) :
    ctx.ssrc = (fun _ => none) ∧ ctx.rtcpIndex = 0 := by
  obtain ⟨_, _, made⟩ := bind_ok_inv made
  obtain ⟨_, _, made⟩ := bind_ok_inv made
  obtain ⟨_, _, made⟩ := bind_ok_inv made
  obtain ⟨_, _, made⟩ := bind_ok_inv made
  obtain ⟨_, _, made⟩ := bind_ok_inv made
  obtain ⟨_, _, made⟩ := bind_ok_inv made
  cases made
  exact ⟨rfl, rfl⟩

/- What one update does to an entry: only the counter depends on the branch. -/
theorem updateRoc_entry (entry : SSRCState) (uuid : String) (redis : RocStore) (seq : Nat) :
    (entry.updateRoc uuid redis seq).1 =
      ⟨entry.ssrc, (entry.updateRoc uuid redis seq).1.roc, true, seq⟩ := by
  obtain ⟨number, roc, processed, last⟩ := entry
  cases processed with
  | false => rfl
  | true =>
    unfold SSRCState.updateRoc
    cases SSRCState.branch ⟨number, roc, true, last⟩ seq <;> rfl

theorem updateRoc_roc (entry : SSRCState) (uuid : String) (redis : RocStore) (seq : Nat) :
    (entry.updateRoc uuid redis seq).1.roc =
      match entry.branch seq with
      | .load => (redis.hget uuid entry.ssrc).getD 0
      | .keep => entry.roc
      | .increment => wrapIncr entry.roc
      | .decrement => wrapDecr entry.roc := by
  unfold SSRCState.updateRoc
  cases entry.branch seq <;> rfl

theorem entry_record (ctx : CryptoContext) (ssrc : Nat) (entry : SSRCState) :
    (ctx.record ssrc entry).entry ssrc = entry := by
  simp [CryptoContext.entry, CryptoContext.record]

theorem updateRoc_run {ctx : CryptoContext} {packet : Bytes} {seq ssrc : Nat}
    (numbered : RtpPacket.getSequence packet = .ok seq)
    (sourced : RtpPacket.getSsrc packet = .ok ssrc) (redis : RocStore) :
    ctx.updateRoc redis packet =
      .ok (((ctx.entry ssrc).updateRoc ctx.uuid redis seq).1.roc,
        ctx.record ssrc ((ctx.entry ssrc).updateRoc ctx.uuid redis seq).1,
        ((ctx.entry ssrc).updateRoc ctx.uuid redis seq).2) := by
  simp [CryptoContext.updateRoc, numbered, sourced]

theorem updateRoc_inv {ctx ctx' : CryptoContext} {redis redis' : RocStore} {packet : Bytes}
    {roc : Nat} (run : ctx.updateRoc redis packet = .ok (roc, ctx', redis')) :
    ∃ seq ssrc, RtpPacket.getSequence packet = .ok seq ∧ RtpPacket.getSsrc packet = .ok ssrc ∧
      roc = ((ctx.entry ssrc).updateRoc ctx.uuid redis seq).1.roc ∧
      ctx' = ctx.record ssrc ((ctx.entry ssrc).updateRoc ctx.uuid redis seq).1 ∧
      redis' = ((ctx.entry ssrc).updateRoc ctx.uuid redis seq).2 := by
  obtain ⟨seq, numbered, rest⟩ := bind_ok_inv run
  obtain ⟨ssrc, sourced, last⟩ := bind_ok_inv rest
  cases last
  exact ⟨seq, ssrc, numbered, sourced, rfl, rfl, rfl⟩

/- Known answers of AES-128-CTR and HMAC-SHA1 for one master key: the derived
   keys and what a few short packets need. -/
def sampleKey : Bytes :=
  [198, 30, 122, 147, 116, 79, 57, 238, 16, 115, 74, 254, 63, 247, 160, 135]

def sampleAuth : Bytes :=
  [206, 190, 50, 31, 111, 247, 113, 107, 111, 212, 171, 73, 175, 37, 106, 21, 109, 56, 186, 164]

def sampleSalt : Bytes :=
  [48, 203, 188, 8, 134, 61, 140, 133, 212, 157, 179, 74, 154, 225]

def sampleRtcpKey : Bytes :=
  [76, 26, 164, 90, 129, 247, 61, 97, 200, 0, 187, 176, 15, 187, 30, 170]

def sampleRtcpAuth : Bytes :=
  [141, 84, 83, 79, 235, 73, 174, 142, 121, 147, 166, 189, 11, 132, 79, 195, 35, 169, 61, 253]

def sampleRtcpSalt : Bytes :=
  [149, 129, 199, 173, 135, 179, 229, 48, 191, 62, 68, 84, 168, 179]

def masterKey : Bytes :=
  [225, 249, 122, 13, 62, 1, 139, 224, 214, 79, 163, 44, 6, 222, 65, 57]

def masterSalt : Bytes :=
  [14, 198, 117, 173, 73, 138, 254, 235, 182, 150, 11, 58, 171, 230]

def keystreamVectors : List ((Bytes × Bytes) × Bytes) := [
  ((masterKey, [14, 198, 117, 173, 73, 138, 254, 235, 182, 150, 11, 58, 171, 230, 0, 0]),
    sampleKey),
  ((masterKey, [14, 198, 117, 173, 73, 138, 254, 234, 182, 150, 11, 58, 171, 230, 0, 0]),
    sampleAuth),
  ((masterKey, [14, 198, 117, 173, 73, 138, 254, 233, 182, 150, 11, 58, 171, 230, 0, 0]),
    sampleSalt),
  ((masterKey, [14, 198, 117, 173, 73, 138, 254, 232, 182, 150, 11, 58, 171, 230, 0, 0]),
    sampleRtcpKey),
  ((masterKey, [14, 198, 117, 173, 73, 138, 254, 239, 182, 150, 11, 58, 171, 230, 0, 0]),
    sampleRtcpAuth),
  ((masterKey, [14, 198, 117, 173, 73, 138, 254, 238, 182, 150, 11, 58, 171, 230, 0, 0]),
    sampleRtcpSalt),
  ((sampleKey, [48, 203, 188, 8, 134, 61, 140, 132, 212, 157, 179, 74, 154, 224, 0, 0]),
    [127, 204, 120, 22]),
  ((sampleRtcpKey, [149, 129, 199, 173, 135, 179, 229, 49, 191, 62, 68, 84, 168, 178, 0, 0]),
    [193, 209, 207, 243])]

def hmacVectors : List ((Bytes × Bytes) × { digest : Bytes // digest.length = 20 }) := [
  ((sampleAuth, [128, 0, 255, 255, 0, 0, 0, 0, 0, 0, 0, 1, 0, 0, 0, 0]),
    ⟨[104, 111, 6, 104, 216, 114, 101, 121, 198, 102, 30, 180, 248, 91, 136, 20, 193, 221, 236,
    189], rfl⟩),
  ((sampleAuth, [128, 0, 0, 1, 0, 0, 0, 0, 0, 0, 0, 1, 0, 0, 0, 0]),
    ⟨[132, 239, 156, 68, 92, 158, 60, 190, 79, 140, 70, 24, 112, 161, 92, 42, 237, 7, 249, 182],
    rfl⟩),
  ((sampleAuth, [128, 0, 0, 1, 0, 0, 0, 0, 0, 0, 0, 1, 0, 0, 0, 1]),
    ⟨[103, 192, 187, 79, 53, 40, 241, 171, 45, 78, 175, 87, 38, 121, 213, 8, 76, 135, 253, 135],
    rfl⟩),
  ((sampleAuth, [128, 0, 0, 1, 0, 0, 0, 0, 0, 0, 0, 1, 213, 0, 0, 0, 0]),
    ⟨[103, 207, 145, 90, 185, 197, 229, 3, 147, 36, 29, 176, 81, 87, 67, 137, 14, 199, 9, 153],
    rfl⟩),
  ((sampleRtcpAuth, [128, 201, 0, 1, 0, 0, 0, 1, 122, 128, 0, 0, 1]),
    ⟨[178, 64, 215, 233, 34, 92, 3, 37, 1, 214, 122, 196, 39, 159, 145, 46, 228, 211, 199, 177],
    rfl⟩),
  ((sampleRtcpAuth, [128, 201, 0, 1, 0, 0, 0, 1, 128, 0, 0, 1]),
    ⟨[84, 64, 112, 134, 75, 74, 179, 87, 102, 85, 182, 206, 65, 232, 61, 255, 167, 217, 63, 124],
    rfl⟩),
  ((sampleRtcpAuth, [128, 201, 0, 1, 0, 0, 0, 1, 0, 0, 0, 1]),
    ⟨[219, 107, 203, 17, 152, 238, 45, 33, 236, 2, 205, 94, 113, 223, 96, 116, 131, 116, 239,
    216], rfl⟩)]

def Primitives.vectors : Primitives where
  keystream key nonce i := ((keystreamVectors.lookup (key, nonce)).getD []).getD i 0
  hmacSha1 key message := ((hmacVectors.lookup (key, message)).getD ⟨List.replicate 20 0, rfl⟩).1
  hmacSha1_length key message := ((hmacVectors.lookup (key, message)).getD _).2

def CryptoContext.sample : CryptoContext where
  uuid := "m1"
  state := ⟨sampleKey, sampleAuth, sampleSalt, sampleRtcpKey, sampleRtcpAuth, sampleRtcpSalt, 10,
    rfl, rfl, rfl, rfl⟩
  ssrc := fun _ => none
  rtcpIndex := 0

end Srtp
