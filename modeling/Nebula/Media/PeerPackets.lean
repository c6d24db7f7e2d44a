import Nebula.Media.PeerConnection

/- The datagrams of a peer connection. STUN, DTLS and RTP share its socket, and each datagram
   goes to the handler that its bytes call for. -/
namespace PeerPackets
open ByteStrings PeerConnection

def isDtlsPacket (buf : Bytes) : Bool :=
  decide (13 ≤ buf.length) && (decide (19 < buf.getD 0 0) && decide (buf.getD 0 0 < 64))

/-- What `receive_packet` asks of its connection. -/
structure Peer where
  dtlsSender : Bool
  dtlsLastPacket : Bytes
  dtlsDone : Bool
  rtpReceiver : Bool

inductive Handler where
  | stun
  | dtls
  | rtp
  deriving DecidableEq

/-- What is done with a datagram, one deed after another. -/
inductive Deed where
  | decodeStun (packet : Bytes)
  | handleStun (msg : StunMessage)
  | sendDtls (packet : Bytes)
  | lockLastDtls
  | resendDtls (last : Bytes)
  | processRtp
  | sendRtp (packet : Bytes)

def Deed.handler : Deed → Handler
  | .decodeStun _ | .handleStun _ => .stun
  | .sendDtls _ | .lockLastDtls | .resendDtls _ => .dtls
  | .processRtp | .sendRtp _ => .rtp

section
variable (lib : Libraries) (peer : Peer) (packet : Bytes)

def receivePacket : List Deed :=
  if isStunPacket packet then
    match lib.decode packet with
    | some msg => [.decodeStun packet, .handleStun msg]
    | none => [.decodeStun packet]
  else if isDtlsPacket packet then
    if peer.dtlsSender then [.sendDtls packet]
    else if 0 < peer.dtlsLastPacket.length then
      [.lockLastDtls, .resendDtls peer.dtlsLastPacket]
    else [.lockLastDtls]
  else if peer.dtlsDone && peer.rtpReceiver then [.processRtp, .sendRtp packet]
  else [.sendRtp packet]

def Sees (handler : Handler) : Prop :=
  ∃ deed ∈ receivePacket lib peer packet, deed.handler = handler

/-- The first byte tells the protocols apart: 0 to 3 is STUN, 20 to 63 is DTLS and
    128 to 191 is RTP or RTCP. -/
structure Classified : Prop where
  rtp : (∃ first ∈ packet.head?, 128 ≤ first ∧ first ≤ 191) → Sees lib peer packet .rtp
  dtls : (∃ first ∈ packet.head?, 20 ≤ first ∧ first ≤ 63) → 13 ≤ packet.length →
    Sees lib peer packet .dtls
  stun : Sees lib peer packet .stun →
    (∃ first ∈ packet.head?, first ≤ 3) ∧ readU32 packet 4 = .ok STUN_MAGIC_COOKIE
  one : ∃! handler, Sees lib peer packet handler

end

/-- The cookie is looked for first, whatever the datagram begins with. -/
def route (packet : Bytes) : Handler :=
  if isStunPacket packet then .stun else if isDtlsPacket packet then .dtls else .rtp

theorem sees_iff (lib : Libraries) (peer : Peer) (packet : Bytes) (handler : Handler) :
    Sees lib peer packet handler ↔ handler = route packet := by
  unfold Sees receivePacket route
  by_cases cookie : isStunPacket packet = true
  · rw [if_pos cookie, if_pos cookie]
    cases lib.decode packet <;> simp [Deed.handler, eq_comm]
  · rw [if_neg cookie, if_neg cookie]
    by_cases record : isDtlsPacket packet = true
    · rw [if_pos record, if_pos record]
      split_ifs <;> simp [Deed.handler, eq_comm]
    · rw [if_neg record, if_neg record]
      split_ifs <;> simp [Deed.handler, eq_comm]

theorem isStunPacket_iff (packet : Bytes) : isStunPacket packet = true ↔
    20 ≤ packet.length ∧ readU32 packet 4 = .ok STUN_MAGIC_COOKIE := by
  simp [isStunPacket]

theorem isDtlsPacket_iff (packet : Bytes) : isDtlsPacket packet = true ↔
    13 ≤ packet.length ∧ ∃ first ∈ packet.head?, 20 ≤ first ∧ first ≤ 63 := by
  cases packet with
  | nil => simp [isDtlsPacket]
  | cons first rest =>
    have above : 19 < first ↔ 20 ≤ first := by
      simp only [UInt8.lt_iff_toNat_lt, UInt8.le_iff_toNat_le]
      exact Iff.rfl
    have below : first < 64 ↔ first ≤ 63 := by
      simp only [UInt8.lt_iff_toNat_lt, UInt8.le_iff_toNat_le]
      exact Nat.lt_succ_iff
    simp [isDtlsPacket, above, below]

/-- Only a STUN packet changes the keys that the connection is about. -/
theorem route_frame (lib : Libraries) (redis : Redis) (server : String) (webrtc : WebRTC)
    (answers : Answers) (packet : Bytes) (other : route packet ≠ .stun) :
    PeerConnection.receivePacket lib redis server webrtc answers packet =
      (redis, webrtc, false) := by
  have plain : isStunPacket packet ≠ true := by
    intro cookie
    exact other (if_pos cookie)
  exact if_neg plain

theorem begins_of_classified {lib : Libraries} {peer : Peer} {packet : Bytes}
    (classified : Classified lib peer packet) (long : 20 ≤ packet.length)
    (cookie : readU32 packet 4 = .ok STUN_MAGIC_COOKIE) : ∃ first ∈ packet.head?, first ≤ 3 := by
  have stun : route packet = .stun := if_pos ((isStunPacket_iff packet).mpr ⟨long, cookie⟩)
  exact (classified.stun ((sees_iff lib peer packet .stun).mpr stun.symm)).1

section
variable {packet : Bytes} (begins : 20 ≤ packet.length →
  readU32 packet 4 = .ok STUN_MAGIC_COOKIE → ∃ first ∈ packet.head?, first ≤ 3)
include begins

/-- A datagram that is taken for STUN then begins as neither of the other two do. -/
theorem not_stun_of_first {first : UInt8} (leads : first ∈ packet.head?) (large : 3 < first) :
    isStunPacket packet ≠ true := by
  intro cookie
  obtain ⟨long, cookie⟩ := (isStunPacket_iff packet).mp cookie
  obtain ⟨other, leads', small⟩ := begins long cookie
  cases Option.mem_unique leads leads'
  exact absurd small (UInt8.not_le.mpr large)

theorem classified_of_begins (lib : Libraries) (peer : Peer) : Classified lib peer packet where
  rtp := by
    rintro ⟨first, leads, low, high⟩
    have plain := not_stun_of_first begins leads (UInt8.lt_of_lt_of_le (by decide) low)
    have noRecord : isDtlsPacket packet ≠ true := by
      intro record
      obtain ⟨_, other, leads', _, top⟩ := (isDtlsPacket_iff packet).mp record
      cases Option.mem_unique leads leads'
      exact absurd (UInt8.le_trans low top) (by decide)
    rw [sees_iff, route, if_neg plain, if_neg noRecord]
  dtls := by
    rintro ⟨first, leads, low, high⟩ long
    have plain := not_stun_of_first begins leads (UInt8.lt_of_lt_of_le (by decide) low)
    have record := (isDtlsPacket_iff packet).mpr ⟨long, first, leads, low, high⟩
    rw [sees_iff, route, if_neg plain, if_pos record]
  stun := by
    intro seen
    have stun := (sees_iff lib peer packet .stun).mp seen
    by_cases cookie : isStunPacket packet = true
    · obtain ⟨long, cookie⟩ := (isStunPacket_iff packet).mp cookie
      exact ⟨begins long cookie, cookie⟩
    · rw [route, if_neg cookie] at stun
      split at stun <;> cases stun
  one := ⟨route packet, (sees_iff lib peer packet _).mpr rfl,
    fun handler seen => (sees_iff lib peer packet handler).mp seen⟩

end

/-- The protocols are told apart except where the cookie stands in a datagram that does not
    begin as a STUN message does. -/
theorem classified_iff (lib : Libraries) (peer : Peer) (packet : Bytes) :
    Classified lib peer packet ↔
      (20 ≤ packet.length → readU32 packet 4 = .ok STUN_MAGIC_COOKIE →
        ∃ first ∈ packet.head?, first ≤ 3) :=
  ⟨begins_of_classified, fun begins => classified_of_begins begins lib peer⟩

/-- An RTP packet whose timestamp is the cookie goes to the STUN handler. -/
theorem cookie_timestamp_stun : ¬ ∀ lib peer packet, Classified lib peer packet := by
  intro classified
  have begins := @begins_of_classified ⟨fun _ => none, fun _ _ => false, fun _ _ => "", id⟩
    ⟨false, [], true, true⟩ [128, 96, 0, 1, 33, 18, 164, 66, 0, 0, 0, 7, 1, 2, 3, 4, 5, 6, 7, 8]
    (classified _ _ _) (by decide) (by decide)
  obtain ⟨first, leads, small⟩ := begins
  cases leads
  exact absurd small (by decide)

end PeerPackets
