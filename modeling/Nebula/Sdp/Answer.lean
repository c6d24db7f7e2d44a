import Nebula.Sdp.CodecLists

/- Answers to offered media descriptions, and when an answer uses nothing that was not offered. -/
namespace Sdp
open TextScan TextParts DecimalText
open SipText (Text)

section Model

def INTERNAL_AUDIO_ORDER : List PayloadType := [.opus, .g722, .pcma, .pcmu]

def EXTERNAL_AUDIO_ORDER : List PayloadType := [.pcma, .pcmu, .g722, .opus]

def ROOM_VIDEO_RTPMAP_ORDER : List PayloadType := [.vp8]

def NON_ROOM_VIDEO_RTPMAP_ORDER : List PayloadType := [.h264]

def PEER_CONNECTION_PORT : UInt16 := 9998

def LOCAL_RTP_PEER_PORT : UInt16 := 7676

def H264_FMTP : Text := "packetization-mode=1;profile-level-id=42001f".toList

def WEBRTC_PROTO : Text := "UDP/TLS/RTP/SAVPF".toList

inductive AnswerFault where
  | overflow
  | noSessionPort
  deriving DecidableEq

/-- What an answer takes from outside: a port, unless there is none, and fresh names. -/
structure Environment where
  sessionPort : Option UInt16
  trackId : Text
  ssrc : Text → UInt32
  cname : Text
  key : Text

def MediaDescription.getRtpmap (media : MediaDescription) (name : PayloadType) : Option Rtpmap :=
  media.payloads.findSome? fun pt =>
    (media.ptRtpmap pt).bind fun rtpmap => if rtpmap.name = name then some rtpmap else none

def MediaDescription.dtmfRtpmap (media : MediaDescription) (negotiated : Option Rtpmap) :
    Option Rtpmap :=
  (negotiated.bind fun negotiated => media.payloads.findSome? fun pt =>
    (media.ptRtpmap pt).bind fun rtpmap =>
      if rtpmap.name = .telephoneEvent ∧ negotiated.rate = rtpmap.rate then some rtpmap
      else none).or
    (media.getRtpmap .telephoneEvent)

/-- Video outside of a room is answered as plain H.264. -/
def MediaDescription.adapt (media : MediaDescription) (isRoom : Bool) (rtpmap : Rtpmap) : Rtpmap :=
  if !isRoom && media.mediaType = .video then { rtpmap with rtcpFeedbacks := [], fmtp := H264_FMTP }
  else rtpmap

def MediaDescription.rtpmapOrder (media : MediaDescription) (internalSdp isRoom : Bool) :
    List PayloadType :=
  if media.mediaType = .audio then
    if internalSdp then INTERNAL_AUDIO_ORDER else EXTERNAL_AUDIO_ORDER
  else if isRoom then ROOM_VIDEO_RTPMAP_ORDER
  else NON_ROOM_VIDEO_RTPMAP_ORDER

def MediaDescription.answerRtpmap (media : MediaDescription) (peerRtpmaps : Option (List Rtpmap))
    (internalSdp isRoom : Bool) : Option Rtpmap :=
  (((peerRtpmaps.getD []).findSome? fun peer =>
      if peer.name ≠ .telephoneEvent then media.getRtpmap peer.name else none).or
    ((media.rtpmapOrder internalSdp isRoom).findSome? media.getRtpmap)).map (media.adapt isRoom)

/-- The number of the RTX entry is derived by an addition on bytes. -/
def withRtx (rtpmap : Rtpmap) : Except AnswerFault (List Rtpmap) :=
  if rtpmap.name = .vp8 then
    if rtpmap.typeNumber = 255 then .error .overflow
    else .ok [rtpmap, { name := .rtx, rate := rtpmap.rate, typeNumber := rtpmap.typeNumber + 1,
                        fmtp := "apt=".toList ++ rtpmap.pt }]
  else .ok [rtpmap]

def answerFmtp (rtpmap : Rtpmap) : Rtpmap :=
  if rtpmap.name = .vp9 then
    { rtpmap with
      fmtp := "profile-id=0; useadaptivelayering_v2=true; useadaptivelayering=true".toList }
  else rtpmap

/-- The codecs of an answer: the first is the primary one. -/
def MediaDescription.answerRtpmaps (media : MediaDescription)
    (peerRtpmaps : Option (List Rtpmap)) (internalSdp isRoom : Bool) :
    Except AnswerFault (List Rtpmap) :=
  (match media.answerRtpmap peerRtpmaps internalSdp isRoom with
    | some rtpmap => withRtx (answerFmtp rtpmap)
    | none => .ok []).map fun rtpmaps : List Rtpmap =>
    rtpmaps ++ (media.dtmfRtpmap rtpmaps.head?).toList

def roomExtension (mediaType : MediaType) (value : Text) : Bool :=
  "urn:ietf:params:rtp-hdrext:ssrc-audio-level".toList.isSuffixOf value ||
    (mediaType = .video &&
      ("http://www.ietf.org/id/draft-holmer-rmcat-transport-wide-cc-extensions-01".toList.isSuffixOf
          value ||
        "urn:ietf:params:rtp-hdrext:sdes:rtp-stream-id".toList.isSuffixOf value ||
        "urn:ietf:params:rtp-hdrext:sdes:repaired-rtp-stream-id".toList.isSuffixOf value))

def ssrcAttributes (ssrc : UInt32) (streamId trackId cname : Text) : List Attribute :=
  [" cname:".toList ++ cname, " msid:".toList ++ streamId ++ ' ' :: trackId,
    " mslabel:".toList ++ streamId, " label:".toList ++ trackId].map fun text =>
      ⟨"ssrc".toList, some (digits ssrc.toNat ++ text)⟩

def webrtcAttributes (env : Environment) (channelId : Text) (mid : Option Text) : List Attribute :=
  [⟨"rtcp-mux".toList, none⟩, ⟨"msid".toList, some ("- ".toList ++ env.trackId)⟩] ++
    ssrcAttributes (env.ssrc (channelId ++ ':' :: mid.getD [])) "-".toList env.trackId env.cname

/-- The tag of the first key that is offered for the suite in use. -/
def offeredTag (attr : Attribute) : Option Text :=
  if attr.key = "crypto".toList then
    match (attr.value.getD []).splitOn ' ' with
    | [tag, suite, _] => if suite = "AES_CM_128_HMAC_SHA1_80".toList then some tag else none
    | _ => none
  else none

def MediaDescription.ptime (media : MediaDescription) : Nat :=
  ((attribute? media.attributes "ptime".toList).bind (readBelow (2 ^ 64))).getD 20

def simulcastAttributes : List Attribute :=
  [⟨"rid".toList, some "h recv".toList⟩, ⟨"rid".toList, some "m recv".toList⟩,
    ⟨"rid".toList, some "l recv".toList⟩, ⟨"simulcast".toList, some "recv h;m;l".toList⟩]

def MediaDescription.answerPort (media : MediaDescription) (env : Environment) :
    Except AnswerFault UInt16 :=
  if media.port = LOCAL_RTP_PEER_PORT then .ok LOCAL_RTP_PEER_PORT
  else if media.proto = WEBRTC_PROTO then .ok PEER_CONNECTION_PORT
  else
    match env.sessionPort with
    | some port => .ok port
    | none => .error .noSessionPort

/-- The attributes of an answer before those of its codecs, and after them. -/
def MediaDescription.attributesBefore (media : MediaDescription) (env : Environment)
    (channelId : Text) (isRoom : Bool) : List Attribute :=
  (media.mid.map fun mid => Attribute.mk "mid".toList (some mid)).toList ++
    (media.attributes.filter fun attr =>
      isRoom && attr.key = "extmap".toList && attr.value.any (roomExtension media.mediaType)) ++
    (if media.proto = WEBRTC_PROTO then webrtcAttributes env channelId media.mid else [])

def MediaDescription.attributesAfter (media : MediaDescription) (env : Environment)
    (isRoom : Bool) : List Attribute :=
  ((media.attributes.findSome? offeredTag).map fun tag => Attribute.mk "crypto".toList
      (some (tag ++ " AES_CM_128_HMAC_SHA1_80 inline:".toList ++ env.key))).toList ++
    (if media.mediaType = .audio ∧ media.ptime ≠ 20 then
      [⟨"ptime".toList, some (digits media.ptime)⟩] else []) ++
    (if media.mediaType = .video ∧ isRoom then [⟨"recvonly".toList, none⟩] else []) ++
    (if media.attributes.any (·.key = "simulcast".toList) then simulcastAttributes else [])

def MediaDescription.createAnswer (media : MediaDescription) (env : Environment)
    (channelId : Text) (peerRtpmaps : Option (List Rtpmap)) (internalSdp isRoom : Bool) :
    Except AnswerFault MediaDescription :=
  (media.answerPort env).bind fun port =>
    (media.answerRtpmaps peerRtpmaps internalSdp isRoom).map fun rtpmaps =>
      let answer := rtpmaps.foldl MediaDescription.insertRtpmap
        { mediaType := media.mediaType, port, numPorts := 0, proto := media.proto, payloads := [],
          attributes := media.attributesBefore env channelId isRoom }
      { answer with attributes := answer.attributes ++ media.attributesAfter env isRoom }

end Model

section Codecs

/-- What is read for a type number keeps that number. -/
theorem readCodec_pt {pt : Text} {found : Option Rtpmap} (attr : Attribute)
    (own : ∀ rtpmap ∈ found, rtpmap.pt = pt) :
    ∀ rtpmap ∈ readCodec pt found attr, rtpmap.pt = pt := by
  unfold readCodec
  dsimp only
  split
  · exact own
  · rename_i rest _
    split
    · split
      · split
        · rename_i number
          intro rtpmap member
          obtain rfl := Option.some.inj member
          exact number
        · exact own
      · exact own
    · split
      · intro rtpmap member
        obtain ⟨old, known, rfl⟩ := Option.map_eq_some_iff.mp member
        exact own old known
      · split
        · intro rtpmap member
          obtain ⟨old, known, rfl⟩ := Option.map_eq_some_iff.mp member
          have same := own old known
          split <;> exact same
        · exact own

theorem ptDefault_pt {pt : Text} {rtpmap : Rtpmap} (found : Rtpmap.ptDefault pt = some rtpmap) :
    rtpmap.pt = pt := by
  unfold Rtpmap.ptDefault at found
  split at found
  · rename_i same
    obtain rfl := Option.some.inj found
    exact same.symm
  · split at found
    · rename_i same
      obtain rfl := Option.some.inj found
      exact same.symm
    · split at found
      · rename_i same
        obtain rfl := Option.some.inj found
        exact same.symm
      · cases found

theorem ptRtpmap_pt {media : MediaDescription} {pt : Text} {rtpmap : Rtpmap}
    (found : media.ptRtpmap pt = some rtpmap) : rtpmap.pt = pt := by
  have fold : ∀ (attrs : List Attribute) (start : Option Rtpmap),
      (∀ rtpmap ∈ start, rtpmap.pt = pt) →
        ∀ rtpmap ∈ attrs.foldl (readCodec pt) start, rtpmap.pt = pt := by
    intro attrs
    induction attrs with
    | nil => exact fun start own => own
    | cons attr attrs ih => exact fun start own => ih _ (readCodec_pt attr own)
  rcases Option.or_eq_some_iff.mp found with default | ⟨_, read⟩
  · exact ptDefault_pt default
  · exact fold media.attributes none (fun rtpmap none_ => by cases none_) rtpmap read

/-- A codec of a description is the one that is read for its type number. -/
theorem mem_getRtpmaps {media : MediaDescription} {rtpmap : Rtpmap} :
    rtpmap ∈ media.getRtpmaps ↔ rtpmap.pt ∈ media.payloads ∧
      media.ptRtpmap rtpmap.pt = some rtpmap := by
  constructor
  · intro member
    obtain ⟨pt, known, found⟩ := List.mem_filterMap.mp member
    obtain rfl := ptRtpmap_pt found
    exact ⟨known, found⟩
  · rintro ⟨known, found⟩
    exact List.mem_filterMap.mpr ⟨_, known, found⟩

theorem same_number {media : MediaDescription} {left right : Rtpmap}
    (first : left ∈ media.getRtpmaps) (second : right ∈ media.getRtpmaps)
    (same : left.typeNumber = right.typeNumber) : left = right := by
  have own := (mem_getRtpmaps.mp first).2
  have other := (mem_getRtpmaps.mp second).2
  rw [show left.pt = right.pt by rw [Rtpmap.pt, same, Rtpmap.pt], other] at own
  exact (Option.some.inj own).symm

theorem findSome_getRtpmaps (media : MediaDescription) (wanted : Rtpmap → Bool) :
    (media.payloads.findSome? fun pt => (media.ptRtpmap pt).bind fun rtpmap =>
      if wanted rtpmap then some rtpmap else none) = media.getRtpmaps.find? wanted := by
  unfold MediaDescription.getRtpmaps
  induction media.payloads with
  | nil => rfl
  | cons pt pts ih =>
    rw [List.findSome?_cons, List.filterMap_cons]
    cases media.ptRtpmap pt with
    | none => exact ih
    | some rtpmap =>
      rw [Option.bind_some, List.find?_cons]
      cases wanted rtpmap with
      | true => rfl
      | false => exact ih

theorem getRtpmap_eq (media : MediaDescription) (name : PayloadType) :
    media.getRtpmap name = media.getRtpmaps.find? fun rtpmap => rtpmap.name = name := by
  rw [← findSome_getRtpmaps]
  simp only [decide_eq_true_eq]
  rfl

theorem dtmfRtpmap_mem {media : MediaDescription} {negotiated : Option Rtpmap} {rtpmap : Rtpmap}
    (found : media.dtmfRtpmap negotiated = some rtpmap) :
    rtpmap ∈ media.getRtpmaps ∧ rtpmap.name = .telephoneEvent := by
  rcases Option.or_eq_some_iff.mp found with near | ⟨_, any⟩
  · obtain ⟨own, _, first⟩ := Option.bind_eq_some_iff.mp near
    have read := findSome_getRtpmaps media fun rtpmap =>
      rtpmap.name = .telephoneEvent ∧ own.rate = rtpmap.rate
    simp only [decide_eq_true_eq] at read
    rw [first] at read
    have kind := List.find?_some read.symm
    simp only [decide_eq_true_eq] at kind
    exact ⟨List.mem_of_find?_eq_some read.symm, kind.1⟩
  · rw [getRtpmap_eq] at any
    exact ⟨List.mem_of_find?_eq_some any, by simpa using List.find?_some any⟩

theorem dtmfRtpmap_none {media : MediaDescription}
    (none_ : media.dtmfRtpmap none = none) :
    ∀ rtpmap ∈ media.getRtpmaps, rtpmap.name ≠ .telephoneEvent := by
  have absent : media.getRtpmap .telephoneEvent = none := none_
  rw [getRtpmap_eq] at absent
  simpa using List.find?_eq_none.mp absent

end Codecs

section Choice

/-- The kinds of codec that an answer tries, the most wanted first. -/
def MediaDescription.wanted (media : MediaDescription) (peerRtpmaps : Option (List Rtpmap))
    (internalSdp isRoom : Bool) : List PayloadType :=
  ((peerRtpmaps.getD []).map Rtpmap.name).filter (· ≠ .telephoneEvent) ++
    media.rtpmapOrder internalSdp isRoom

/-- The first codec of the most wanted kind among those that are offered. -/
def Preferred (offered : List Rtpmap) (wanted : List PayloadType) (codec : Rtpmap) : Prop :=
  (∃ before after, wanted = before ++ codec.name :: after ∧
    ∀ other ∈ offered, other.name ∉ before) ∧
  ∃ front back, offered = front ++ codec :: back ∧ ∀ other ∈ front, other.name ≠ codec.name

theorem answerRtpmap_eq (media : MediaDescription) (peerRtpmaps : Option (List Rtpmap))
    (internalSdp isRoom : Bool) : media.answerRtpmap peerRtpmaps internalSdp isRoom =
      ((media.wanted peerRtpmaps internalSdp isRoom).findSome? media.getRtpmap).map
        (media.adapt isRoom) := by
  have peers : ∀ peers : List Rtpmap, (peers.findSome? fun peer =>
      if peer.name ≠ .telephoneEvent then media.getRtpmap peer.name else none) =
      ((peers.map Rtpmap.name).filter (· ≠ .telephoneEvent)).findSome? media.getRtpmap := by
    intro peers
    induction peers with
    | nil => rfl
    | cons peer peers ih =>
      rw [List.findSome?_cons, List.map_cons, List.filter_cons, ih]
      by_cases plain : peer.name ≠ .telephoneEvent
      · rw [if_pos plain, if_pos (decide_eq_true plain), List.findSome?_cons]
      · rw [if_neg plain, if_neg fun kept => plain (of_decide_eq_true kept)]
  rw [MediaDescription.answerRtpmap, MediaDescription.wanted, List.findSome?_append, peers]

theorem getRtpmap_none_iff (media : MediaDescription) (name : PayloadType) :
    media.getRtpmap name = none ↔ ∀ other ∈ media.getRtpmaps, other.name ≠ name := by
  rw [getRtpmap_eq, List.find?_eq_none]
  simp only [decide_eq_true_eq, ne_eq]

theorem chosen_iff (media : MediaDescription) (wanted : List PayloadType) (codec : Rtpmap) :
    wanted.findSome? media.getRtpmap = some codec ↔ Preferred media.getRtpmaps wanted codec := by
  rw [List.findSome?_eq_some_iff]
  constructor
  · rintro ⟨before, name, after, whole, found, missed⟩
    rw [getRtpmap_eq] at found
    obtain ⟨same, front, back, offered, others⟩ := List.find?_eq_some_iff_append.mp found
    obtain rfl : codec.name = name := by simpa using same
    refine ⟨⟨before, after, whole, fun other member inside => ?_⟩, front, back, offered, ?_⟩
    · exact (getRtpmap_none_iff media other.name).mp (missed other.name inside) other member rfl
    · simpa using others
  · rintro ⟨⟨before, after, whole, missed⟩, front, back, offered, others⟩
    refine ⟨before, codec.name, after, whole, ?_, fun name inside => ?_⟩
    · rw [getRtpmap_eq]
      refine List.find?_eq_some_iff_append.mpr ⟨by simp, front, back, offered, ?_⟩
      simpa using others
    · refine (getRtpmap_none_iff media name).mpr fun other member same => ?_
      exact missed other member (same ▸ inside)

theorem none_chosen_iff (media : MediaDescription) (wanted : List PayloadType) :
    wanted.findSome? media.getRtpmap = none ↔ ∀ codec ∈ media.getRtpmaps, codec.name ∉ wanted := by
  rw [List.findSome?_eq_none_iff]
  constructor
  · intro missed codec member inside
    exact (getRtpmap_none_iff media codec.name).mp (missed codec.name inside) codec member rfl
  · intro missed name inside
    exact (getRtpmap_none_iff media name).mpr fun other member same =>
      missed other member (same ▸ inside)

end Choice

section Soundness

/-- Each codec of an answer is one of the offer under the same number, no number stands twice,
    and the first codec carries media. -/
structure SoundCodecs (media : MediaDescription) (rtpmaps : List Rtpmap) : Prop where
  offered : ∀ rtpmap ∈ rtpmaps, ∃ own ∈ media.getRtpmaps,
    own.typeNumber = rtpmap.typeNumber ∧ own.name = rtpmap.name ∧ own.rate = rtpmap.rate
  distinct : (rtpmaps.map Rtpmap.typeNumber).Nodup
  primary : ∀ first ∈ rtpmaps.head?, first.name ≠ .telephoneEvent ∧ first.name ≠ .rtx

/-- An RTX codec with the number after that of the codec it repairs. -/
def Repairs (repair codec : Rtpmap) : Prop :=
  repair.name = .rtx ∧ repair.rate = codec.rate ∧ repair.typeNumber = codec.typeNumber + 1

/-- If the most wanted codec of an offer is VP8, the next number is that of an RTX codec; it is
    no RTX codec itself; and if nothing is wanted, there are no telephone events either. -/
def Answerable (offered : List Rtpmap) (wanted : List PayloadType) : Prop :=
  (∀ codec, Preferred offered wanted codec → codec.name ≠ .rtx ∧
    (codec.name = .vp8 → codec.typeNumber ≠ 255 ∧ ∃ repair ∈ offered, Repairs repair codec)) ∧
  ((∀ codec ∈ offered, codec.name ∉ wanted) → ∀ codec ∈ offered, codec.name ≠ .telephoneEvent)

theorem adapt_same (media : MediaDescription) (isRoom : Bool) (rtpmap : Rtpmap) :
    (answerFmtp (media.adapt isRoom rtpmap)).name = rtpmap.name ∧
      (answerFmtp (media.adapt isRoom rtpmap)).rate = rtpmap.rate ∧
      (answerFmtp (media.adapt isRoom rtpmap)).typeNumber = rtpmap.typeNumber := by
  unfold answerFmtp MediaDescription.adapt
  split <;> split <;> exact ⟨rfl, rfl, rfl⟩

theorem telephoneEvent_not_wanted (media : MediaDescription)
    (peerRtpmaps : Option (List Rtpmap)) (internalSdp isRoom : Bool) :
    .telephoneEvent ∉ media.wanted peerRtpmaps internalSdp isRoom := by
  intro inside
  rcases List.mem_append.mp inside with peer | order
  · simpa using (List.mem_filter.mp peer).2
  · unfold MediaDescription.rtpmapOrder at order
    split at order
    · split at order
      · exact absurd order (by decide)
      · exact absurd order (by decide)
    · split at order
      · exact absurd order (by decide)
      · exact absurd order (by decide)

/-- The codecs where none is chosen: the telephone events, if there are any. -/
theorem sound_without_choice (media : MediaDescription) :
    SoundCodecs media ([] ++ (media.dtmfRtpmap none).toList) ↔
      ∀ codec ∈ media.getRtpmaps, codec.name ≠ .telephoneEvent := by
  cases dtmf : media.dtmfRtpmap none with
  | none =>
    refine ⟨fun _ => dtmfRtpmap_none dtmf, fun _ => ⟨?_, List.nodup_nil, ?_⟩⟩
    · intro rtpmap member
      cases member
    · intro first member
      cases member
  | some event =>
    obtain ⟨known, kind⟩ := dtmfRtpmap_mem dtmf
    constructor
    · intro sound
      exact absurd kind (sound.primary event rfl).1
    · intro absent
      exact absurd kind (absent event known)

/-- Telephone events have a number of their own among codecs that are offered. -/
theorem sound_with_events {media : MediaDescription} {codecs : List Rtpmap} (some_ : codecs ≠ [])
    (plain : ∀ rtpmap ∈ codecs, rtpmap.name ≠ .telephoneEvent) (negotiated : Option Rtpmap) :
    SoundCodecs media (codecs ++ (media.dtmfRtpmap negotiated).toList) ↔
      SoundCodecs media codecs := by
  have first : (codecs ++ (media.dtmfRtpmap negotiated).toList).head? = codecs.head? := by
    obtain ⟨head, rest, rfl⟩ := List.exists_cons_of_ne_nil some_
    rfl
  constructor
  · intro sound
    have distinct := sound.distinct
    rw [List.map_append] at distinct
    exact ⟨fun rtpmap member => sound.offered rtpmap (List.mem_append_left _ member),
      (List.nodup_append.mp distinct).1, first ▸ sound.primary⟩
  · intro sound
    cases dtmf : media.dtmfRtpmap negotiated with
    | none => rwa [Option.toList_none, List.append_nil]
    | some event =>
      obtain ⟨known, kind⟩ := dtmfRtpmap_mem dtmf
      have fresh : event.typeNumber ∉ codecs.map Rtpmap.typeNumber := by
        intro inside
        obtain ⟨rtpmap, member, same⟩ := List.mem_map.mp inside
        obtain ⟨own, offered, number, name, _⟩ := sound.offered rtpmap member
        obtain rfl := same_number offered known (number.trans same)
        exact plain rtpmap member (name.symm.trans kind)
      refine ⟨fun rtpmap member => ?_, ?_, ?_⟩
      · rcases List.mem_append.mp member with front | last
        · exact sound.offered rtpmap front
        · obtain rfl := List.mem_singleton.mp last
          exact ⟨rtpmap, known, rfl, rfl, rfl⟩
      · rw [List.map_append]
        refine List.nodup_append.mpr ⟨sound.distinct, List.nodup_singleton _, ?_⟩
        intro number inside other single
        obtain rfl := List.mem_singleton.mp single
        exact fun same => fresh (same ▸ inside)
      · rw [dtmf] at first
        rw [first]
        exact sound.primary

theorem sound_single {media : MediaDescription} {codec chosen : Rtpmap}
    (offered : codec ∈ media.getRtpmaps) (name : chosen.name = codec.name)
    (rate : chosen.rate = codec.rate) (number : chosen.typeNumber = codec.typeNumber)
    (plain : codec.name ≠ .telephoneEvent) :
    SoundCodecs media [chosen] ↔ codec.name ≠ .rtx := by
  constructor
  · intro sound
    exact name ▸ (sound.primary chosen rfl).2
  · intro media_
    refine ⟨fun rtpmap member => ?_, List.nodup_singleton _, fun first start => ?_⟩
    · obtain rfl := List.mem_singleton.mp member
      exact ⟨codec, offered, number.symm, name.symm, rate.symm⟩
    · obtain rfl := Option.some.inj start
      exact ⟨name ▸ plain, name ▸ media_⟩

theorem sound_repaired {media : MediaDescription} {codec chosen repair : Rtpmap}
    (offered : codec ∈ media.getRtpmaps) (vp8 : codec.name = .vp8) (name : chosen.name = codec.name)
    (rate : chosen.rate = codec.rate) (number : chosen.typeNumber = codec.typeNumber)
    (repairs : Repairs repair codec) :
    SoundCodecs media [chosen, repair] ↔ ∃ own ∈ media.getRtpmaps, Repairs own codec := by
  obtain ⟨rtx, clock, next⟩ := repairs
  constructor
  · intro sound
    obtain ⟨own, known, same, kind, pace⟩ := sound.offered repair (.tail _ List.mem_cons_self)
    exact ⟨own, known, kind.trans rtx, pace.trans clock, same.trans next⟩
  · rintro ⟨own, known, kind, pace, same⟩
    refine ⟨fun rtpmap member => ?_, ?_, fun first start => ?_⟩
    · simp only [List.mem_cons, List.not_mem_nil, or_false] at member
      rcases member with rfl | rfl
      · exact ⟨codec, offered, number.symm, name.symm, rate.symm⟩
      · exact ⟨own, known, same.trans next.symm, kind.trans rtx.symm, pace.trans clock.symm⟩
    · simp [number, next]
    · obtain rfl := Option.some.inj start
      rw [name, vp8]
      decide

variable {media : MediaDescription} {peerRtpmaps : Option (List Rtpmap)} {internalSdp isRoom : Bool}

theorem answerable_chosen {offered : List Rtpmap} {wanted : List PayloadType} {codec : Rtpmap}
    (chosen : Preferred offered wanted codec)
    (only : ∀ other, Preferred offered wanted other → other = codec)
    (inside : codec ∈ offered ∧ codec.name ∈ wanted) :
    Answerable offered wanted ↔ codec.name ≠ .rtx ∧ (codec.name = .vp8 →
      codec.typeNumber ≠ 255 ∧ ∃ repair ∈ offered, Repairs repair codec) := by
  constructor
  · exact fun both => both.1 codec chosen
  · intro own
    refine ⟨fun other preferred => ?_, fun none_ => absurd inside.2 (none_ codec inside.1)⟩
    obtain rfl := only other preferred
    exact own

/-- The codecs of an answer are sound, and their numbers do not overflow, exactly where the
    offer is answerable. -/
theorem answerRtpmaps_sound_iff :
    (∃ rtpmaps, media.answerRtpmaps peerRtpmaps internalSdp isRoom = .ok rtpmaps ∧
        SoundCodecs media rtpmaps) ↔
      Answerable media.getRtpmaps (media.wanted peerRtpmaps internalSdp isRoom) := by
  unfold MediaDescription.answerRtpmaps
  rw [answerRtpmap_eq]
  cases choice : (media.wanted peerRtpmaps internalSdp isRoom).findSome? media.getRtpmap with
  | none =>
    have nothing := (none_chosen_iff media _).mp choice
    have unpreferred : ∀ codec, ¬ Preferred media.getRtpmaps
        (media.wanted peerRtpmaps internalSdp isRoom) codec := by
      intro codec preferred
      rw [(chosen_iff media _ codec).mpr preferred] at choice
      cases choice
    refine Iff.trans ⟨?_, fun sound => ⟨_, rfl, sound⟩⟩ ((sound_without_choice media).trans ?_)
    · rintro ⟨rtpmaps, run, sound⟩
      obtain rfl := Except.ok.inj run
      exact sound
    · exact ⟨fun absent => ⟨fun codec preferred => absurd preferred (unpreferred codec),
        fun _ => absent⟩, fun both => both.2 nothing⟩
  | some codec =>
    have preferred := (chosen_iff media _ codec).mp choice
    have only : ∀ other, Preferred media.getRtpmaps
        (media.wanted peerRtpmaps internalSdp isRoom) other → other = codec := by
      intro other also
      rw [(chosen_iff media _ other).mpr also] at choice
      exact Option.some.inj choice
    obtain ⟨⟨before, after, kinds, _⟩, front, back, whole, _⟩ := id preferred
    have offered : codec ∈ media.getRtpmaps := whole ▸ by simp
    have kind : codec.name ∈ media.wanted peerRtpmaps internalSdp isRoom := kinds ▸ by simp
    have plain : codec.name ≠ .telephoneEvent := fun same =>
      telephoneEvent_not_wanted media peerRtpmaps internalSdp isRoom (same ▸ kind)
    obtain ⟨name, rate, number⟩ := adapt_same media isRoom codec
    rw [answerable_chosen preferred only ⟨offered, kind⟩, Option.map_some]
    dsimp only
    generalize answerFmtp (media.adapt isRoom codec) = chosen at name rate number ⊢
    have ends : ∀ codecs : List Rtpmap, (∃ rtpmaps, (Except.ok codecs : Except AnswerFault _).map
        (fun rtpmaps => rtpmaps ++ (media.dtmfRtpmap rtpmaps.head?).toList) = .ok rtpmaps ∧
          SoundCodecs media rtpmaps) ↔
        SoundCodecs media (codecs ++ (media.dtmfRtpmap codecs.head?).toList) := by
      intro codecs
      constructor
      · rintro ⟨rtpmaps, run, sound⟩
        obtain rfl := Except.ok.inj run
        exact sound
      · exact fun sound => ⟨_, rfl, sound⟩
    unfold withRtx
    by_cases vp8 : codec.name = .vp8
    · rw [if_pos (name.trans vp8)]
      by_cases last : codec.typeNumber = 255
      · rw [if_pos (number.trans last)]
        refine ⟨?_, fun both => absurd last (both.2 vp8).1⟩
        rintro ⟨rtpmaps, run, _⟩
        cases run
      · have repairs : Repairs
            { name := .rtx, rate := chosen.rate, typeNumber := chosen.typeNumber + 1,
              fmtp := "apt=".toList ++ chosen.pt } codec :=
          ⟨rfl, rate, congrArg (· + 1) number⟩
        rw [if_neg (number ▸ last), ends, sound_with_events (List.cons_ne_nil _ _),
          sound_repaired offered vp8 name rate number repairs]
        · simp [vp8, last]
        · intro rtpmap member
          simp only [List.mem_cons, List.not_mem_nil, or_false] at member
          rcases member with rfl | rfl
          · exact name ▸ plain
          · exact PayloadType.noConfusion
    · rw [if_neg (name ▸ vp8), ends, sound_with_events (List.cons_ne_nil _ _),
        sound_single offered name rate number plain]
      · simp [vp8]
      · intro rtpmap member
        obtain rfl := List.mem_singleton.mp member
        exact name ▸ plain

theorem answerRtpmaps_fault {fault : AnswerFault}
    (run : media.answerRtpmaps peerRtpmaps internalSdp isRoom = .error fault) :
    fault = .overflow := by
  unfold MediaDescription.answerRtpmaps withRtx at run
  split at run
  · split at run
    · split at run
      · exact (Except.error.inj run).symm
      · cases run
    · cases run
  · cases run

theorem answerPort_fault {env : Environment} {fault : AnswerFault}
    (run : media.answerPort env = .error fault) : fault = .noSessionPort := by
  unfold MediaDescription.answerPort at run
  split at run
  · cases run
  · split at run
    · cases run
    · split at run
      · cases run
      · exact (Except.error.inj run).symm

theorem answerPort_some {env : Environment} {own : UInt16} (some_ : env.sessionPort = some own) :
    ∃ port, media.answerPort env = .ok port := by
  cases run : media.answerPort env with
  | ok port => exact ⟨port, rfl⟩
  | error fault =>
    unfold MediaDescription.answerPort at run
    rw [some_] at run
    split at run
    · cases run
    · split at run
      · cases run
      · cases run

/-- What an answer says of its codecs: the numbers that it lists, and one run of attributes. -/
theorem createAnswer_eq {env : Environment} {port : UInt16} (channelId : Text)
    (known : media.answerPort env = .ok port) :
    media.createAnswer env channelId peerRtpmaps internalSdp isRoom =
      (media.answerRtpmaps peerRtpmaps internalSdp isRoom).map fun rtpmaps =>
        { mediaType := media.mediaType, port, numPorts := 0, proto := media.proto,
          payloads := rtpmaps.map Rtpmap.pt
          attributes := media.attributesBefore env channelId isRoom ++
            rtpmaps.flatMap Rtpmap.attributes ++ media.attributesAfter env isRoom } := by
  unfold MediaDescription.createAnswer
  rw [known]
  simp only [Except.bind, insert_all, List.nil_append]

/-- An answer overflows at no number and uses only what is offered, exactly where the offer has
    an RTX codec after the VP8 codec that is chosen, and no telephone events alone. -/
theorem createAnswer_sound_iff (media : MediaDescription) (peerRtpmaps : Option (List Rtpmap))
    (internalSdp isRoom : Bool) :
    (∀ env channelId, media.createAnswer env channelId peerRtpmaps internalSdp isRoom ≠
        .error .overflow ∧
      ∀ answer, media.createAnswer env channelId peerRtpmaps internalSdp isRoom = .ok answer →
        ∃ rtpmaps, SoundCodecs media rtpmaps ∧
          media.answerRtpmaps peerRtpmaps internalSdp isRoom = .ok rtpmaps ∧
          answer.payloads = rtpmaps.map Rtpmap.pt ∧
          answer.attributes = media.attributesBefore env channelId isRoom ++
            rtpmaps.flatMap Rtpmap.attributes ++ media.attributesAfter env isRoom) ↔
      Answerable media.getRtpmaps (media.wanted peerRtpmaps internalSdp isRoom) := by
  rw [← answerRtpmaps_sound_iff]
  constructor
  · intro always
    obtain ⟨port, known⟩ := @answerPort_some media ⟨some 0, [], fun _ => 0, [], []⟩ _ rfl
    obtain ⟨within, answers⟩ := always ⟨some 0, [], fun _ => 0, [], []⟩ []
    rw [createAnswer_eq [] known] at within answers
    cases run : media.answerRtpmaps peerRtpmaps internalSdp isRoom with
    | error fault =>
      obtain rfl := answerRtpmaps_fault run
      rw [run] at within
      exact absurd rfl within
    | ok rtpmaps =>
      rw [run] at answers
      obtain ⟨same, sound, other, _⟩ := answers _ rfl
      obtain rfl := Except.ok.inj other
      exact ⟨rtpmaps, rfl, sound⟩
  · rintro ⟨rtpmaps, run, sound⟩ env channelId
    cases known : media.answerPort env with
    | error fault =>
      obtain rfl := answerPort_fault known
      have fails : media.createAnswer env channelId peerRtpmaps internalSdp isRoom =
          .error .noSessionPort := by
        unfold MediaDescription.createAnswer
        rw [known]
        rfl
      rw [fails]
      constructor
      · exact fun overflow => absurd (Except.error.inj overflow) (by decide)
      · intro answer answered
        cases answered
    | ok port =>
      rw [createAnswer_eq channelId known, run]
      constructor
      · intro overflow
        cases overflow
      · intro answer answered
        obtain rfl := Except.ok.inj answered
        exact ⟨rtpmaps, sound, rfl, rfl, rfl⟩

/-- A room is offered VP8 without an RTX codec: the answer makes one up, or overflows. -/
theorem repair_not_offered :
    let offer (number : String) : MediaDescription :=
      { mediaType := .video, port := 9, numPorts := 0, proto := WEBRTC_PROTO
        payloads := [number.toList]
        attributes := [⟨"rtpmap".toList, some (number ++ " VP8/90000").toList⟩] }
    let answer (number : String) :=
      (offer number).createAnswer ⟨none, [], fun _ => 0, [], []⟩ [] none false true
    (answer "96").map MediaDescription.payloads = .ok ["96".toList, "97".toList] ∧
      "97".toList ∉ (offer "96").payloads ∧ answer "255" = .error .overflow := by
  refine ⟨?_, ?_, ?_⟩
  · decide +kernel
  · decide
  · decide +kernel

end Soundness

end Sdp
