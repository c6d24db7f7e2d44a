import Nebula.Sdp.Attributes

/- Codec lists in media descriptions: how they are written, and whether they survive printing
   and reading. -/
namespace Sdp
open TextScan TextParts DecimalText
open SipText (Text byteLength dropBytes dropBytes_append)

section Model

def Rtpmap.codec (rtpmap : Rtpmap) : Text :=
  rtpmap.name.text ++ '/' :: digits rtpmap.rate.toNat ++
    (if rtpmap.params ≠ [] then '/' :: rtpmap.params else [])

def Rtpmap.pt (rtpmap : Rtpmap) : Text := digits rtpmap.typeNumber.toNat

def typeAttribute (key : Text) (rtpmap : Rtpmap) (text : Text) : Attribute :=
  ⟨key, some (rtpmap.pt ++ ' ' :: text)⟩

def Rtpmap.attributes (rtpmap : Rtpmap) : List Attribute :=
  typeAttribute "rtpmap".toList rtpmap rtpmap.codec ::
    ((if rtpmap.fmtp ≠ [] then [typeAttribute "fmtp".toList rtpmap rtpmap.fmtp] else []) ++
      rtpmap.rtcpFeedbacks.map (typeAttribute "rtcp-fb".toList rtpmap))

def MediaDescription.insertRtpmap (media : MediaDescription) (rtpmap : Rtpmap) :
    MediaDescription :=
  { media with
    payloads := media.payloads ++ [rtpmap.pt]
    attributes := media.attributes ++ rtpmap.attributes }

/-- An empty description with codecs inserted. -/
def built (mediaType : MediaType) (port : UInt16) (numPorts : UInt32) (proto : Text)
    (rtpmaps : List Rtpmap) : MediaDescription :=
  rtpmaps.foldl MediaDescription.insertRtpmap
    { mediaType, port, numPorts, proto, payloads := [], attributes := [] }

theorem insert_all (media : MediaDescription) (rtpmaps : List Rtpmap) :
    rtpmaps.foldl MediaDescription.insertRtpmap media =
      { media with
        payloads := media.payloads ++ rtpmaps.map Rtpmap.pt
        attributes := media.attributes ++ rtpmaps.flatMap Rtpmap.attributes } := by
  induction rtpmaps generalizing media with
  | nil => simp
  | cons rtpmap rtpmaps ih =>
    rw [List.foldl_cons, ih]
    simp [MediaDescription.insertRtpmap]

theorem built_eq (mediaType : MediaType) (port : UInt16) (numPorts : UInt32) (proto : Text)
    (rtpmaps : List Rtpmap) : built mediaType port numPorts proto rtpmaps =
      { mediaType, port, numPorts, proto, payloads := rtpmaps.map Rtpmap.pt,
        attributes := rtpmaps.flatMap Rtpmap.attributes } :=
  insert_all _ rtpmaps

/-- What is read back of a codec: feedback is not used for audio. -/
def Rtpmap.heard (rtpmap : Rtpmap) : Rtpmap :=
  if rtpmap.name = .opus then { rtpmap with rtcpFeedbacks := [] } else rtpmap

end Model

section Codecs

theorem not_mem_pt (rtpmap : Rtpmap) {c : Char} (other : c.isDigit = false) : c ∉ rtpmap.pt :=
  not_mem_digits _ other

theorem pt_injective {left right : Rtpmap} (same : left.pt = right.pt) :
    left.typeNumber = right.typeNumber :=
  UInt8.toNat_inj.mp (digits_injective same)

theorem aboutType_written (pt : Text) (rtpmap : Rtpmap) (text : Text) :
    aboutType pt (rtpmap.pt ++ ' ' :: text) = if rtpmap.pt = pt then some text else none := by
  rw [aboutType, splitN_append 0 (not_mem_pt rtpmap (by decide))]
  rfl

theorem payloadType_text (name : PayloadType) : PayloadType.fromStr name.text = some name := by
  cases name <;> decide

theorem payloadType_plain (name : PayloadType) : '/' ∉ name.text := by
  cases name <;> decide

theorem codec_parts (rtpmap : Rtpmap) (plain : '/' ∉ rtpmap.params) :
    rtpmap.codec.splitOn '/' = rtpmap.name.text :: digits rtpmap.rate.toNat ::
      (if rtpmap.params ≠ [] then [rtpmap.params] else []) := by
  have name := payloadType_plain rtpmap.name
  have rate : '/' ∉ digits rtpmap.rate.toNat := not_mem_digits _ (by decide)
  have parts := @splitOn_parts _ _ '/' rtpmap.name.text
    (digits rtpmap.rate.toNat :: if rtpmap.params ≠ [] then [rtpmap.params] else [])
  unfold Rtpmap.codec
  by_cases some_ : rtpmap.params ≠ []
  · simp only [if_pos some_] at parts ⊢
    rw [← parts (by simp [name, rate, plain])]
    simp
  · simp only [if_neg some_] at parts ⊢
    rw [← parts (by simp [name, rate])]
    simp

theorem fromStr_written (rtpmap : Rtpmap) (plain : '/' ∉ rtpmap.params) :
    Rtpmap.fromStr (rtpmap.pt ++ ' ' :: rtpmap.codec) =
      .ok { rtpmap with fmtp := [], rtcpFeedbacks := [] } := by
  have number : readBelow 256 rtpmap.pt = some rtpmap.typeNumber.toNat :=
    readBelow_digits rtpmap.typeNumber.toNat_lt
  have rate : readU32 (digits rtpmap.rate.toNat) = some rtpmap.rate.toNat :=
    readBelow_digits rtpmap.rate.toNat_lt
  unfold Rtpmap.fromStr
  rw [splitN_append 0 (not_mem_pt rtpmap (by decide))]
  simp only [splitN, number, orFault, Except.bind, codec_parts rtpmap plain, rate,
    payloadType_text, Except.map, UInt32.ofNat_toNat, UInt8.ofNat_toNat]
  by_cases some_ : rtpmap.params ≠ []
  · rw [if_pos some_]
  · rw [if_neg some_]
    rw [not_not.mp some_]

theorem ptDefault_dynamic {rtpmap : Rtpmap}
    (dynamic : rtpmap.typeNumber ≠ 0 ∧ rtpmap.typeNumber ≠ 8 ∧ rtpmap.typeNumber ≠ 9) :
    Rtpmap.ptDefault rtpmap.pt = none := by
  have apart : ∀ n : UInt8, rtpmap.typeNumber ≠ n → rtpmap.pt ≠ digits n.toNat := by
    intro n other same
    exact other (UInt8.toNat_inj.mp (digits_injective same))
  have zero : rtpmap.pt ≠ ['0'] := apart 0 dynamic.1
  have eight : rtpmap.pt ≠ ['8'] := apart 8 dynamic.2.1
  have nine : rtpmap.pt ≠ ['9'] := apart 9 dynamic.2.2
  rw [Rtpmap.ptDefault, if_neg zero, if_neg eight, if_neg nine]

theorem attributes_written {rtpmap : Rtpmap} {attr : Attribute}
    (member : attr ∈ rtpmap.attributes) : ∃ key text, attr = typeAttribute key rtpmap text ∧
      (key = "rtpmap".toList ∧ text = rtpmap.codec ∨ key = "fmtp".toList ∧ text = rtpmap.fmtp ∨
        key = "rtcp-fb".toList ∧ text ∈ rtpmap.rtcpFeedbacks) := by
  simp only [Rtpmap.attributes, List.mem_cons, List.mem_append, List.mem_map] at member
  rcases member with rfl | inside | ⟨text, among, rfl⟩
  · exact ⟨_, _, rfl, Or.inl ⟨rfl, rfl⟩⟩
  · split at inside
    · exact ⟨_, _, List.mem_singleton.mp inside, Or.inr (Or.inl ⟨rfl, rfl⟩)⟩
    · cases inside
  · exact ⟨_, _, rfl, Or.inr (Or.inr ⟨rfl, among⟩)⟩

theorem readCodec_other {pt key : Text} {rtpmap : Rtpmap} (other : rtpmap.pt ≠ pt)
    (found : Option Rtpmap) (text : Text) :
    readCodec pt found (typeAttribute key rtpmap text) = found := by
  unfold readCodec typeAttribute
  simp only [Option.getD_some, aboutType_written, if_neg other]

/-- The attributes of another type number say nothing of this one. -/
theorem readCodecs_other {pt : Text} {rtpmap : Rtpmap} (other : rtpmap.pt ≠ pt)
    (found : Option Rtpmap) : rtpmap.attributes.foldl (readCodec pt) found = found := by
  have same : ∀ attrs : List Attribute,
      (∀ attr ∈ attrs, ∃ key text, attr = typeAttribute key rtpmap text) →
        attrs.foldl (readCodec pt) found = found := by
    intro attrs written
    induction attrs with
    | nil => rfl
    | cons attr attrs ih =>
      obtain ⟨key, text, rfl⟩ := written attr List.mem_cons_self
      rw [List.foldl_cons, readCodec_other other]
      exact ih fun own member => written own (.tail _ member)
  refine same _ fun attr member => ?_
  obtain ⟨key, text, own, _⟩ := attributes_written member
  exact ⟨key, text, own⟩

theorem readCodec_own (key : Text) (rtpmap : Rtpmap) (found : Option Rtpmap) (text : Text) :
    readCodec rtpmap.pt found (typeAttribute key rtpmap text) =
      if key = "rtpmap".toList then
        match Rtpmap.fromStr (rtpmap.pt ++ ' ' :: text) with
        | .ok r => if digits r.typeNumber.toNat = rtpmap.pt then some r else found
        | .error _ => found
      else if key = "fmtp".toList then found.map fun r => { r with fmtp := text }
      else if key = "rtcp-fb".toList then
        found.map fun r =>
          if r.name ≠ .opus then { r with rtcpFeedbacks := r.rtcpFeedbacks ++ [text] } else r
      else found := by
  have about : aboutType rtpmap.pt (rtpmap.pt ++ ' ' :: text) = some text := by
    rw [aboutType_written, if_pos rfl]
  unfold readCodec typeAttribute
  dsimp only [Option.getD_some]
  -- the two matches on the codec that is read are the same, but of two declarations
  rewrite [about]
  rfl

theorem readCodec_rtpmap {rtpmap : Rtpmap} (plain : '/' ∉ rtpmap.params)
    (found : Option Rtpmap) :
    readCodec rtpmap.pt found (typeAttribute "rtpmap".toList rtpmap rtpmap.codec) =
      some { rtpmap with fmtp := [], rtcpFeedbacks := [] } := by
  rw [readCodec_own, if_pos rfl, fromStr_written rtpmap plain]
  exact if_pos rfl

theorem readCodec_fmtp (rtpmap found : Rtpmap) (text : Text) :
    readCodec rtpmap.pt (some found) (typeAttribute "fmtp".toList rtpmap text) =
      some { found with fmtp := text } := by
  rw [readCodec_own, if_neg (by decide), if_pos rfl]
  rfl

theorem readCodec_feedback (rtpmap found : Rtpmap) (text : Text) :
    readCodec rtpmap.pt (some found) (typeAttribute "rtcp-fb".toList rtpmap text) =
      some (if found.name ≠ .opus then
        { found with rtcpFeedbacks := found.rtcpFeedbacks ++ [text] } else found) := by
  rw [readCodec_own, if_neg (by decide), if_neg (by decide), if_pos rfl]
  rfl

theorem readFeedbacks (rtpmap : Rtpmap) (found : Rtpmap) (feedbacks : List Text) :
    (feedbacks.map (typeAttribute "rtcp-fb".toList rtpmap)).foldl (readCodec rtpmap.pt)
        (some found) =
      some (if found.name ≠ .opus then
        { found with rtcpFeedbacks := found.rtcpFeedbacks ++ feedbacks } else found) := by
  induction feedbacks generalizing found with
  | nil => by_cases video : found.name ≠ .opus <;> simp
  | cons text feedbacks ih =>
    rw [List.map_cons, List.foldl_cons, readCodec_feedback, ih]
    by_cases video : found.name ≠ .opus
    · simp only [if_pos video, List.append_assoc, List.cons_append, List.nil_append]
    · simp only [if_neg video]

theorem readCodecs_own (rtpmap : Rtpmap) (plain : '/' ∉ rtpmap.params) :
    rtpmap.attributes.foldl (readCodec rtpmap.pt) none = some rtpmap.heard := by
  have params : (if rtpmap.fmtp ≠ [] then [typeAttribute "fmtp".toList rtpmap rtpmap.fmtp]
      else []).foldl (readCodec rtpmap.pt) (some { rtpmap with fmtp := [], rtcpFeedbacks := [] }) =
      some { rtpmap with rtcpFeedbacks := [] } := by
    by_cases some_ : rtpmap.fmtp ≠ []
    · rw [if_pos some_, List.foldl_cons, readCodec_fmtp]
      rfl
    · rw [if_neg some_, not_not.mp some_]
      rfl
  rw [Rtpmap.attributes, List.foldl_cons, readCodec_rtpmap plain, List.foldl_append, params,
    readFeedbacks]
  unfold Rtpmap.heard
  by_cases audio : rtpmap.name = .opus
  · simp [audio]
  · simp [audio]

end Codecs

section Lists

theorem ptRtpmap_listed {media : MediaDescription} {before after : List Rtpmap} {rtpmap : Rtpmap}
    (attributes : media.attributes = (before ++ rtpmap :: after).flatMap Rtpmap.attributes)
    (distinct : ((before ++ rtpmap :: after).map Rtpmap.typeNumber).Nodup)
    (dynamic : rtpmap.typeNumber ≠ 0 ∧ rtpmap.typeNumber ≠ 8 ∧ rtpmap.typeNumber ≠ 9)
    (plain : '/' ∉ rtpmap.params) : media.ptRtpmap rtpmap.pt = some rtpmap.heard := by
  have others : ∀ others : List Rtpmap, (∀ other ∈ others, other.typeNumber ≠ rtpmap.typeNumber) →
      ∀ found, (others.flatMap Rtpmap.attributes).foldl (readCodec rtpmap.pt) found = found := by
    intro others apart found
    induction others with
    | nil => rfl
    | cons other others ih =>
      have one := apart other List.mem_cons_self
      rw [List.flatMap_cons, List.foldl_append,
        readCodecs_other fun same => one (pt_injective same)]
      exact ih fun next member => apart next (.tail _ member)
  rw [List.map_append, List.map_cons, List.nodup_append, List.nodup_cons] at distinct
  obtain ⟨_, ⟨fresh, _⟩, disjoint⟩ := distinct
  have first : ∀ other ∈ before, other.typeNumber ≠ rtpmap.typeNumber := fun other member =>
    disjoint _ (List.mem_map_of_mem member) _ List.mem_cons_self
  have later : ∀ other ∈ after, other.typeNumber ≠ rtpmap.typeNumber := fun other member same =>
    fresh (same ▸ List.mem_map_of_mem member)
  rw [MediaDescription.ptRtpmap, ptDefault_dynamic dynamic, Option.none_or, attributes,
    List.flatMap_append, List.flatMap_cons, List.foldl_append, List.foldl_append,
    others before first, readCodecs_own rtpmap plain, others after later]

/-- A list of codecs with type numbers of their own is read back from a description of it. -/
theorem getRtpmaps_listed {media : MediaDescription} {rtpmaps : List Rtpmap}
    (payloads : media.payloads = rtpmaps.map Rtpmap.pt)
    (attributes : media.attributes = rtpmaps.flatMap Rtpmap.attributes)
    (distinct : (rtpmaps.map Rtpmap.typeNumber).Nodup)
    (dynamic : ∀ rtpmap ∈ rtpmaps,
      rtpmap.typeNumber ≠ 0 ∧ rtpmap.typeNumber ≠ 8 ∧ rtpmap.typeNumber ≠ 9)
    (plain : ∀ rtpmap ∈ rtpmaps, '/' ∉ rtpmap.params) :
    media.getRtpmaps = rtpmaps.map Rtpmap.heard := by
  have each : ∀ rtpmap ∈ rtpmaps, media.ptRtpmap rtpmap.pt = some rtpmap.heard := by
    intro rtpmap member
    obtain ⟨before, after, rfl⟩ := List.append_of_mem member
    exact ptRtpmap_listed attributes distinct (dynamic rtpmap member) (plain rtpmap member)
  rw [MediaDescription.getRtpmaps, payloads, List.filterMap_map]
  calc rtpmaps.filterMap (media.ptRtpmap ∘ Rtpmap.pt)
    _ = rtpmaps.filterMap fun rtpmap => some rtpmap.heard := List.filterMap_congr each
    _ = rtpmaps.map Rtpmap.heard := by rw [List.filterMap_eq_map']

end Lists

section Printing

def MediaDescription.portsText (media : MediaDescription) : Text :=
  digits media.port.toNat ++
    (if 0 < media.numPorts then '/' :: digits media.numPorts.toNat else [])

def MediaDescription.mediaData (media : MediaDescription) : Text :=
  media.mediaType.text ++ ' ' :: (media.portsText ++ ' ' :: (media.proto ++
    ' ' :: [' '].intercalate media.payloads))

def Attribute.data (attr : Attribute) : Text :=
  match attr.value with
  | some value => attr.key ++ ':' :: value
  | none => attr.key

/-- The lines of a description, without the breaks that end them. -/
def MediaDescription.lines (media : MediaDescription) : List Text :=
  ('m' :: '=' :: media.mediaData) :: media.attributes.map fun attr => 'a' :: '=' :: attr.data

theorem Attribute.toString_eq (attr : Attribute) :
    attr.toString = 'a' :: '=' :: attr.data ++ ['\r', '\n'] := by
  obtain ⟨key, value⟩ := attr
  cases value <;> simp [Attribute.toString, Attribute.data, crlf]

theorem MediaDescription.toString_eq (media : MediaDescription) :
    media.toString = media.lines.flatMap fun line => line ++ ['\r', '\n'] := by
  have attrs : media.attributes.flatMap Attribute.toString =
      media.attributes.flatMap fun attr => 'a' :: '=' :: attr.data ++ ['\r', '\n'] :=
    List.flatMap_congr fun attr _ => attr.toString_eq
  delta MediaDescription.toString
  rw [attrs]
  simp [lines, mediaData, portsText, crlf, List.flatMap_map]

theorem readLine_attribute (media : MediaDescription) (data : Text) :
    media.readLine ('a' :: '=' :: data) =
      .ok { media with attributes := media.attributes ++ [Attribute.read data] } := by
  have long : ¬ byteLength ('a' :: '=' :: data) < 2 := by
    have first : 'a'.utf8Size = 1 := by decide
    have second : '='.utf8Size = 1 := by decide
    have size : byteLength ('a' :: '=' :: data) = 1 + (1 + byteLength data) := by
      simp only [byteLength, List.map_cons, List.sum_cons, first, second]
    omega
  have rest : dropBytes 2 ('a' :: '=' :: data) = some data :=
    @dropBytes_append ['a', '='] data (by decide)
  rw [MediaDescription.readLine, if_neg long, typeAndData, if_pos (by decide), rest]
  rfl

theorem Attribute.read_data {attr : Attribute} (absent : ':' ∉ attr.key) :
    Attribute.read attr.data = attr := by
  obtain ⟨key, value⟩ := attr
  have back := cut_join key value absent
  have whole : join ':' key value = Attribute.data ⟨key, value⟩ := by
    cases value <;> simp [Attribute.data]
  rw [Attribute.read, ← whole, back]

theorem readLines_attributes (media : MediaDescription) (attrs : List Attribute)
    (absent : ∀ attr ∈ attrs, ':' ∉ attr.key) :
    ((attrs.map fun attr : Attribute => 'a' :: '=' :: attr.data) ++ [[]]).foldlM MediaDescription.readLine
        media = .ok { media with attributes := media.attributes ++ attrs } := by
  induction attrs generalizing media with
  | nil =>
    rw [List.append_nil]
    rfl
  | cons attr attrs ih =>
    rw [List.map_cons, List.cons_append, List.foldlM_cons, readLine_attribute,
      Attribute.read_data (absent attr List.mem_cons_self)]
    refine (ih _ fun own member => absent own (.tail _ member)).trans ?_
    simp

theorem readPorts_text (media : MediaDescription) :
    readPorts media.portsText = .ok (media.port, media.numPorts) := by
  have port : '/' ∉ digits media.port.toNat := not_mem_digits _ (by decide)
  have num : '/' ∉ digits media.numPorts.toNat := not_mem_digits _ (by decide)
  unfold readPorts MediaDescription.portsText
  by_cases some_ : 0 < media.numPorts
  · have parts := @splitOn_parts _ _ '/' (digits media.port.toNat) [digits media.numPorts.toNat]
      (by simp [port, num])
    have read : readBelow 4294967296 (digits media.numPorts.toNat) = some media.numPorts.toNat :=
      readBelow_digits media.numPorts.toNat_lt
    rw [List.flatMap_singleton] at parts
    rw [if_pos some_, parts]
    simp only [List.headD_cons, readUInt16_digits, orFault, Except.bind, read, Except.map,
      UInt32.ofNat_toNat]
  · have none_ : media.numPorts = 0 := by
      have zero : media.numPorts.toNat = 0 := by simpa [UInt32.lt_iff_toNat_lt] using some_
      exact UInt32.toNat_inj.mp zero
    have parts := @splitOn_parts _ _ '/' (digits media.port.toNat) [] (by simp [port])
    rw [List.flatMap_nil, List.append_nil] at parts
    rw [if_neg some_, List.append_nil, parts]
    simp only [List.headD_cons, readUInt16_digits, orFault, Except.bind, none_]

theorem not_mem_ports (media : MediaDescription) : ' ' ∉ media.portsText := by
  have port : ' ' ∉ digits media.port.toNat := not_mem_digits _ (by decide)
  have num : ' ' ∉ digits media.numPorts.toNat := not_mem_digits _ (by decide)
  unfold MediaDescription.portsText
  split <;> simp [port, num]

theorem mediaType_text (mediaType : MediaType) :
    MediaType.fromStr (SipText.lowercase mediaType.text) = some mediaType ∧
      ' ' ∉ mediaType.text := by
  cases mediaType <;> decide

/-- The payloads are read as they were printed, joined by blanks. -/
theorem parseMedia_data {media : MediaDescription} (word : ' ' ∉ media.proto) :
    parseMedia media.mediaData =
      .ok { media with
        payloads := ([' '].intercalate media.payloads).splitOn ' ', attributes := [] } := by
  obtain ⟨kind, single⟩ := mediaType_text media.mediaType
  unfold parseMedia MediaDescription.mediaData
  rw [splitN_append 2 single, splitN_append 1 (not_mem_ports media), splitN_append 0 word, splitN]
  simp only [kind, orFault, Except.bind, readPorts_text, Except.map, List.head?_cons,
    Option.map_some, Option.getD_some]

theorem fromStr_toString {media : MediaDescription} (word : ' ' ∉ media.proto)
    (absent : ∀ attr ∈ media.attributes, ':' ∉ attr.key)
    (whole : ∀ line ∈ media.lines, Unbroken '\r' '\n' line) :
    MediaDescription.fromStr media.toString =
      .ok { media with payloads := ([' '].intercalate media.payloads).splitOn ' ' } := by
  have split := splitPair_lines media.lines (by decide) whole
  rw [← media.toString_eq] at split
  unfold MediaDescription.fromStr
  rw [split]
  change (parseMedia media.mediaData).bind _ = _
  rw [parseMedia_data word]
  exact readLines_attributes _ media.attributes absent

end Printing

section Breaks

theorem digits_unbroken (n : Nat) : Unbroken '\r' '\n' (digits n) :=
  unbroken_of_not_mem (not_mem_digits n (by decide))

theorem codec_unbroken {rtpmap : Rtpmap} (whole : Unbroken '\r' '\n' rtpmap.params) :
    Unbroken '\r' '\n' rtpmap.codec := by
  have name : Unbroken '\r' '\n' rtpmap.name.text := by
    refine unbroken_of_not_mem ?_
    cases rtpmap.name <;> decide
  have front := unbroken_append name (digits_unbroken rtpmap.rate.toNat)
    (show '/' ≠ '\r' by decide) (by decide)
  unfold Rtpmap.codec
  split
  · exact unbroken_append front whole (by decide) (by decide)
  · rw [List.append_nil]
    exact front

theorem typeAttribute_unbroken {key text : Text} (rtpmap : Rtpmap)
    (own : Unbroken '\r' '\n' key) (whole : Unbroken '\r' '\n' text) :
    Unbroken '\r' '\n' ('a' :: '=' :: (typeAttribute key rtpmap text).data) := by
  have value := unbroken_append (digits_unbroken rtpmap.typeNumber.toNat) whole
    (show ' ' ≠ '\r' by decide) (by decide)
  have data := unbroken_append own value (show ':' ≠ '\r' by decide) (by decide)
  have letter : Unbroken '\r' '\n' ['a'] := by decide
  exact unbroken_append letter data (by decide) (by decide)

theorem attribute_line {rtpmap : Rtpmap} (codec : Unbroken '\r' '\n' rtpmap.params)
    (fmtp : Unbroken '\r' '\n' rtpmap.fmtp)
    (feedbacks : ∀ feedback ∈ rtpmap.rtcpFeedbacks, Unbroken '\r' '\n' feedback)
    {attr : Attribute} (member : attr ∈ rtpmap.attributes) :
    ':' ∉ attr.key ∧ Unbroken '\r' '\n' ('a' :: '=' :: attr.data) := by
  obtain ⟨key, text, rfl, parts⟩ := attributes_written member
  rcases parts with ⟨rfl, rfl⟩ | ⟨rfl, rfl⟩ | ⟨rfl, among⟩
  · exact ⟨(by decide : ':' ∉ "rtpmap".toList),
      typeAttribute_unbroken rtpmap (by decide) (codec_unbroken codec)⟩
  · exact ⟨(by decide : ':' ∉ "fmtp".toList), typeAttribute_unbroken rtpmap (by decide) fmtp⟩
  · exact ⟨(by decide : ':' ∉ "rtcp-fb".toList),
      typeAttribute_unbroken rtpmap (by decide) (feedbacks text among)⟩

theorem payloads_unbroken (rtpmaps : List Rtpmap) :
    Unbroken '\r' '\n' ([' '].intercalate (rtpmaps.map Rtpmap.pt)) := by
  induction rtpmaps with
  | nil => exact unbroken_nil
  | cons rtpmap rtpmaps ih =>
    cases rtpmaps with
    | nil =>
      rw [List.map_singleton, List.intercalate_singleton]
      exact digits_unbroken _
    | cons next rtpmaps =>
      rw [List.map_cons, List.map_cons, List.intercalate_cons_cons, List.append_assoc]
      exact unbroken_append (digits_unbroken _) ih (by decide) (by decide)

theorem mediaData_unbroken {media : MediaDescription} (proto : Unbroken '\r' '\n' media.proto)
    (payloads : Unbroken '\r' '\n' ([' '].intercalate media.payloads)) :
    Unbroken '\r' '\n' ('m' :: '=' :: media.mediaData) := by
  have letter : Unbroken '\r' '\n' ['m'] := by decide
  have kind : Unbroken '\r' '\n' media.mediaType.text := by
    refine unbroken_of_not_mem ?_
    cases media.mediaType <;> decide
  have ports : Unbroken '\r' '\n' media.portsText := by
    unfold MediaDescription.portsText
    split
    · exact unbroken_append (digits_unbroken _) (digits_unbroken _) (by decide) (by decide)
    · rw [List.append_nil]
      exact digits_unbroken _
  have last := unbroken_append proto payloads (show ' ' ≠ '\r' by decide) (by decide)
  have middle := unbroken_append ports last (show ' ' ≠ '\r' by decide) (by decide)
  have data := unbroken_append kind middle (show ' ' ≠ '\r' by decide) (by decide)
  exact unbroken_append letter data (by decide) (by decide)

end Breaks

section RoundTrip

/-- The description that is built can be told apart into its parts. -/
def Clean (proto : Text) (rtpmaps : List Rtpmap) : Prop :=
  rtpmaps ≠ [] ∧ (∀ rtpmap ∈ rtpmaps, Unbroken '\r' '\n' rtpmap.params) ∧
    ' ' ∉ proto ∧ Unbroken '\r' '\n' proto

variable {mediaType : MediaType} {port : UInt16} {numPorts : UInt32} {proto : Text}
  {rtpmaps : List Rtpmap}

theorem built_printed (params : ∀ rtpmap ∈ rtpmaps, Unbroken '\r' '\n' rtpmap.params)
    (texts : ∀ rtpmap ∈ rtpmaps, Unbroken '\r' '\n' rtpmap.fmtp ∧
      ∀ feedback ∈ rtpmap.rtcpFeedbacks, Unbroken '\r' '\n' feedback)
    (word : ' ' ∉ proto) (whole : Unbroken '\r' '\n' proto) :
    MediaDescription.fromStr (built mediaType port numPorts proto rtpmaps).toString =
      .ok { built mediaType port numPorts proto rtpmaps with
        payloads := ([' '].intercalate (rtpmaps.map Rtpmap.pt)).splitOn ' ' } := by
  rw [built_eq]
  have each : ∀ attr ∈ rtpmaps.flatMap Rtpmap.attributes,
      ':' ∉ attr.key ∧ Unbroken '\r' '\n' ('a' :: '=' :: attr.data) := by
    intro attr member
    obtain ⟨rtpmap, known, inside⟩ := List.mem_flatMap.mp member
    exact attribute_line (params rtpmap known) (texts rtpmap known).1 (texts rtpmap known).2 inside
  refine fromStr_toString word (fun attr member => (each attr member).1) fun line member => ?_
  rcases List.mem_cons.mp member with rfl | inside
  · exact mediaData_unbroken whole (payloads_unbroken rtpmaps)
  · obtain ⟨attr, known, rfl⟩ := List.mem_map.mp inside
    exact (each attr known).2

theorem payloads_printed (some_ : rtpmaps ≠ []) :
    ([' '].intercalate (rtpmaps.map Rtpmap.pt)).splitOn ' ' = rtpmaps.map Rtpmap.pt := by
  refine List.splitOn_intercalate ' ' (fun pt member => ?_) (by simpa using some_)
  obtain ⟨rtpmap, _, rfl⟩ := List.mem_map.mp member
  exact not_mem_pt rtpmap (by decide)

end RoundTrip

section Inversion

theorem dropBytes_suffix {n : Nat} {s rest : Text} (found : dropBytes n s = some rest) :
    rest <:+ s := by
  induction s generalizing n with
  | nil =>
    cases n with
    | zero =>
      obtain rfl := Option.some.inj found
      exact List.suffix_refl _
    | succ n => cases found
  | cons c s ih =>
    cases n with
    | zero =>
      obtain rfl := Option.some.inj found
      exact List.suffix_refl _
    | succ n =>
      unfold dropBytes at found
      split at found
      · exact (ih found).trans (List.suffix_cons c s)
      · cases found

theorem typeAndData_suffix {line : Text} {parts : Char × Text}
    (run : typeAndData line = .ok parts) : parts.2 <:+ line := by
  cases line with
  | nil => cases run
  | cons descType rest =>
    simp only [typeAndData] at run
    split at run
    · cases found : dropBytes 2 (descType :: rest) with
      | none => rw [found] at run; cases run
      | some data =>
        rw [found] at run
        obtain rfl := Except.ok.inj run
        exact dropBytes_suffix found
    · cases run

theorem read_value {data value : Text} (own : (Attribute.read data).value = some value) :
    value <:+: data := by
  have parts : cut ':' data = ((cut ':' data).1, some value) := Prod.ext rfl own
  obtain ⟨_, whole⟩ := cut_eq_some parts
  exact ⟨(cut ':' data).1 ++ [':'], [], by simpa using whole.symm⟩

/-- A line keeps the protocol and adds at most an attribute, whose value is part of it. -/
theorem readLine_inv {media next : MediaDescription} {line : Text}
    (run : media.readLine line = .ok next) : next.proto = media.proto ∧
      ∀ attr ∈ next.attributes, attr ∈ media.attributes ∨
        ∀ value ∈ attr.value, value <:+: line := by
  unfold MediaDescription.readLine at run
  split at run
  · obtain rfl := Except.ok.inj run
    exact ⟨rfl, fun attr member => Or.inl member⟩
  · cases found : typeAndData line with
    | error fault => rw [found] at run; cases run
    | ok parts =>
      rw [found] at run
      obtain rfl := Except.ok.inj run
      dsimp only
      split
      · refine ⟨rfl, fun attr member => ?_⟩
        rcases List.mem_append.mp member with old | new
        · exact Or.inl old
        · obtain rfl := List.mem_singleton.mp new
          right
          intro value own
          exact (read_value own).trans (typeAndData_suffix found).isInfix
      · exact ⟨rfl, fun attr member => Or.inl member⟩

theorem readLines_inv {media last : MediaDescription} {lines : List Text}
    (run : lines.foldlM MediaDescription.readLine media = .ok last) : last.proto = media.proto ∧
      ∀ attr ∈ last.attributes, attr ∈ media.attributes ∨
        ∃ line ∈ lines, ∀ value ∈ attr.value, value <:+: line := by
  induction lines generalizing media with
  | nil =>
    obtain rfl := Except.ok.inj run
    exact ⟨rfl, fun attr member => Or.inl member⟩
  | cons line lines ih =>
    rw [List.foldlM_cons] at run
    cases first : media.readLine line with
    | error fault => rw [first] at run; cases run
    | ok next =>
      rw [first] at run
      obtain ⟨proto, later⟩ := ih run
      obtain ⟨same, added⟩ := readLine_inv first
      refine ⟨proto.trans same, fun attr member => ?_⟩
      rcases later attr member with known | ⟨own, among, parts⟩
      · rcases added attr known with old | new
        · exact Or.inl old
        · exact Or.inr ⟨line, List.mem_cons_self, new⟩
      · exact Or.inr ⟨own, .tail _ among, parts⟩

theorem parseMedia_inv {data : Text} {media : MediaDescription}
    (read : parseMedia data = .ok media) :
    ' ' ∉ media.proto ∧ media.proto <:+: data ∧ media.attributes = [] := by
  unfold parseMedia at read
  split at read
  · rename_i kind ports proto rest parts
    cases mediaType : MediaType.fromStr (SipText.lowercase kind) with
    | none => rw [mediaType] at read; cases read
    | some mediaType_ =>
      rw [mediaType] at read
      cases port : readPorts ports with
      | error fault => rw [port] at read; cases read
      | ok port_ =>
        rw [port] at read
        obtain rfl := Except.ok.inj read
        obtain ⟨afterKind, whole, _, second⟩ := splitN_succ parts
        obtain ⟨afterPorts, middle, _, third⟩ := splitN_succ second
        obtain ⟨absent, start⟩ := splitN_head third
        refine ⟨absent, ?_, rfl⟩
        rw [whole, middle]
        exact start.isInfix.trans ⟨kind ++ ' ' :: ports ++ [' '], [], by simp⟩
  · cases read

/-- What is read of a text holds no line break. -/
theorem fromStr_inv {s : Text} {media : MediaDescription}
    (run : MediaDescription.fromStr s = .ok media) : ' ' ∉ media.proto ∧
      Unbroken '\r' '\n' media.proto ∧
      ∀ attr ∈ media.attributes, ∀ value ∈ attr.value, Unbroken '\r' '\n' value := by
  have unbroken := @splitPair_unbroken _ '\r' '\n' _ s
  unfold MediaDescription.fromStr at run
  split at run
  · rename_i data rest lines
    rw [lines] at unbroken
    cases first : parseMedia data with
    | error fault => rw [first] at run; cases run
    | ok start =>
      rw [first] at run
      obtain ⟨word, part, empty⟩ := parseMedia_inv first
      obtain ⟨same, added⟩ := readLines_inv run
      rw [same]
      have head := unbroken _ List.mem_cons_self
      refine ⟨word, head.part (part.trans ⟨['m', '='], [], by simp⟩), ?_⟩
      intro attr member value own
      rcases added attr member with old | ⟨line, among, parts⟩
      · rw [empty] at old
        cases old
      · exact (unbroken line (.tail _ among)).part (parts value own)
  · cases run

end Inversion

section Survival

variable {mediaType : MediaType} {port : UInt16} {numPorts : UInt32} {proto : Text}
  {rtpmaps : List Rtpmap}

theorem params_part (rtpmap : Rtpmap) : rtpmap.params <:+: rtpmap.pt ++ ' ' :: rtpmap.codec := by
  unfold Rtpmap.codec
  by_cases some_ : rtpmap.params ≠ []
  · rw [if_pos some_]
    exact ⟨rtpmap.pt ++ ' ' :: (rtpmap.name.text ++ '/' :: digits rtpmap.rate.toNat) ++ ['/'], [],
      by simp⟩
  · rw [not_not.mp some_]
    exact List.nil_infix

/-- Codec lists survive exactly where there is a codec and no line break in the parameters, and
    the protocol is one word. -/
theorem codecs_survive_iff
    (distinct : (rtpmaps.map Rtpmap.typeNumber).Nodup)
    (dynamic : ∀ rtpmap ∈ rtpmaps,
      rtpmap.typeNumber ≠ 0 ∧ rtpmap.typeNumber ≠ 8 ∧ rtpmap.typeNumber ≠ 9)
    (plain : ∀ rtpmap ∈ rtpmaps, '/' ∉ rtpmap.params)
    (texts : ∀ rtpmap ∈ rtpmaps, Unbroken '\r' '\n' rtpmap.fmtp ∧
      ∀ feedback ∈ rtpmap.rtcpFeedbacks, Unbroken '\r' '\n' feedback) :
    ((MediaDescription.fromStr (built mediaType port numPorts proto rtpmaps).toString).map
          MediaDescription.getRtpmaps = .ok (rtpmaps.map Rtpmap.heard) ∧
        MediaDescription.fromStr (built mediaType port numPorts proto rtpmaps).toString =
          .ok (built mediaType port numPorts proto rtpmaps)) ↔
      Clean proto rtpmaps := by
  constructor
  · rintro ⟨_, same⟩
    obtain ⟨word, whole, values⟩ := fromStr_inv same
    rw [built_eq] at word whole values
    have params : ∀ rtpmap ∈ rtpmaps, Unbroken '\r' '\n' rtpmap.params := by
      intro rtpmap member
      have inside : typeAttribute "rtpmap".toList rtpmap rtpmap.codec ∈
          rtpmaps.flatMap Rtpmap.attributes :=
        List.mem_flatMap.mpr ⟨rtpmap, member, List.mem_cons_self⟩
      exact (values _ inside _ rfl).part (params_part rtpmap)
    refine ⟨?_, params, word, whole⟩
    rintro rfl
    rw [built_printed params texts word whole] at same
    have payloads := congrArg MediaDescription.payloads (Except.ok.inj same)
    exact List.splitOn_ne_nil ' ' _ payloads
  · rintro ⟨some_, params, word, whole⟩
    have same : MediaDescription.fromStr (built mediaType port numPorts proto rtpmaps).toString =
        .ok (built mediaType port numPorts proto rtpmaps) := by
      rw [built_printed params texts word whole, payloads_printed some_, built_eq]
    refine ⟨?_, same⟩
    rw [same]
    refine congrArg Except.ok (getRtpmaps_listed ?_ ?_ distinct dynamic plain)
    · rw [built_eq]
    · rw [built_eq]

def webCodecs : List Rtpmap :=
  [{ name := .opus, rate := 48000, typeNumber := 111, params := ['2'], fmtp := "minptime=10".toList },
    { name := .vp8, rate := 90000, typeNumber := 96, rtcpFeedbacks := ["nack pli".toList] }]

theorem webCodecs_survive :
    (MediaDescription.fromStr (built .video 9998 0 "RTP/AVP".toList webCodecs).toString).map
          MediaDescription.getRtpmaps = .ok webCodecs ∧
      MediaDescription.fromStr (built .video 9998 0 "RTP/AVP".toList webCodecs).toString =
        .ok (built .video 9998 0 "RTP/AVP".toList webCodecs) :=
  (codecs_survive_iff (by decide) (by decide) (by decide) (by decide)).mpr (by
    unfold Clean
    decide)

/-- A description without payloads is read back with an empty one. -/
theorem noCodecs_spoilt : ¬ ∀ (mediaType : MediaType) (port : UInt16) (numPorts : UInt32)
    (proto : Text) (rtpmaps : List Rtpmap), Unbroken '\r' '\n' proto → ' ' ∉ proto →
      (rtpmaps.map Rtpmap.typeNumber).Nodup →
      (∀ rtpmap ∈ rtpmaps, Unbroken '\r' '\n' rtpmap.params ∧ '/' ∉ rtpmap.params ∧
        (rtpmap.typeNumber ≠ 0 ∧ rtpmap.typeNumber ≠ 8 ∧ rtpmap.typeNumber ≠ 9) ∧
        Unbroken '\r' '\n' rtpmap.fmtp ∧
        ∀ feedback ∈ rtpmap.rtcpFeedbacks, Unbroken '\r' '\n' feedback) →
      MediaDescription.fromStr (built mediaType port numPorts proto rtpmaps).toString =
        .ok (built mediaType port numPorts proto rtpmaps) := by
  intro survives
  have read := survives .audio 9 0 "RTP/AVP".toList [] (by decide) (by decide) (by decide) (by decide)
  exact absurd read (by decide +kernel)

end Survival

end Sdp
