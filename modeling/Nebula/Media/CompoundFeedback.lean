import Nebula.Lib.ByteStrings

/- A compound RTCP packet at the receiver of a video stream: its elements are cut out one after
   the other by the length in each header, read, and sent on. The readers of an element's content
   and the codec of its header are those of the rtcp crate. -/
namespace CompoundFeedback
open ByteStrings

section Model

inductive PacketType where
  | unsupported
  | senderReport
  | receiverReport
  | sourceDescription
  | goodbye
  | applicationDefined
  | transportSpecificFeedback
  | payloadSpecificFeedback
  deriving DecidableEq

structure Header where
  count : UInt8
  packetType : PacketType
  length : UInt16
  deriving DecidableEq

structure PictureLossIndication where
  senderSsrc : UInt32
  mediaSsrc : UInt32
  deriving DecidableEq

/-- The packets whose content the receiver does not look at. -/
inductive Other where
  | senderReport
  | receiverReport
  | sourceDescription
  | goodbye
  | rapidResynchronizationRequest
  | fullIntraRequest
  | sliceLossIndication
  | receiverEstimatedMaximumBitrate
  deriving DecidableEq

variable {Nack Cc Uuid Time : Type}

inductive RtcpPacket (Nack Cc : Type) where
  | transportLayerNack (nack : Nack)
  | transportLayerCc (cc : Cc)
  | pictureLossIndication (pli : PictureLossIndication)
  | other (kind : Other)

/-- What the rtcp crate does: one reader for each kind of packet. -/
structure Crate (Nack Cc : Type) where
  header : Bytes → Except String Header
  nack : Bytes → Except String Nack
  cc : Bytes → Except String Cc
  pli : Bytes → Except String PictureLossIndication
  other : Other → Bytes → Except String Unit
  marshal : PictureLossIndication → Except String Bytes

def FORMAT_TLN : UInt8 := 1
def FORMAT_RRR : UInt8 := 5
def FORMAT_TCC : UInt8 := 15
def FORMAT_PLI : UInt8 := 1
def FORMAT_SLI : UInt8 := 2
def FORMAT_FIR : UInt8 := 4
def FORMAT_REMB : UInt8 := 15

def RTCP_HEADER_LEN : Nat := 4

def Crate.readOther (crate : Crate Nack Cc) (kind : Other) (buf : Bytes) :
    Except String (RtcpPacket Nack Cc) :=
  (crate.other kind buf).map fun _ => .other kind

def unmarshal (crate : Crate Nack Cc) (buf : Bytes) : Except String (RtcpPacket Nack Cc) := do
  let header ← crate.header buf
  match header.packetType with
  | .unsupported => .error "unsupported rtcp type"
  | .senderReport => crate.readOther .senderReport buf
  | .receiverReport => crate.readOther .receiverReport buf
  | .sourceDescription => crate.readOther .sourceDescription buf
  | .goodbye => crate.readOther .goodbye buf
  | .applicationDefined => .error "unsupported rtcp type"
  | .transportSpecificFeedback =>
    if header.count = FORMAT_TLN then (crate.nack buf).map .transportLayerNack
    else if header.count = FORMAT_TCC then (crate.cc buf).map .transportLayerCc
    else if header.count = FORMAT_RRR then crate.readOther .rapidResynchronizationRequest buf
    else .error "unsupported rtcp type"
  | .payloadSpecificFeedback =>
    if header.count = FORMAT_FIR then crate.readOther .fullIntraRequest buf
    else if header.count = FORMAT_SLI then crate.readOther .sliceLossIndication buf
    else if header.count = FORMAT_PLI then (crate.pli buf).map .pictureLossIndication
    else if header.count = FORMAT_REMB then crate.readOther .receiverEstimatedMaximumBitrate buf
    else .error "unsupported rtcp type"

/-- What the receiver reads of itself. A codec is set for the video of a peer. -/
structure Receiver (Uuid : Type) where
  id : Uuid
  codec : Bool
  allocatedSsrcs : List (UInt32 × Uuid × UInt32)
  decrypt : Option (Bytes → Except String Bytes)

inductive Sent (Nack Cc Uuid Time : Type) where
  | requestKeyframe (id : Uuid)
  | rtcpPacket (uuid : Uuid) (packet : Bytes)
  | transportLayerNack (id : Uuid) (nack : Nack) (now : Time)
  | transportLayerCc (id : Uuid) (cc : Cc) (now : Time)
  deriving DecidableEq

def handle (crate : Crate Nack Cc) (receiver : Receiver Uuid) (now : Time) :
    RtcpPacket Nack Cc → Except String (List (Sent Nack Cc Uuid Time))
  | .pictureLossIndication pli =>
    if receiver.codec then .ok [.requestKeyframe receiver.id]
    else match receiver.allocatedSsrcs.lookup pli.mediaSsrc with
      | some (uuid, ssrc) =>
        (crate.marshal { pli with mediaSsrc := ssrc }).map fun packet => [.rtcpPacket uuid packet]
      | none => .ok []
  | .transportLayerNack nack => .ok [.transportLayerNack receiver.id nack now]
  | .transportLayerCc cc => .ok [.transportLayerCc receiver.id cc now]
  | .other _ => .ok []

/-- What is sent for the elements of a buffer, and whether all of it was read. -/
def receiveElements (crate : Crate Nack Cc) (receiver : Receiver Uuid) (now : Time) (buf : Bytes) :
    List (Sent Nack Cc Uuid Time) × Except String Unit :=
  if 0 < buf.length then
    match crate.header buf with
    | .error text => ([], .error text)
    | .ok header =>
      let len := header.length.toNat * 4 + RTCP_HEADER_LEN
      if buf.length < len then ([], .error "rtcp packet too short")
      else
        match (unmarshal crate (buf.take len)).bind (handle crate receiver now) with
        | .error text => ([], .error text)
        | .ok sent =>
          let later := receiveElements crate receiver now (buf.drop len)
          (sent ++ later.1, later.2)
  else ([], .ok ())
termination_by buf.length
decreasing_by
  simp only [List.length_drop, RTCP_HEADER_LEN]
  omega

def plain (receiver : Receiver Uuid) (rtcpPacket : Bytes) : Except String Bytes :=
  match receiver.decrypt with
  | some decrypt => decrypt rtcpPacket
  | none => .ok rtcpPacket

def receiveRtcpPacket (crate : Crate Nack Cc) (receiver : Receiver Uuid) (now : Time)
    (rtcpPacket : Bytes) : List (Sent Nack Cc Uuid Time) × Except String Unit :=
  match plain receiver rtcpPacket with
  | .error text => ([], .error text)
  | .ok buf => receiveElements crate receiver now buf

end Model

section Forwarding

variable {Nack Cc Uuid Time : Type}

/-- A header is read from its own four bytes, and a picture loss indication can be written. -/
structure Documented (crate : Crate Nack Cc) : Prop where
  header : ∀ element rest : Bytes, RTCP_HEADER_LEN ≤ element.length →
    crate.header (element ++ rest) = crate.header element
  marshal : ∀ pli, ∃ packet, crate.marshal pli = .ok packet

/-- The length in its header is that of the element. -/
def Delimited (crate : Crate Nack Cc) (element : Bytes) : Prop :=
  ∃ header, crate.header element = .ok header ∧
    element.length = header.length.toNat * 4 + RTCP_HEADER_LEN

/-- What is to be sent for an element: a NACK or a transport-wide feedback under the receiver's
    own id, a picture loss indication to the peer or to the source it is about. -/
def forwarded (crate : Crate Nack Cc) (receiver : Receiver Uuid) (now : Time) (element : Bytes) :
    List (Sent Nack Cc Uuid Time) :=
  match unmarshal crate element with
  | .ok (.transportLayerNack nack) => [.transportLayerNack receiver.id nack now]
  | .ok (.transportLayerCc cc) => [.transportLayerCc receiver.id cc now]
  | .ok (.pictureLossIndication pli) =>
    if receiver.codec then [.requestKeyframe receiver.id]
    else
      ((receiver.allocatedSsrcs.lookup pli.mediaSsrc).bind fun source =>
        (crate.marshal { pli with mediaSsrc := source.2 }).toOption.map fun packet =>
          Sent.rtcpPacket source.1 packet).toList
  | .ok (.other _) => []
  | .error _ => []

def Unreadable (crate : Crate Nack Cc) (element : Bytes) : Prop :=
  ∃ text, unmarshal crate element = .error text

/-- No element that cannot be read stands before one that something is to be sent for. -/
def NothingHidden (crate : Crate Nack Cc) (receiver : Receiver Uuid) (now : Time)
    (elements : List Bytes) : Prop :=
  ∀ before element after, elements = before ++ element :: after → Unreadable crate element →
    ∀ later ∈ after, forwarded crate receiver now later = []

variable {crate : Crate Nack Cc} {receiver : Receiver Uuid} {now : Time}

theorem handle_forwarded (documented : Documented crate) {element : Bytes}
    {rtcp : RtcpPacket Nack Cc} (read : unmarshal crate element = .ok rtcp) :
    handle crate receiver now rtcp = .ok (forwarded crate receiver now element) := by
  unfold forwarded
  rw [read]
  cases rtcp with
  | transportLayerNack nack => rfl
  | transportLayerCc cc => rfl
  | other kind => rfl
  | pictureLossIndication pli =>
    unfold handle
    by_cases peer : receiver.codec = true
    · simp [peer]
    · cases route : receiver.allocatedSsrcs.lookup pli.mediaSsrc with
      | none => simp [peer, route]
      | some source =>
        obtain ⟨uuid, ssrc⟩ := source
        obtain ⟨packet, written⟩ := documented.marshal { pli with mediaSsrc := ssrc }
        simp [peer, route, written, Except.map, Except.toOption]

theorem forwarded_unreadable {element : Bytes} (unreadable : Unreadable crate element) :
    forwarded crate receiver now element = [] := by
  obtain ⟨text, failed⟩ := unreadable
  rw [forwarded, failed]

/-- One round of the loop: the first element is read, and the loop ends with it or goes on. -/
theorem receiveElements_cons (documented : Documented crate) {element : Bytes}
    (delimited : Delimited crate element) (rest : Bytes) :
    (Unreadable crate element ∧ (receiveElements crate receiver now (element ++ rest)).1 = []) ∨
      (¬ Unreadable crate element ∧ (receiveElements crate receiver now (element ++ rest)).1 =
        forwarded crate receiver now element ++ (receiveElements crate receiver now rest).1) := by
  obtain ⟨header, read, long⟩ := delimited
  have four : RTCP_HEADER_LEN ≤ element.length := by omega
  have some_ : 0 < (element ++ rest).length := by
    rw [List.length_append, long, RTCP_HEADER_LEN]
    omega
  have whole : ¬ (element ++ rest).length < header.length.toNat * 4 + RTCP_HEADER_LEN := by
    rw [List.length_append, long]
    omega
  rw [receiveElements, if_pos some_, documented.header element rest four, read]
  simp only [if_neg whole]
  rw [← long, List.take_left, List.drop_left]
  cases answer : unmarshal crate element with
  | error text => exact Or.inl ⟨⟨text, answer⟩, rfl⟩
  | ok rtcp =>
    refine Or.inr ⟨?_, ?_⟩
    · rintro ⟨text, failed⟩
      rw [answer] at failed
      cases failed
    · have sent : (Except.ok rtcp : Except String (RtcpPacket Nack Cc)).bind
          (handle crate receiver now) = .ok (forwarded crate receiver now element) :=
        handle_forwarded documented answer
      simp only [sent]

theorem nothingHidden_cons (element : Bytes) (rest : List Bytes) :
    NothingHidden crate receiver now (element :: rest) ↔
      (Unreadable crate element → ∀ later ∈ rest, forwarded crate receiver now later = []) ∧
        NothingHidden crate receiver now rest := by
  constructor
  · intro nothing
    refine ⟨nothing [] element rest rfl, ?_⟩
    intro before other after shape
    exact nothing (element :: before) other after (by rw [shape, List.cons_append])
  · rintro ⟨first, others⟩ before other after shape
    cases before with
    | nil =>
      obtain ⟨rfl, rfl⟩ := List.cons.inj shape
      exact first
    | cons head before => exact others before other after (List.cons.inj shape).2

theorem receiveElements_iff (documented : Documented crate) (elements : List Bytes)
    (delimited : ∀ element ∈ elements, Delimited crate element) :
    (receiveElements crate receiver now elements.flatten).1 =
        elements.flatMap (forwarded crate receiver now) ↔
      NothingHidden crate receiver now elements := by
  induction elements with
  | nil =>
    constructor
    · intro _ before element after shape
      exact absurd shape.symm (List.append_ne_nil_of_right_ne_nil _ (List.cons_ne_nil _ _))
    · intro _
      rw [List.flatten_nil, receiveElements]
      simp
  | cons element rest ih =>
    have others := ih fun other member => delimited other (.tail _ member)
    rw [nothingHidden_cons, List.flatten_cons, List.flatMap_cons]
    rcases receiveElements_cons documented (delimited element List.mem_cons_self) rest.flatten with
      ⟨unreadable, ended⟩ | ⟨readable, goes⟩
    · rw [ended, forwarded_unreadable unreadable, List.nil_append, eq_comm,
        List.flatMap_eq_nil_iff]
      constructor
      · intro nothing
        refine ⟨fun _ => nothing, ?_⟩
        rintro before other after rfl - later member
        exact nothing later (List.mem_append_right _ (.tail _ member))
      · intro hidden
        exact hidden.1 unreadable
    · rw [goes, List.append_cancel_left_eq, others]
      simp [readable]

end Forwarding

section Wire

structure NackPair where
  packetId : Nat
  lostPackets : Nat
  deriving DecidableEq

structure TransportLayerNack where
  senderSsrc : UInt32
  mediaSsrc : UInt32
  nacks : List NackPair
  deriving DecidableEq

def packetTypeOf (byte : UInt8) : PacketType :=
  if byte = 200 then .senderReport
  else if byte = 201 then .receiverReport
  else if byte = 202 then .sourceDescription
  else if byte = 203 then .goodbye
  else if byte = 204 then .applicationDefined
  else if byte = 205 then .transportSpecificFeedback
  else if byte = 206 then .payloadSpecificFeedback
  else .unsupported

def readHeader : Bytes → Except String Header
  | b0 :: b1 :: b2 :: b3 :: _ =>
    if b0 >>> 6 = 2 then .ok ⟨b0 &&& 0x1f, packetTypeOf b1, UInt16.ofNat (word16 b2 b3)⟩
    else .error "Invalid packet version"
  | _ => .error "Packet is too short to be read"

def pairs : Bytes → List NackPair
  | a :: b :: c :: d :: rest => ⟨word16 a b, word16 c d⟩ :: pairs rest
  | _ => []

def ssrcOf (a b c d : UInt8) : UInt32 := UInt32.ofNat (word16 a b * 65536 + word16 c d)

def ssrcBytes (ssrc : UInt32) : Bytes := bytes32 ssrc.toNat

def readNack : Bytes → Except String TransportLayerNack
  | _ :: _ :: _ :: _ :: s0 :: s1 :: s2 :: s3 :: m0 :: m1 :: m2 :: m3 :: rest =>
    .ok ⟨ssrcOf s0 s1 s2 s3, ssrcOf m0 m1 m2 m3, pairs rest⟩
  | _ => .error "Packet is too short to be read"

def readPli : Bytes → Except String PictureLossIndication
  | _ :: _ :: _ :: _ :: s0 :: s1 :: s2 :: s3 :: m0 :: m1 :: m2 :: m3 :: _ =>
    .ok ⟨ssrcOf s0 s1 s2 s3, ssrcOf m0 m1 m2 m3⟩
  | _ => .error "Packet is too short to be read"

/-- Headers, NACKs and picture loss indications on the wire; nothing else is read. -/
def wire : Crate TransportLayerNack Empty where
  header := readHeader
  nack := readNack
  cc := fun _ => .error "Packet is too short to be read"
  pli := readPli
  other := fun _ _ => .error "Packet is too short to be read"
  marshal := fun pli =>
    .ok ([0x81, 206, 0, 2] ++ ssrcBytes pli.senderSsrc ++ ssrcBytes pli.mediaSsrc)

theorem wire_documented : Documented wire where
  header element rest long := by
    rcases element with _ | ⟨b0, _ | ⟨b1, _ | ⟨b2, _ | ⟨b3, element⟩⟩⟩⟩
    · simp [RTCP_HEADER_LEN] at long
    · simp [RTCP_HEADER_LEN] at long
    · simp [RTCP_HEADER_LEN] at long
    · simp [RTCP_HEADER_LEN] at long
    · rfl
  marshal _ := ⟨_, rfl⟩

/-- A receiver in a room, which has source 9 allocated under SSRC 5. -/
def inRoom : Receiver Nat := ⟨1, false, [(5, 9, 77)], none⟩

def appElement : Bytes := [0x80, 204, 0, 2, 0, 0, 0, 1, 110, 97, 109, 101]

def pliElement : Bytes := [0x81, 206, 0, 2, 0, 0, 0, 1, 0, 0, 0, 5]

def nackElement : Bytes := [0x81, 205, 0, 3, 0, 0, 0, 1, 0, 0, 0, 5, 0, 100, 0, 3]

theorem elements_delimited :
    ∀ element ∈ [appElement, pliElement, nackElement], Delimited wire element := by
  have app : Delimited wire appElement := ⟨⟨0, .applicationDefined, 2⟩, by rfl, by decide⟩
  have pli : Delimited wire pliElement := ⟨⟨1, .payloadSpecificFeedback, 2⟩, by rfl, by decide⟩
  have nack : Delimited wire nackElement :=
    ⟨⟨1, .transportSpecificFeedback, 3⟩, by rfl, by decide⟩
  simp [app, pli, nack]

end Wire

section Compound

variable {Nack Cc Uuid Time : Type} {crate : Crate Nack Cc} {receiver : Receiver Uuid} {now : Time}

/-- All that is to be sent for a compound packet is sent, once and in order, exactly where no
    element that cannot be read stands before one that something is to be sent for. -/
theorem receiveRtcpPacket_iff (documented : Documented crate) (elements : List Bytes)
    (delimited : ∀ element ∈ elements, Delimited crate element) {rtcpPacket : Bytes}
    (decrypted : plain receiver rtcpPacket = .ok elements.flatten) :
    (receiveRtcpPacket crate receiver now rtcpPacket).1 =
        elements.flatMap (forwarded crate receiver now) ↔
      NothingHidden crate receiver now elements := by
  rw [receiveRtcpPacket, decrypted]
  exact receiveElements_iff documented elements delimited

/-- A picture loss indication and a NACK. -/
theorem receiveRtcpPacket_iff_pli_nack :
    (receiveRtcpPacket wire inRoom 0 [pliElement, nackElement].flatten).1 =
        [pliElement, nackElement].flatMap (forwarded wire inRoom 0) ↔
      NothingHidden wire inRoom 0 [pliElement, nackElement] :=
  receiveRtcpPacket_iff wire_documented [pliElement, nackElement]
    (fun element member => elements_delimited element (.tail _ member)) rfl

/-- An application-defined element before a NACK. -/
theorem app_hides_nack : ¬ ∀ elements : List Bytes,
    (∀ element ∈ elements, Delimited wire element) →
      (receiveRtcpPacket wire inRoom 0 elements.flatten).1 =
        elements.flatMap (forwarded wire inRoom 0) := by
  intro always
  have delimited : ∀ element ∈ [appElement, nackElement], Delimited wire element := by
    intro element member
    refine elements_delimited element ?_
    simp only [List.mem_cons, List.not_mem_nil, or_false] at member ⊢
    tauto
  have nothing := (receiveElements_iff wire_documented _ delimited).mp (always _ delimited)
  have hidden := nothing [] appElement [nackElement] rfl ⟨"unsupported rtcp type", rfl⟩ nackElement
    List.mem_cons_self
  cases hidden

end Compound

end CompoundFeedback
