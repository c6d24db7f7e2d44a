import Nebula.Lib.ByteStrings

/- Depacketizing H.264: the payloads of RTP packets are collected into an Annex B byte string,
   which goes to the decoder at the marker. -/
namespace H264Codec
open ByteStrings

section Model

structure H264 where
  nalBuf : Bytes
  timestamp : Option UInt32
  deriving DecidableEq

def H264.new : H264 := ⟨[], none⟩

def startCode : Bytes := [0, 0, 0, 1]

/-- The NAL buffer after a fragment, and whether the fragment is in order. -/
def fuA (nalBuf : Bytes) (naluIdc : UInt8) (rest : Bytes) (marker : Bool) :
    Bytes × Outcome Unit :=
  match rest with
  | [] => (nalBuf, .error .panic)
  | second :: payload =>
    let start := second &&& 0x80
    let ends := if marker then 1 else second &&& 0x40
    let naluType := second &&& 0x1f
    if 0 < start ∧ 0 < ends then
      (nalBuf, .error (.error "FU-A packet be start and end at the same time"))
    else
      let nalBuf :=
        if 0 < start then nalBuf ++ startCode ++ [naluType ||| (naluIdc <<< 5)] else nalBuf
      (nalBuf ++ payload, .ok ())

/-- The units of an aggregate, from what is left of the packet; units before a bad size stay. -/
def stapA (nalBuf : Bytes) : Bytes → Bytes × Outcome Unit
  | high :: low :: third :: rest =>
    let naluSize := word16 high low
    if (third :: rest).length < naluSize then (nalBuf, .error (.error "invalid STAP-A packet"))
    else
      stapA (nalBuf ++ startCode ++ (third :: rest).take naluSize) ((third :: rest).drop naluSize)
  | _ => (nalBuf, .ok ())
termination_by left => left.length

def unpack (nalBuf : Bytes) (header : UInt8) (rest : Bytes) (marker : Bool) :
    Bytes × Outcome Unit :=
  if header &&& 0x1f = 28 then fuA nalBuf ((header &&& 0x60) >>> 5) rest marker
  else if header &&& 0x1f = 24 then stapA nalBuf rest
  else (nalBuf ++ startCode ++ (header :: rest), .ok ())

def isParameterSet (header : UInt8) : Bool :=
  header &&& 0x1f = 7 ∨ header &&& 0x1f = 8

/-- The bytes of a result are those the decoder is sent. -/
def decode (decoder : H264) (pkt : Bytes) (timestamp : UInt32) (marker : Bool) :
    H264 × Outcome Bytes :=
  match pkt with
  | [] => (decoder, .error (.error "pkt is empty"))
  | header :: rest =>
    let decoder :=
      if decoder.nalBuf = [] then { decoder with timestamp := some timestamp } else decoder
    if decoder.timestamp ≠ some timestamp then
      (decoder, .error (.error "timestamp not the same, packet loss happened"))
    else
      -- some phones send their parameter sets with the marker
      let marker := if isParameterSet header && marker then false else marker
      let unpacked := unpack decoder.nalBuf header rest marker
      match unpacked.2 with
      | .error fault => ({ decoder with nalBuf := unpacked.1 }, .error fault)
      | .ok _ =>
        if !marker then
          ({ decoder with nalBuf := unpacked.1 }, .error (.error "video payload not finished yet"))
        else ({ decoder with nalBuf := [] }, .ok unpacked.1)

structure Packet where
  pkt : Bytes
  timestamp : UInt32
  marker : Bool

/-- The decoder after packets, and what it was sent meanwhile. -/
def receive (decoder : H264) : List Packet → H264 × List Bytes
  | [] => (decoder, [])
  | sent :: rest =>
    let step := decode decoder sent.pkt sent.timestamp sent.marker
    let later := receive step.1 rest
    (later.1, step.2.toOption.toList ++ later.2)

end Model

section Frames

structure Nal where
  header : UInt8
  payload : Bytes
  clear : header &&& 0x80 = 0
  type_pos : 1 ≤ header &&& 0x1f
  type_le : header &&& 0x1f ≤ 23

def Nal.bytes (nal : Nal) : Bytes := nal.header :: nal.payload

def annexB (nals : List Nal) : Bytes := nals.flatMap fun nal => startCode ++ nal.bytes

/-- A part of a unit with its two header bytes; 0x80 marks the first part and 0x40 the last. -/
def fragment (header position : UInt8) (chunk : Bytes) : Bytes :=
  ((header &&& 0x60) ||| 28) :: (position ||| (header &&& 0x1f)) :: chunk

/-- What a sender puts units into: a packet of one, a packet of several, or several packets of
    one. -/
inductive Item where
  | single (nal : Nal)
  | aggregate (header : UInt8) (nals : List Nal) (stap : header &&& 0x1f = 24)
      (fits : ∀ nal ∈ nals, nal.bytes.length < 65536)
  | fragments (nal : Nal) (first : Bytes) (middle : List Bytes) (last : Bytes)
      (whole : first ++ middle.flatten ++ last = nal.payload)

def Item.nals : Item → List Nal
  | single nal => [nal]
  | aggregate _ nals _ _ => nals
  | fragments nal _ _ _ _ => [nal]

def Item.packets : Item → List Bytes
  | single nal => [nal.bytes]
  | aggregate header nals _ _ =>
    [header :: nals.flatMap fun nal => bytes16 nal.bytes.length ++ nal.bytes]
  | fragments nal first middle last _ =>
    fragment nal.header 0x80 first :: middle.map (fragment nal.header 0) ++
      [fragment nal.header 0x40 last]

def Item.isParameterSet : Item → Bool
  | single nal => H264Codec.isParameterSet nal.header
  | _ => false

/-- A frame is never empty, as its last item says. -/
structure Frame where
  before : List Item
  last : Item

def Frame.nals (frame : Frame) : List Nal := (frame.before ++ [frame.last]).flatMap Item.nals

/-- Packets of one timestamp, with the marker on the last. -/
def marked (timestamp : UInt32) : List Bytes → List Packet
  | [] => []
  | [pkt] => [⟨pkt, timestamp, true⟩]
  | pkt :: next :: rest => ⟨pkt, timestamp, false⟩ :: marked timestamp (next :: rest)

def Frame.packets (frame : Frame) (timestamp : UInt32) : List Packet :=
  marked timestamp ((frame.before ++ [frame.last]).flatMap Item.packets)

end Frames

section Fragments

theorem fragment_type (header : UInt8) : ((header &&& 0x60) ||| 28) &&& 0x1f = 28 := by
  revert header
  apply forall_byte
  decide +kernel

theorem fragment_header (header : UInt8) : header &&& 0x80 = 0 →
    (header &&& 0x1f) |||
      (((((header &&& 0x60) ||| 28) &&& 0x60) >>> (5 : UInt8)) <<< (5 : UInt8)) = header := by
  revert header
  apply forall_byte
  decide +kernel

theorem first_flags (header : UInt8) : let second := 0x80 ||| (header &&& 0x1f)
    0 < second &&& 0x80 ∧ ¬ 0 < second &&& 0x40 ∧ second &&& 0x1f = header &&& 0x1f := by
  revert header
  apply forall_byte
  decide +kernel

theorem later_flags (header : UInt8) : ¬ 0 < (0 ||| (header &&& 0x1f)) &&& 0x80 ∧
    ¬ 0 < (0x40 ||| (header &&& 0x1f)) &&& 0x80 := by
  revert header
  apply forall_byte
  decide +kernel

theorem not_parameterSet (header : UInt8) : header &&& 0x1f = 28 ∨ header &&& 0x1f = 24 →
    isParameterSet header = false := by
  revert header
  apply forall_byte
  decide +kernel

theorem single_type (nal : Nal) :
    nal.header &&& 0x1f ≠ 28 ∧ nal.header &&& 0x1f ≠ 24 := by
  have bound := nal.type_le
  constructor
  · intro same
    rw [same] at bound
    exact absurd bound (by decide)
  · intro same
    rw [same] at bound
    exact absurd bound (by decide)

theorem first_added (nal : Nal) (chunk nalBuf : Bytes) :
    fuA nalBuf ((((nal.header &&& 0x60) ||| 28) &&& 0x60) >>> 5)
        ((0x80 ||| (nal.header &&& 0x1f)) :: chunk) false =
      (nalBuf ++ (startCode ++ nal.header :: chunk), .ok ()) := by
  obtain ⟨start, whole, type⟩ := first_flags nal.header
  simp [fuA, start, whole, type, fragment_header _ nal.clear]

theorem later_added (idc second : UInt8) (chunk nalBuf : Bytes) (marker : Bool)
    (later : ¬ 0 < second &&& 0x80) :
    fuA nalBuf idc (second :: chunk) marker = (nalBuf ++ chunk, .ok ()) := by
  simp [fuA, later]

end Fragments

section Aggregates

theorem stapA_unit (nalBuf : Bytes) (nal : Nal) (fits : nal.bytes.length < 65536) (rest : Bytes) :
    stapA nalBuf (bytes16 nal.bytes.length ++ nal.bytes ++ rest) =
      stapA (nalBuf ++ (startCode ++ nal.bytes)) rest := by
  have size := word16_bytes nal.bytes.length
  rw [Nat.mod_eq_of_lt fits] at size
  have front : bytes16 nal.bytes.length ++ nal.bytes ++ rest =
      UInt8.ofNat (nal.bytes.length / 256) :: UInt8.ofNat nal.bytes.length ::
        nal.header :: (nal.payload ++ rest) := rfl
  have body : nal.header :: (nal.payload ++ rest) = nal.bytes ++ rest := rfl
  rw [front, stapA]
  simp only [size, body]
  rw [if_neg (by simp), List.take_left, List.drop_left, List.append_assoc]

theorem stapA_units (nalBuf : Bytes) (nals : List Nal)
    (fits : ∀ nal ∈ nals, nal.bytes.length < 65536) :
    stapA nalBuf (nals.flatMap fun nal => bytes16 nal.bytes.length ++ nal.bytes) =
      (nalBuf ++ annexB nals, .ok ()) := by
  induction nals generalizing nalBuf with
  | nil => simp [stapA, annexB]
  | cons nal rest ih =>
    have first := stapA_unit nalBuf nal (fits nal List.mem_cons_self)
    rw [List.flatMap_cons, first, ih _ fun other member => fits other (.tail _ member)]
    simp only [annexB, List.flatMap_cons, List.append_assoc]

end Aggregates

section Packets

theorem decode_refused {decoder : H264} {timestamp : UInt32} (held : decoder.nalBuf ≠ [])
    (other : decoder.timestamp ≠ some timestamp) (pkt : Bytes) (marker : Bool) :
    (decode decoder pkt timestamp marker).1 = decoder ∧
      (decode decoder pkt timestamp marker).2.toOption = none := by
  cases pkt with
  | nil => exact ⟨rfl, rfl⟩
  | cons header rest => simp [decode, held, other, Except.toOption]

theorem receive_refused {decoder : H264} {timestamp : UInt32} (held : decoder.nalBuf ≠ [])
    (other : decoder.timestamp ≠ some timestamp) (packets : List Packet)
    (same : ∀ sent ∈ packets, sent.timestamp = timestamp) :
    receive decoder packets = (decoder, []) := by
  induction packets with
  | nil => rfl
  | cons sent rest ih =>
    have stamp := same sent List.mem_cons_self
    obtain ⟨kept, nothing⟩ := decode_refused held other sent.pkt sent.marker
    have later := ih fun next member => same next (.tail _ member)
    simp only [receive, stamp, kept, nothing, later, Option.toList_none, List.append_nil]

/-- A decoder that a packet of this timestamp is not refused by. -/
def H264.Accepts (decoder : H264) (timestamp : UInt32) : Prop :=
  decoder.nalBuf = [] ∨ decoder.timestamp = some timestamp

theorem H264.Accepts.stamped {decoder : H264} {timestamp : UInt32}
    (accepts : decoder.Accepts timestamp) :
    (if decoder.nalBuf = [] then { decoder with timestamp := some timestamp } else decoder) =
      ⟨decoder.nalBuf, some timestamp⟩ := by
  obtain ⟨nalBuf, old⟩ := decoder
  rcases accepts with empty | same
  · simp_all
  · simp_all

theorem decode_taken {decoder : H264} {timestamp : UInt32} (accepts : decoder.Accepts timestamp)
    {header : UInt8} {rest added : Bytes} {marker : Bool}
    (unpacked : unpack decoder.nalBuf header rest (!isParameterSet header && marker) =
      (decoder.nalBuf ++ added, .ok ())) :
    decode decoder (header :: rest) timestamp marker =
      if !isParameterSet header && marker then
        (⟨[], some timestamp⟩, .ok (decoder.nalBuf ++ added))
      else (⟨decoder.nalBuf ++ added, some timestamp⟩,
        .error (.error "video payload not finished yet")) := by
  have stamped := accepts.stamped
  have ends : (if isParameterSet header && marker then false else marker) =
      (!isParameterSet header && marker) := by
    cases isParameterSet header <;> cases marker <;> rfl
  simp only [decode, stamped, ends, unpacked]
  cases !isParameterSet header && marker <;> simp

/-- What a packet adds to the buffer, whatever that holds. -/
def Adds (marker : Bool) (pkt added : Bytes) : Prop :=
  ∃ header rest, pkt = header :: rest ∧ ∀ nalBuf,
    unpack nalBuf header rest (!isParameterSet header && marker) = (nalBuf ++ added, .ok ())

theorem fragment_adds {header position : UInt8} {chunk added : Bytes} {marker : Bool}
    (unpacked : ∀ nalBuf, fuA nalBuf ((((header &&& 0x60) ||| 28) &&& 0x60) >>> 5)
      ((position ||| (header &&& 0x1f)) :: chunk) marker = (nalBuf ++ added, .ok ())) :
    Adds marker (fragment header position chunk) added := by
  refine ⟨_, _, rfl, fun nalBuf => ?_⟩
  have kind := fragment_type header
  rw [not_parameterSet _ (Or.inl kind), unpack, if_pos kind]
  exact unpacked nalBuf

theorem aggregate_adds {header : UInt8} {nals : List Nal} (stap : header &&& 0x1f = 24)
    (fits : ∀ nal ∈ nals, nal.bytes.length < 65536) (marker : Bool) :
    Adds marker (header :: nals.flatMap fun nal => bytes16 nal.bytes.length ++ nal.bytes)
      (annexB nals) := by
  refine ⟨_, _, rfl, fun nalBuf => ?_⟩
  rw [unpack, if_neg (by rw [stap]; decide), if_pos stap]
  exact stapA_units nalBuf nals fits

theorem single_adds (nal : Nal) (marker : Bool) : Adds marker nal.bytes (annexB [nal]) := by
  refine ⟨_, _, rfl, fun nalBuf => ?_⟩
  obtain ⟨whole, alone⟩ := single_type nal
  rw [unpack, if_neg whole, if_neg alone]
  simp [annexB, Nal.bytes]

end Packets

section Frames

variable {timestamp : UInt32}

def unmarked (timestamp : UInt32) (packets : List Bytes) : List Packet :=
  packets.map fun pkt => ⟨pkt, timestamp, false⟩

theorem marked_append (before : List Bytes) {after : List Bytes} (some_ : after ≠ []) :
    marked timestamp (before ++ after) = unmarked timestamp before ++ marked timestamp after := by
  induction before with
  | nil => rfl
  | cons pkt rest ih =>
    obtain ⟨next, others, more⟩ := List.exists_cons_of_ne_nil
      (show rest ++ after ≠ [] from List.append_ne_nil_of_right_ne_nil rest some_)
    rw [List.cons_append, more, marked, ← more, ih]
    rfl

theorem receive_append (decoder : H264) (before after : List Packet) :
    receive decoder (before ++ after) =
      ((receive (receive decoder before).1 after).1,
        (receive decoder before).2 ++ (receive (receive decoder before).1 after).2) := by
  induction before generalizing decoder with
  | nil => rfl
  | cons sent rest ih => simp only [List.cons_append, receive, ih, List.append_assoc]

/-- Packets that are taken into the buffer, with nothing sent to the decoder. -/
def Opens (timestamp : UInt32) (packets : List Packet) (added : Bytes) : Prop :=
  ∀ decoder : H264, decoder.Accepts timestamp → ∃ next, receive decoder packets = (next, []) ∧
    next.nalBuf = decoder.nalBuf ++ added ∧ next.Accepts timestamp

/-- Packets after which the whole buffer is sent to the decoder. -/
def Closes (timestamp : UInt32) (packets : List Packet) (added : Bytes) : Prop :=
  ∀ decoder : H264, decoder.Accepts timestamp →
    receive decoder packets = (⟨[], some timestamp⟩, [decoder.nalBuf ++ added])

theorem Opens.nil : Opens timestamp [] [] :=
  fun decoder accepts => ⟨decoder, rfl, (List.append_nil _).symm, accepts⟩

theorem Opens.append {before after : List Packet} {first second : Bytes}
    (opens : Opens timestamp before first) (more : Opens timestamp after second) :
    Opens timestamp (before ++ after) (first ++ second) := by
  intro decoder accepts
  obtain ⟨middle, run, held, still⟩ := opens decoder accepts
  obtain ⟨last, later, all, open_⟩ := more middle still
  refine ⟨last, ?_, ?_, open_⟩
  · rw [receive_append, run, later]
    rfl
  · rw [all, held, List.append_assoc]

theorem Opens.closes {before after : List Packet} {first second : Bytes}
    (opens : Opens timestamp before first) (closes : Closes timestamp after second) :
    Closes timestamp (before ++ after) (first ++ second) := by
  intro decoder accepts
  obtain ⟨middle, run, held, still⟩ := opens decoder accepts
  rw [receive_append, run, closes middle still, held, List.append_assoc]
  rfl

theorem Adds.stays {marker : Bool} {pkt added : Bytes} (adds : Adds marker pkt added)
    (withheld : ∀ header rest, pkt = header :: rest → (!isParameterSet header && marker) = false) :
    Opens timestamp [⟨pkt, timestamp, marker⟩] added := by
  intro decoder accepts
  obtain ⟨header, rest, shape, unpacked⟩ := adds
  have taken := decode_taken accepts (unpacked decoder.nalBuf)
  rw [withheld header rest shape] at taken
  refine ⟨⟨decoder.nalBuf ++ added, some timestamp⟩, ?_, rfl, Or.inr rfl⟩
  simp [receive, shape, taken, Except.toOption]

theorem Adds.opens {pkt added : Bytes} (adds : Adds false pkt added) :
    Opens timestamp [⟨pkt, timestamp, false⟩] added :=
  adds.stays fun _ _ _ => Bool.and_false _

theorem Adds.closes {header : UInt8} {rest added : Bytes} (adds : Adds true (header :: rest) added)
    (plain : isParameterSet header = false) :
    Closes timestamp [⟨header :: rest, timestamp, true⟩] added := by
  intro decoder accepts
  obtain ⟨_, _, shape, unpacked⟩ := adds
  obtain ⟨rfl, rfl⟩ := List.cons.inj shape
  have taken := decode_taken accepts (unpacked decoder.nalBuf)
  simp [receive, taken, plain, Except.toOption]

theorem fragments_open (nal : Nal) (first : Bytes) (middle : List Bytes) :
    Opens timestamp
      (unmarked timestamp (fragment nal.header 0x80 first :: middle.map (fragment nal.header 0)))
      (startCode ++ nal.header :: (first ++ middle.flatten)) := by
  have start : Opens timestamp (unmarked timestamp [fragment nal.header 0x80 first])
      (startCode ++ nal.header :: first) :=
    (fragment_adds fun nalBuf => first_added nal first nalBuf).opens
  have rest : Opens timestamp (unmarked timestamp (middle.map (fragment nal.header 0)))
      middle.flatten := by
    induction middle with
    | nil => exact Opens.nil
    | cons chunk others ih =>
      exact (fragment_adds fun nalBuf =>
        later_added _ _ chunk nalBuf false (later_flags nal.header).1).opens.append ih
  have all := start.append rest
  rw [List.append_assoc] at all
  exact all

theorem fragments_whole {nal : Nal} {first last : Bytes} {middle : List Bytes}
    (whole : first ++ middle.flatten ++ last = nal.payload) :
    annexB [nal] = startCode ++ nal.header :: (first ++ middle.flatten) ++ last := by
  simp [annexB, Nal.bytes, ← whole]

theorem last_fragment_adds (nal : Nal) (chunk : Bytes) (marker : Bool) :
    Adds marker (fragment nal.header 0x40 chunk) chunk :=
  fragment_adds fun nalBuf => later_added _ _ chunk nalBuf marker (later_flags nal.header).2

theorem item_opens (item : Item) :
    Opens timestamp (unmarked timestamp item.packets) (annexB item.nals) := by
  cases item with
  | single nal => exact (single_adds nal false).opens
  | aggregate header nals stap fits => exact (aggregate_adds stap fits false).opens
  | fragments nal first middle last whole =>
    have opens : Opens timestamp (unmarked timestamp (fragment nal.header 0x80 first ::
        middle.map (fragment nal.header 0)) ++ unmarked timestamp [fragment nal.header 0x40 last])
        (startCode ++ nal.header :: (first ++ middle.flatten) ++ last) :=
      (fragments_open nal first middle).append (last_fragment_adds nal last false).opens
    rw [Item.packets, Item.nals, unmarked, List.map_append, fragments_whole whole]
    exact opens

theorem items_open (items : List Item) :
    Opens timestamp (unmarked timestamp (items.flatMap Item.packets))
      (annexB (items.flatMap Item.nals)) := by
  induction items with
  | nil => exact Opens.nil
  | cons item rest ih =>
    have both := (item_opens item).append ih
    rw [unmarked, unmarked, ← List.map_append, annexB, annexB, ← List.flatMap_append] at both
    exact both

theorem item_closes {item : Item} (plain : item.isParameterSet = false) :
    Closes timestamp (marked timestamp item.packets) (annexB item.nals) := by
  cases item with
  | single nal => exact (single_adds nal true).closes plain
  | aggregate header nals stap fits =>
    exact (aggregate_adds stap fits true).closes (not_parameterSet header (Or.inr stap))
  | fragments nal first middle last whole =>
    have closes : Closes timestamp (marked timestamp [fragment nal.header 0x40 last]) last :=
      (last_fragment_adds nal last true).closes
        (not_parameterSet _ (Or.inl (fragment_type nal.header)))
    rw [Item.packets, Item.nals, marked_append _ (List.cons_ne_nil _ _), fragments_whole whole]
    exact (fragments_open nal first middle).closes closes

theorem parameterSet_withheld {item : Item} (set : item.isParameterSet = true) :
    Opens timestamp (marked timestamp item.packets) (annexB item.nals) := by
  cases item with
  | single nal =>
    refine (single_adds nal true).stays fun header rest shape => ?_
    have own : isParameterSet header = true := (List.cons.inj shape).1 ▸ set
    rw [own]
    rfl
  | aggregate header nals stap fits => exact absurd set Bool.false_ne_true
  | fragments nal first middle last whole => exact absurd set Bool.false_ne_true

theorem Item.packets_ne_nil (item : Item) : item.packets ≠ [] := by
  cases item <;> simp [Item.packets]

theorem Frame.packets_eq (frame : Frame) : frame.packets timestamp =
    unmarked timestamp (frame.before.flatMap Item.packets) ++
      marked timestamp frame.last.packets := by
  rw [Frame.packets, List.flatMap_append, List.flatMap_singleton,
    marked_append _ frame.last.packets_ne_nil]

theorem Frame.nals_eq (frame : Frame) : annexB frame.nals =
    annexB (frame.before.flatMap Item.nals) ++ annexB frame.last.nals := by
  rw [Frame.nals, List.flatMap_append, List.flatMap_singleton]
  exact List.flatMap_append

theorem marked_timestamp (packets : List Bytes) :
    ∀ sent ∈ marked timestamp packets, sent.timestamp = timestamp := by
  fun_induction marked timestamp packets with
  | case1 => simp
  | case2 pkt => simp
  | case3 pkt next rest ih => simpa using ih

/-- A frame is sent to the decoder in full, after what the buffer held. -/
theorem frame_closes {frame : Frame} (plain : frame.last.isParameterSet = false) :
    Closes timestamp (frame.packets timestamp) (annexB frame.nals) := by
  rw [frame.packets_eq, frame.nals_eq]
  exact (items_open frame.before).closes (item_closes plain)

theorem frame_withheld {frame : Frame} (set : frame.last.isParameterSet = true) :
    Opens timestamp (frame.packets timestamp) (annexB frame.nals) := by
  rw [frame.packets_eq, frame.nals_eq]
  exact (items_open frame.before).append (parameterSet_withheld set)

end Frames

section Recovery

theorem decode_timestamp (decoder : H264) (pkt : Bytes) (timestamp : UInt32) (marker : Bool) :
    (decode decoder pkt timestamp marker).1.timestamp = decoder.timestamp ∨
      (decode decoder pkt timestamp marker).1.timestamp = some timestamp := by
  cases pkt with
  | nil => exact Or.inl rfl
  | cons header rest =>
    by_cases empty : decoder.nalBuf = []
    · right
      simp only [decode, empty, if_true]
      grind
    · left
      simp only [decode, empty, if_false]
      grind

theorem receive_timestamp {decoder : H264} {history : List Packet} {timestamp : UInt32}
    (old : decoder.timestamp ≠ some timestamp)
    (fresh : ∀ sent ∈ history, sent.timestamp ≠ timestamp) :
    (receive decoder history).1.timestamp ≠ some timestamp := by
  induction history generalizing decoder with
  | nil => exact old
  | cons sent rest ih =>
    refine ih ?_ fun next member => fresh next (.tail _ member)
    rcases decode_timestamp decoder sent.pkt sent.timestamp sent.marker with kept | stamped
    · rw [kept]
      exact old
    · rw [stamped]
      exact fun same => fresh sent List.mem_cons_self (Option.some.inj same)

/-- After any history, a frame of a new timestamp is decoded exactly where no bytes are left in
    the buffer; a frame that ends in a parameter set of its own never is. -/
theorem frame_decoded_iff (history : List Packet) (frame : Frame) (timestamp : UInt32)
    (fresh : ∀ sent ∈ history, sent.timestamp ≠ timestamp) :
    (receive (receive H264.new history).1 (frame.packets timestamp)).2 = [annexB frame.nals] ↔
      (receive H264.new history).1.nalBuf = [] ∧ frame.last.isParameterSet = false := by
  have other : (receive H264.new history).1.timestamp ≠ some timestamp :=
    receive_timestamp (Option.some_ne_none timestamp).symm fresh
  generalize (receive H264.new history).1 = decoder at other
  constructor
  · intro decoded
    have empty : decoder.nalBuf = [] := by
      by_contra held
      have ignored := receive_refused held other (frame.packets timestamp) (marked_timestamp _)
      rw [ignored] at decoded
      exact absurd decoded (List.cons_ne_nil _ _).symm
    refine ⟨empty, Bool.eq_false_iff.mpr fun set => ?_⟩
    obtain ⟨next, run, _⟩ := frame_withheld set decoder (Or.inl empty)
    rw [run] at decoded
    exact absurd decoded (List.cons_ne_nil _ _).symm
  · intro free
    rw [frame_closes free.2 decoder (Or.inl free.1), free.1]
    rfl

def slice (byte : UInt8) : Nal := ⟨0x65, [byte], by decide, by decide, by decide⟩

theorem second_frame_decoded :
    (receive (receive H264.new [⟨[0x65, 1], 1, true⟩]).1
      (Frame.packets ⟨[], .single (slice 2)⟩ 2)).2 = [[0, 0, 0, 1, 0x65, 2]] :=
  (frame_decoded_iff [⟨[0x65, 1], 1, true⟩] ⟨[], .single (slice 2)⟩ 2 (by decide)).mpr
    ⟨by decide, rfl⟩

/-- A lost marker leaves bytes in the buffer, and then no frame of another timestamp is taken. -/
theorem lost_marker_blocks :
    ¬ ∀ (history : List Packet) (frame : Frame) (timestamp : UInt32),
      (∀ sent ∈ history, sent.timestamp ≠ timestamp) →
      (receive H264.new (frame.packets timestamp)).2 = [annexB frame.nals] →
      (receive (receive H264.new history).1 (frame.packets timestamp)).2 = [annexB frame.nals] := by
  intro recovers
  have run := recovers [⟨[0x65, 1], 1, false⟩] ⟨[], .single (slice 2)⟩ 2 (by decide) (by decide)
  exact absurd run (by decide)

end Recovery

end H264Codec
