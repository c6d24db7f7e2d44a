import Nebula.Media.AudioSequence
import Nebula.Media.HeaderExtension
import Nebula.Media.TelephoneEvents

/- Digits from one audio stream to another: the sender makes five payloads of a digit and sends the
   last three times, the network loses packets, the receiver reports an event once. -/
namespace DtmfTransport
open ByteStrings AudioSender
open TelephoneEvents (Packet AudioStreamReceiver Dtmf DTMF_EXPIRE receiveAll receiveDtmf
  receiveRtpPacket isEnd endPackets report digitOf)

section Wire

/-- A packet as the RTP library reads it. -/
def readPacket (buf : Bytes) : Outcome Packet := do
  let payloadType ← RtpPacket.getPayloadType buf
  let timestamp ← RtpPacket.getTimestamp buf
  let payload ← RtpPacket.getPayload buf
  pure ⟨payloadType, UInt32.ofNat timestamp, payload⟩

/-- What can be read of the packets that a run sends, in the clear. -/
def readable (emissions : List Emission) : List Packet :=
  emissions.filterMap fun emission => (readPacket emission.plain).toOption

theorem readPacket_header (header : RtpPacket.RtpHeader) (payload : Bytes) :
    readPacket (header.bytes ++ payload) =
      .ok ⟨header.payloadType, header.timestamp, payload⟩ := by
  have typed : RtpPacket.getPayloadType (header.bytes ++ payload) = .ok header.payloadType := rfl
  unfold readPacket
  rw [typed, ok_bind, RtpPacket.getTimestamp_header, ok_bind, RtpPacket.getPayload_header, ok_bind,
    UInt32.ofNat_toNat]
  rfl

theorem setPaylod_header (header : RtpPacket.RtpHeader) (payload other : Bytes) :
    RtpPacket.setPaylod (header.bytes ++ payload) other = .ok (header.bytes ++ other) := by
  unfold RtpPacket.setPaylod
  rw [RtpPacket.payloadOffset_header, ok_bind, List.take_left]
  rfl

theorem marked_type : ∀ byte : UInt8, RtpPacket.RtpHeader.marked byte true &&& RtpPacket.PT_MASK =
    byte &&& RtpPacket.PT_MASK := forall_byte (by decide +kernel)

theorem toNat_ofNat_clock (ts ptime : Nat) :
    (UInt32.ofNat (RtpPacket.checkedAddU32 ts ptime)).toNat = RtpPacket.checkedAddU32 ts ptime := by
  rw [UInt32.toNat_ofNat', Nat.mod_eq_of_lt]
  unfold RtpPacket.checkedAddU32
  split <;> omega

theorem toNat_ofNat_number (seq : Nat) :
    (UInt16.ofNat (RtpPacket.succU16 seq)).toNat = RtpPacket.succU16 seq := by
  rw [UInt16.toNat_ofNat', Nat.mod_eq_of_lt]
  unfold RtpPacket.succU16
  split <;> omega

theorem nextSeq_header (header : RtpPacket.RtpHeader) (payload : Bytes) :
    RtpPacket.nextSeq (header.bytes ++ payload) = .ok
      ({ header with sequence := UInt16.ofNat (RtpPacket.succU16 header.sequence.toNat) }.bytes ++
        payload) := by
  have set := RtpPacket.setSequence_header header payload
    (UInt16.ofNat (RtpPacket.succU16 header.sequence.toNat))
  rw [toNat_ofNat_number] at set
  unfold RtpPacket.nextSeq
  rw [RtpPacket.getSequence_header, ok_bind, set]

theorem next_header (header : RtpPacket.RtpHeader) (payload : Bytes) (ptime : Nat) :
    RtpPacket.next (header.bytes ++ payload) ptime = .ok
      ({ header with
        sequence := UInt16.ofNat (RtpPacket.succU16 header.sequence.toNat)
        timestamp := UInt32.ofNat
          (RtpPacket.checkedAddU32 header.timestamp.toNat ptime) }.bytes ++ payload) := by
  have set := RtpPacket.setTimestamp_header
    { header with sequence := UInt16.ofNat (RtpPacket.succU16 header.sequence.toNat) } payload
    (UInt32.ofNat (RtpPacket.checkedAddU32 header.timestamp.toNat ptime))
  rw [toNat_ofNat_clock] at set
  unfold RtpPacket.next
  rw [nextSeq_header, ok_bind, RtpPacket.getTimestamp_header, ok_bind, set]

/-- The header of a telephone event. -/
def eventHeader (header : RtpPacket.RtpHeader) (pt : UInt8) (ts : UInt32) : RtpPacket.RtpHeader :=
  { header with second := RtpPacket.RtpHeader.typed header.second pt, timestamp := ts }

theorem dtmfPacket_header (header : RtpPacket.RtpHeader) (old payload : Bytes) (pt : UInt8)
    (ts : UInt32) : dtmfPacket (header.bytes ++ old) pt ts.toNat payload =
      .ok ((eventHeader header pt ts).bytes ++ payload) := by
  unfold dtmfPacket
  rw [RtpPacket.setPayloadType_header, ok_bind, RtpPacket.setTimestamp_header, ok_bind,
    setPaylod_header]
  rfl

theorem read_event (header : RtpPacket.RtpHeader) (pt : UInt8) (ts : UInt32) (payload : Bytes) :
    readPacket ((eventHeader header pt ts).bytes ++ payload) =
      .ok ⟨pt &&& RtpPacket.PT_MASK, ts, payload⟩ := by
  rw [readPacket_header, RtpPacket.RtpHeader.payloadType]
  simp only [eventHeader, RtpPacket.typed_type]

theorem markFirst_event (header : RtpPacket.RtpHeader) (pt : UInt8) (ts : UInt32) (payload : Bytes)
    (first : Bool) : ∃ marked : RtpPacket.RtpHeader, markFirst first ((eventHeader header pt ts).bytes ++ payload) =
        .ok (marked.bytes ++ payload) ∧ marked.payloadType = pt &&& RtpPacket.PT_MASK ∧
      marked.timestamp = ts := by
  cases first with
  | false =>
    refine ⟨eventHeader header pt ts, rfl, ?_, rfl⟩
    exact RtpPacket.typed_type header.second pt
  | true =>
    refine ⟨_, RtpPacket.setMarker_header _ payload true, ?_, rfl⟩
    exact (marked_type _).trans (RtpPacket.typed_type header.second pt)

/-- The packets of a payload are alike as they are read: three for the end of an event, otherwise
    one. -/
theorem dtmfPackets_header (header : RtpPacket.RtpHeader) (old payload : Bytes) (pt : UInt8)
    (first : Bool) (ts : UInt32) {flags : UInt8} (second : payload[1]? = some flags) :
    ∃ packets, dtmfPackets (header.bytes ++ old) pt first ts.toNat payload = .ok packets ∧
      packets.map readPacket = List.replicate (if 128 < flags then 3 else 1)
        (.ok ⟨pt &&& RtpPacket.PT_MASK, ts, payload⟩) := by
  obtain ⟨marked, mark, type, stamp⟩ := markFirst_event header pt ts payload first
  have flagged : byteAt payload 1 = .ok flags := by
    rw [byteAt, second]
  have readFirst : readPacket (marked.bytes ++ payload) =
      .ok ⟨pt &&& RtpPacket.PT_MASK, ts, payload⟩ := by
    rw [readPacket_header, type, stamp]
  unfold dtmfPackets
  rw [dtmfPacket_header, ok_bind, mark, ok_bind, flagged, ok_bind]
  by_cases ending : 128 < flags
  · rw [if_pos ending, if_pos ending, nextSeq_header, ok_bind, dtmfPacket_header, ok_bind,
      nextSeq_header, ok_bind, dtmfPacket_header, ok_bind]
    refine ⟨_, rfl, ?_⟩
    rw [List.map_cons, List.map_cons, List.map_cons, readFirst, read_event, read_event]
    rfl
  · rw [if_neg ending, if_neg ending]
    refine ⟨_, rfl, ?_⟩
    rw [List.map_cons, readFirst]
    rfl

end Wire

section Clock

/-- The timestamp some packets later: one that does not fit is 0. -/
def clock (ptime start : Nat) : Nat → Nat
  | 0 => start
  | n + 1 => RtpPacket.checkedAddU32 (clock ptime start n) ptime

theorem clock_lt {ptime start : Nat} (bound : start < 2 ^ 32) (n : Nat) :
    clock ptime start n < 2 ^ 32 := by
  cases n with
  | zero => exact bound
  | succ n =>
    simp only [clock, RtpPacket.checkedAddU32]
    split <;> omega

/-- A later timestamp is so much larger, or it has been counted from 0 since the first did not
    fit. -/
theorem clock_later {ptime start : Nat} (n d : Nat) (short : d * ptime < 2 ^ 32) :
    clock ptime start (n + d) = clock ptime start n + d * ptime ∨
      ∃ j < d, clock ptime start (n + d) = j * ptime ∧
        2 ^ 32 ≤ clock ptime start n + (d - j) * ptime := by
  induction d with
  | zero =>
    left
    rw [Nat.zero_mul, Nat.add_zero, Nat.add_zero]
  | succ d ih =>
    have smaller : d * ptime < 2 ^ 32 := by
      rw [Nat.succ_mul] at short
      omega
    have step : clock ptime start (n + (d + 1)) =
        RtpPacket.checkedAddU32 (clock ptime start (n + d)) ptime := rfl
    rw [step, RtpPacket.checkedAddU32]
    rcases ih smaller with exact' | ⟨j, less, counted, wrapped⟩
    · rw [exact']
      split
      · left
        rw [Nat.succ_mul]
        omega
      · right
        refine ⟨0, Nat.succ_pos _, (Nat.zero_mul _).symm, ?_⟩
        rw [Nat.sub_zero, Nat.succ_mul]
        omega
    · have fits : j * ptime + ptime < 2 ^ 32 := by
        have more : (j + 1) * ptime ≤ (d + 1) * ptime := Nat.mul_le_mul_right _ (by omega)
        rw [Nat.succ_mul] at more
        omega
      rw [counted, if_pos (by omega)]
      right
      refine ⟨j + 1, by omega, (Nat.succ_mul _ _).symm, ?_⟩
      rw [Nat.add_sub_add_right]
      exact wrapped

/-- Within a turn of the clock no timestamp comes twice. -/
theorem clock_inj {ptime start N : Nat} (ticks : 0 < ptime) (turn : N * ptime < 2 ^ 32)
    {n m : Nat} (early : n < m) (within : m ≤ N) :
    clock ptime start n ≠ clock ptime start m := by
  obtain ⟨d, rfl⟩ := Nat.exists_eq_add_of_lt early
  have shorter : (d + 1) * ptime ≤ N * ptime := Nat.mul_le_mul_right _ (by omega)
  have positive : 0 < (d + 1) * ptime := Nat.mul_pos (Nat.succ_pos d) ticks
  rw [Nat.add_assoc]
  rcases @clock_later ptime start n (d + 1) (by omega) with further | ⟨j, less, counted, wrapped⟩
  · omega
  · intro same
    rw [counted] at same
    have whole : j * ptime + (d + 1 - j) * ptime = (d + 1) * ptime := by
      rw [← Nat.add_mul]
      congr 1
      omega
    omega

end Clock

section Receiver
variable {receiver : AudioStreamReceiver}

/-- A packet that the receiver takes for a telephone event. -/
def isEvent (receiver : AudioStreamReceiver) (packet : Packet) : Bool :=
  packet.payloadType ≠ receiver.typeNumber ∧ packet.payloadType ∈ receiver.dtmfPts

/-- The end of an event. -/
def ending (receiver : AudioStreamReceiver) (packet : Packet) : Bool :=
  isEvent receiver packet && isEnd packet

/-- No event is shorter than its flags. -/
def Long (receiver : AudioStreamReceiver) (packets : List Packet) : Prop :=
  ∀ packet ∈ packets, isEvent receiver packet = true → 2 ≤ packet.payload.length

/-- What comes again of the end of an event comes within ten seconds. -/
def Prompt (receiver : AudioStreamReceiver) (arrivals : List (ℕ × Packet)) : Prop :=
  arrivals.Pairwise fun early late => ending receiver early.2 = true →
    ending receiver late.2 = true → early.2.timestamp = late.2.timestamp →
      late.1 < early.1 + DTMF_EXPIRE

/-- Redis has the timestamp of the last end packet until ten seconds after it. -/
def Remembers (dtmf : Dtmf) (last : Option (ℕ × UInt32)) : Prop :=
  dtmf.dtmfTimestamp = last.map fun last => ⟨last.2, some (last.1 + DTMF_EXPIRE)⟩

theorem receiveDtmf_prompt {now : ℕ} {dtmf : Dtmf} {packet : Packet} {last : Option (ℕ × UInt32)}
    (long : 2 ≤ packet.payload.length) (remembers : Remembers dtmf last)
    (prompt : ∀ before, last = some before → isEnd packet = true →
      before.2 = packet.timestamp → now < before.1 + DTMF_EXPIRE) :
    ∃ after result, receiveDtmf now dtmf packet = (after, result) ∧ result ≠ .error .panic ∧
      Remembers after (if isEnd packet then some (now, packet.timestamp) else last) ∧
      after.reported = dtmf.reported ++
        if isEnd packet ∧ last.map Prod.snd ≠ some packet.timestamp then (report packet).toList
        else [] := by
  obtain ⟨second, secondFound⟩ : ∃ second, packet.payload[1]? = some second :=
    ⟨_, List.getElem?_eq_getElem (by omega)⟩
  obtain ⟨first, firstFound⟩ : ∃ first, packet.payload[0]? = some first :=
    ⟨_, List.getElem?_eq_getElem (by omega)⟩
  have isEnd_eq : isEnd packet = decide (0 < second &&& 0x80) := by
    unfold isEnd
    rw [secondFound]
    rfl
  have report_eq : report packet = (digitOf first).map fun digit => (packet.timestamp, digit) := by
    unfold report
    rw [firstFound]
    rfl
  unfold receiveDtmf byteAt
  rw [secondFound, firstFound, isEnd_eq, report_eq]
  by_cases ended : 0 < second &&& 0x80
  · have same : Expiring.read now dtmf.dtmfTimestamp = some packet.timestamp ↔
        last.map Prod.snd = some packet.timestamp := by
      rw [remembers]
      cases last with
      | none => simp
      | some before =>
        have kept := prompt before rfl (by rw [isEnd_eq, decide_eq_true ended])
        by_cases inTime : now < before.1 + DTMF_EXPIRE
        · simp [Expiring.read, Expiring.live, Option.filter, inTime]
        · have other : before.2 ≠ packet.timestamp := fun same => inTime (kept same)
          simp [Expiring.read, Expiring.live, Option.filter, inTime, other]
    simp only [ended, if_true, decide_true, true_and, same]
    by_cases again : last.map Prod.snd = some packet.timestamp
    · simp only [again, if_true, ne_eq, not_true_eq_false, if_false, List.append_nil]
      exact ⟨_, _, rfl, by simp, rfl, rfl⟩
    · simp only [again, if_false, ne_eq, not_false_eq_true, if_true]
      cases digitOf first with
      | none => exact ⟨_, _, rfl, by simp, rfl, (List.append_nil _).symm⟩
      | some digit => exact ⟨_, _, rfl, by simp, rfl, rfl⟩
  · simp only [ended, if_false, decide_false, Bool.false_eq_true, false_and, List.append_nil]
    exact ⟨_, _, rfl, by simp, remembers, rfl⟩

/-- The end packets of the events among what has come. -/
def ends (receiver : AudioStreamReceiver) (packets : List Packet) : List Packet :=
  packets.filter (ending receiver)

theorem receiveAll_prompt
    (listening : receiver.mode = .Sendrecv ∧ receiver.muted = false ∧ receiver.t38Passthrough = false)
    (arrivals : List (ℕ × Packet)) : ∀ {dtmf : Dtmf} {last : Option (ℕ × UInt32)},
      Remembers dtmf last →
      Long receiver (arrivals.map Prod.snd) → Prompt receiver arrivals →
      (∀ before, last = some before → ∀ arrival ∈ arrivals, ending receiver arrival.2 = true →
        before.2 = arrival.2.timestamp → arrival.1 < before.1 + DTMF_EXPIRE) →
      ∃ after, receiveAll receiver dtmf arrivals = .ok after ∧
        after.reported = dtmf.reported ++ (Repeats.firsts Packet.timestamp (last.map Prod.snd)
          (ends receiver (arrivals.map Prod.snd))).filterMap report := by
  induction arrivals with
  | nil => exact fun {dtmf} {_} _ _ _ _ => ⟨dtmf, rfl, (List.append_nil _).symm⟩
  | cons arrival rest ih =>
    intro dtmf last remembers long prompt soon
    obtain ⟨now, packet⟩ := arrival
    obtain ⟨mode, unmuted, audio⟩ := listening
    obtain ⟨promptHere, promptRest⟩ := List.pairwise_cons.mp prompt
    have longRest : Long receiver (rest.map Prod.snd) :=
      fun other member => long other (List.mem_cons_of_mem _ member)
    by_cases event : isEvent receiver packet = true
    · obtain ⟨middle, result, received, fine, after, reported⟩ :=
        receiveDtmf_prompt (long packet List.mem_cons_self event) remembers
          fun before known ended => soon before known (now, packet) List.mem_cons_self
            (by rw [ending, event, ended]; rfl)
      have soonRest : ∀ before,
          (if isEnd packet then some (now, packet.timestamp) else last) = some before →
          ∀ arrival ∈ rest, ending receiver arrival.2 = true → before.2 = arrival.2.timestamp →
            arrival.1 < before.1 + DTMF_EXPIRE := by
        intro before known other member ended same
        by_cases own : isEnd packet = true
        · rw [if_pos own] at known
          obtain rfl := Option.some.inj known
          exact promptHere other member (by rw [ending, event, own]; rfl) ended same
        · rw [if_neg own] at known
          exact soon before known other (List.mem_cons_of_mem _ member) ended same
      obtain ⟨final, ran, all⟩ := ih after longRest promptRest soonRest
      have taken : receiveRtpPacket receiver now dtmf packet = (middle, result) := by
        unfold receiveRtpPacket
        rw [if_neg (not_not.mpr mode), unmuted, audio, if_neg Bool.false_ne_true,
          if_neg Bool.false_ne_true, if_pos (by simpa [isEvent] using event), received]
      have onward : receiveAll receiver dtmf ((now, packet) :: rest) =
          receiveAll receiver middle rest := by
        rw [receiveAll, taken]
        cases result with
        | ok _ => rfl
        | error fault =>
          cases fault with
          | panic => exact absurd rfl fine
          | error text => rfl
      refine ⟨final, onward.trans ran, ?_⟩
      rw [all, reported, List.append_assoc]
      congr 1
      by_cases ended : isEnd packet = true
      · simp only [ends, List.map_cons, List.filter_cons, ending, event, ended, Bool.and_self,
          if_true, true_and, Option.map_some]
        rw [Repeats.firsts_cons, List.filterMap_append]
        congr 1
        by_cases same : last.map Prod.snd = some packet.timestamp
        · simp [same]
        · simp only [same, ne_eq, not_false_eq_true, if_true, if_false]
          cases found : report packet with
          | none => simp [found]
          | some entry => simp [found]
      · simp [ends, ending, ended]
    · have skipped : receiveRtpPacket receiver now dtmf packet = (dtmf, .ok ()) := by
        unfold receiveRtpPacket
        rw [if_neg (not_not.mpr mode), unmuted, audio, if_neg Bool.false_ne_true,
          if_neg Bool.false_ne_true, if_neg (by simpa [isEvent] using event)]
      obtain ⟨final, ran, all⟩ := ih remembers longRest promptRest
        fun before known other member => soon before known other (List.mem_cons_of_mem _ member)
      refine ⟨final, ?_, ?_⟩
      · rw [receiveAll, skipped]
        exact ran
      · rw [all]
        simp [ends, ending, event]

end Receiver

section Sender

/-- A digit that is sent as an event where the stream has a type for them. -/
def accepted : Event → Option String
  | .sendDtmf dtmf =>
    if dtmf.toList.head?.all fun c => c ∉ TONES then none else (dtmfByte dtmf).map fun _ => dtmf
  | .getRtpPackets _ => none

/-- The sender after a run. -/
def played (prim : Srtp.Primitives) (sender : Sender) (redis : Srtp.RocStore) : List Event → Sender
  | [] => sender
  | .sendDtmf dtmf :: rest => played prim (sendDtmf sender dtmf) redis rest
  | .getRtpPackets payload :: rest =>
    played prim (getRtpPackets prim sender redis payload).2.1
      (getRtpPackets prim sender redis payload).2.2 rest

/-- The digit of an entry of the queue, whose first payload is that of the end. -/
def queuedDigit (entry : Option Nat × List Bytes) : Option String :=
  (entry.2.head?.bind fun payload => payload[0]?).bind digitOf

def calls (events : List Event) : Nat :=
  events.countP fun event => (event matches .getRtpPackets _)

theorem dtmfByte_digit {dtmf : String} {id : UInt8} (found : dtmfByte dtmf = some id) :
    digitOf id = some dtmf := by
  obtain ⟨i, at', rfl⟩ := Option.map_eq_some_iff.mp found
  obtain ⟨less, same, _⟩ := List.findIdx?_eq_some_iff_getElem.mp at'
  have small : i < 17 := less
  unfold digitOf
  rw [UInt8.toNat_ofNat', Nat.mod_eq_of_lt (by omega)]
  have here : TelephoneEvents.DTMF_DIGITS[i]? = some DTMF_DIGITS[i] :=
    List.getElem?_eq_getElem less
  rw [here]
  exact congrArg some (of_decide_eq_true same).symm

/-- A digit of the queue whose event is being sent: when it began, and how many payloads are left
    before that of the end. -/
structure Front where
  began : Nat
  id : UInt8
  left : Nat

variable (pt type : UInt8) (duration ptime start : Nat)

def endPayload (id : UInt8) : Bytes := [id, 10 + 128] ++ bytes16 (duration * 5 % 65536)

def endPacket (digit : Nat × UInt8) : Packet :=
  ⟨pt &&& RtpPacket.PT_MASK, UInt32.ofNat (clock ptime start digit.1), endPayload duration digit.2⟩

def frontEntry (front : Front) : Option Nat × List Bytes :=
  (some (clock ptime start front.began), (dtmfPayloads front.id duration).take (front.left + 1))

def queueOf (front : Option Front) (ids : List UInt8) : List (Option Nat × List Bytes) :=
  (front.map (frontEntry duration ptime start)).toList ++
    ids.map fun id => (none, dtmfPayloads id duration)

/-- A sender after so many packets. -/
structure Playing (sender : Sender) (n : Nat) (front : Option Front) (ids : List UInt8) : Prop where
  template : ∃ (header : RtpPacket.RtpHeader) (old : Bytes), sender.rtpPacket = header.bytes ++ old ∧
    header.timestamp.toNat = clock ptime start n ∧ header.payloadType = type
  step : sender.tsLen = ptime
  long : sender.rate / 1000 * sender.ptime % 65536 = duration
  mapped : sender.dtmfRtpmap = some pt
  queue : sender.dtmf = queueOf duration ptime start front ids
  partly : ∀ digit, front = some digit → digit.left < 4 ∧ digit.began ≤ n

/-- What a packet leaves of the queue, and the end packets it brings. -/
def advance (n : Nat) : Option Front → List UInt8 → List (Nat × UInt8) × Option Front × List UInt8
  | none, [] => ([], none, [])
  | none, id :: ids => ([], some ⟨n, id, 3⟩, ids)
  | some ⟨began, id, 0⟩, ids => ([(began, id)], none, ids)
  | some ⟨began, id, left + 1⟩, ids => ([], some ⟨began, id, left⟩, ids)

variable {pt type duration ptime start}

theorem payload_at (id : UInt8) {k : Nat} (small : k < 5) :
    ∃ payload, (dtmfPayloads id duration)[k]? = some payload ∧ payload.length = 4 ∧
      payload[1]? = some (if k = 0 then 138 else 10) ∧
      (k = 0 → payload = endPayload duration id) := by
  match k, small with
  | 0, _ => exact ⟨_, rfl, rfl, rfl, fun _ => rfl⟩
  | 1, _ => exact ⟨_, rfl, rfl, rfl, nofun⟩
  | 2, _ => exact ⟨_, rfl, rfl, rfl, nofun⟩
  | 3, _ => exact ⟨_, rfl, rfl, rfl, nofun⟩
  | 4, _ => exact ⟨_, rfl, rfl, rfl, nofun⟩

theorem taken_last (id : UInt8) {k : Nat} (small : k < 5) :
    ((dtmfPayloads id duration).take (k + 1)).getLast? = (dtmfPayloads id duration)[k]? ∧
      ((dtmfPayloads id duration).take (k + 1)).dropLast = (dtmfPayloads id duration).take k := by
  match k, small with
  | 0, _ => exact ⟨rfl, rfl⟩
  | 1, _ => exact ⟨rfl, rfl⟩
  | 2, _ => exact ⟨rfl, rfl⟩
  | 3, _ => exact ⟨rfl, rfl⟩
  | 4, _ => exact ⟨rfl, rfl⟩

theorem taken_nil_iff (id : UInt8) {k : Nat} :
    (dtmfPayloads id duration).take k = [] ↔ k = 0 := by
  simp [dtmfPayloads, List.take_eq_nil_iff]

/-- The packets of one payload of a digit. -/
theorem rtpPackets_digit {sender : Sender} {header : RtpPacket.RtpHeader} {old : Bytes}
    (media : Bytes) {dtmfTs : Option Nat} {id : UInt8} {k : Nat}
    {rest : List (Option Nat × List Bytes)} (template : sender.rtpPacket = header.bytes ++ old)
    (mapped : sender.dtmfRtpmap = some pt) (small : k < 5)
    (queue : sender.dtmf = (dtmfTs, (dtmfPayloads id duration).take (k + 1)) :: rest)
    (stamp : dtmfTs.getD header.timestamp.toNat < 2 ^ 32) :
    ∃ packets payload, rtpPackets sender media = (.ok packets, { sender with
        dtmf := if k = 0 then rest else (some (dtmfTs.getD header.timestamp.toNat),
          (dtmfPayloads id duration).take k) :: rest }) ∧
      packets.map readPacket = List.replicate (if k = 0 then 3 else 1) (.ok
        ⟨pt &&& RtpPacket.PT_MASK, UInt32.ofNat (dtmfTs.getD header.timestamp.toNat), payload⟩) ∧
      payload[1]? = some (if k = 0 then 138 else 10) ∧
      (k = 0 → payload = endPayload duration id) := by
  obtain ⟨payload, found, _, second, last⟩ := @payload_at duration id k small
  obtain ⟨isLast, others⟩ := @taken_last duration id k small
  have exact' : (UInt32.ofNat (dtmfTs.getD header.timestamp.toNat)).toNat =
      dtmfTs.getD header.timestamp.toNat := by
    rw [UInt32.toNat_ofNat', Nat.mod_eq_of_lt stamp]
  obtain ⟨packets, made, read⟩ := dtmfPackets_header header old payload pt dtmfTs.isNone
    (UInt32.ofNat (dtmfTs.getD header.timestamp.toNat)) second
  rw [exact'] at made
  have three : (if 128 < (if k = 0 then 138 else 10 : UInt8) then 3 else 1) =
      if k = 0 then 3 else 1 := by
    by_cases zero : k = 0
    · rw [if_pos zero, if_pos zero]
      rfl
    · rw [if_neg zero, if_neg zero]
      rfl
  rw [three] at read
  refine ⟨packets, payload, ?_, read, second, last⟩
  unfold rtpPackets getSendingDtmf
  rw [template, RtpPacket.getTimestamp_header, queue]
  simp only [isLast, others, found, Option.map_some, mapped, Option.getD_some, made, taken_nil_iff]

variable {receiver : AudioStreamReceiver}

/-- The receiver takes the type of the events, and not that of the sound. -/
def Fits (receiver : AudioStreamReceiver) (pt type : UInt8) : Prop :=
  receiver.typeNumber = type ∧ pt &&& RtpPacket.PT_MASK ≠ type ∧
    pt &&& RtpPacket.PT_MASK ∈ receiver.dtmfPts

theorem isEvent_digit (fits : Fits receiver pt type) (ts : UInt32) (payload : Bytes) :
    isEvent receiver ⟨pt &&& RtpPacket.PT_MASK, ts, payload⟩ = true := by
  obtain ⟨same, other, listed⟩ := fits
  simp [isEvent, same, other, listed]

theorem isEvent_sound (fits : Fits receiver pt type) (ts : UInt32) (payload : Bytes) :
    isEvent receiver ⟨type, ts, payload⟩ = false := by
  simp [isEvent, fits.1]

theorem isEnd_payload {packetType : UInt8} {ts : UInt32} {payload : Bytes} {k : Nat}
    (second : payload[1]? = some (if k = 0 then 138 else 10)) :
    isEnd ⟨packetType, ts, payload⟩ = decide (k = 0) := by
  unfold isEnd
  rw [second]
  by_cases zero : k = 0
  · rw [if_pos zero, decide_eq_true zero]
    rfl
  · rw [if_neg zero, decide_eq_false zero]
    rfl

def read (packets : List Bytes) : List Packet :=
  packets.filterMap fun packet => (readPacket packet).toOption

theorem read_replicate {packets : List Bytes} {count : Nat} {packet : Packet}
    (all : packets.map readPacket = List.replicate count (.ok packet)) :
    read packets = List.replicate count packet := by
  have mapped : read packets = (packets.map readPacket).filterMap Except.toOption := by
    rw [List.filterMap_map]
    rfl
  rw [mapped, all]
  clear mapped all
  induction count with
  | zero => rfl
  | succ count ih =>
    rw [List.replicate_succ, List.filterMap_cons, ih]
    rfl

theorem long_replicate {packet : Packet} {count : Nat} {flags : UInt8}
    (second : packet.payload[1]? = some flags) : Long receiver (List.replicate count packet) := by
  intro other listed _
  rw [List.eq_of_mem_replicate listed]
  have inside := (List.getElem?_eq_some_iff.mp second).1
  omega

theorem ends_replicate (fits : Fits receiver pt type) {ts : UInt32} {payload : Bytes} {k count : Nat}
    (second : payload[1]? = some (if k = 0 then 138 else 10)) :
    ends receiver (List.replicate count ⟨pt &&& RtpPacket.PT_MASK, ts, payload⟩) =
      if k = 0 then List.replicate count ⟨pt &&& RtpPacket.PT_MASK, ts, payload⟩ else [] := by
  by_cases zero : k = 0
  · rw [if_pos zero]
    apply List.filter_eq_self.mpr
    intro packet listed
    rw [List.eq_of_mem_replicate listed, ending, isEvent_digit fits, isEnd_payload second,
      decide_eq_true zero]
    rfl
  · rw [if_neg zero]
    apply List.filter_eq_nil_iff.mpr
    intro packet listed
    rw [List.eq_of_mem_replicate listed, ending, isEvent_digit fits, isEnd_payload second,
      decide_eq_false zero]
    exact nofun

def copies (digits : List (Nat × UInt8)) (pt : UInt8) (duration ptime start : Nat) : List Packet :=
  digits.flatMap fun digit => List.replicate 3 (endPacket pt duration ptime start digit)

/-- A packet in the clear takes the queue one step on, and the end of a digit comes three times. -/
theorem rtpPackets_playing {sender : Sender} {n : Nat} {front : Option Front} {ids : List UInt8}
    (fits : Fits receiver pt type) (bound : start < 2 ^ 32) (media : Bytes)
    (playing : Playing pt type duration ptime start sender n front ids) :
    ∃ packets ended next waiting, advance n front ids = (ended, next, waiting) ∧
      rtpPackets sender media =
        (.ok packets, { sender with dtmf := queueOf duration ptime start next waiting }) ∧
      ends receiver (read packets) = copies ended pt duration ptime start ∧
      Long receiver (read packets) ∧
      ∀ digit, next = some digit → digit.left < 4 ∧ digit.began ≤ n := by
  obtain ⟨header, old, template, stamp, sound⟩ := playing.template
  have clocked : header.timestamp.toNat < 2 ^ 32 := header.timestamp.toNat_lt
  cases front with
  | none =>
    cases ids with
    | nil =>
      have queue : sender.dtmf = [] := playing.queue
      have once : read [header.bytes ++ media] = [⟨type, header.timestamp, media⟩] := by
        rw [read, List.filterMap_cons, readPacket_header, sound]
        rfl
      refine ⟨[header.bytes ++ media], [], none, [], rfl, ?_, ?_, ?_, nofun⟩
      · have same : { sender with dtmf := queueOf duration ptime start none [] } = sender := by
          cases sender
          simp only at queue
          rw [queue]
          rfl
        rw [same]
        unfold rtpPackets getSendingDtmf
        rw [template, RtpPacket.getTimestamp_header, queue]
        simp only [setPaylod_header]
        rfl
      · rw [once, ends, List.filter_cons, ending, isEvent_sound fits]
        rfl
      · rw [once]
        intro packet listed event
        rw [List.mem_singleton.mp listed, isEvent_sound fits] at event
        cases event
    | cons id ids =>
      have queue : sender.dtmf = (none, (dtmfPayloads id duration).take (4 + 1)) ::
          queueOf duration ptime start none ids := playing.queue
      obtain ⟨packets, payload, made, reads, second, _⟩ := rtpPackets_digit media template
        playing.mapped (by omega) queue clocked
      refine ⟨packets, [], some ⟨n, id, 3⟩, ids, rfl, ?_, ?_, ?_, ?_⟩
      · rw [made]
        simp only [Option.getD_none, stamp]
        rfl
      · rw [read_replicate reads, ends_replicate fits second]
        rfl
      · rw [read_replicate reads]
        exact long_replicate second
      · intro digit same
        obtain rfl := Option.some.inj same
        exact ⟨by simp only; omega, Nat.le_refl n⟩
  | some digit =>
    obtain ⟨began, id, left⟩ := digit
    obtain ⟨few, past⟩ := playing.partly _ rfl
    simp only at few past
    have queue : sender.dtmf = (some (clock ptime start began),
        (dtmfPayloads id duration).take (left + 1)) :: queueOf duration ptime start none ids :=
      playing.queue
    obtain ⟨packets, payload, made, reads, second, last⟩ := rtpPackets_digit media template
      playing.mapped (by omega) queue (clock_lt bound began)
    cases left with
    | zero =>
      refine ⟨packets, [(began, id)], none, ids, rfl, made, ?_, ?_, nofun⟩
      · rw [read_replicate reads, ends_replicate fits second, last rfl]
        rfl
      · rw [read_replicate reads]
        exact long_replicate second
    | succ left =>
      refine ⟨packets, [], some ⟨began, id, left⟩, ids, rfl, made, ?_, ?_, ?_⟩
      · rw [read_replicate reads, ends_replicate fits second]
        rfl
      · rw [read_replicate reads]
        exact long_replicate second
      · intro digit same
        obtain rfl := Option.some.inj same
        exact ⟨by simp only; omega, past⟩

theorem encryptRtp_spec (prim : Srtp.Primitives) (sender : Sender) (redis : Srtp.RocStore)
    (packet : Bytes) : ∃ crypto,
      (AudioSender.encryptRtp prim sender redis packet).2.1 = { sender with crypto := crypto } ∧
      ∀ emission, (AudioSender.encryptRtp prim sender redis packet).1 = .ok emission →
        emission.plain = packet := by
  unfold AudioSender.encryptRtp
  split
  · exact ⟨sender.crypto, rfl, by rintro _ ⟨⟩; rfl⟩
  · split
    · exact ⟨sender.crypto, rfl, nofun⟩
    · rename_i roc ctx store updated
      refine ⟨_, rfl, fun emission made => ?_⟩
      cases done : Srtp.encryptRtp prim ctx.state roc packet with
      | error fault =>
        rw [done] at made
        cases made
      | ok wire =>
        rw [done] at made
        cases made
        rfl

/-- Encryption leaves everything of the sender but its context, and goes over each packet. -/
theorem encryptAll_spec (prim : Srtp.Primitives) (packets : List Bytes) :
    ∀ (sender : Sender) (redis : Srtp.RocStore), ∃ crypto,
      (encryptAll prim sender redis packets).2.1 = { sender with crypto := crypto } ∧
      ∀ emissions, (encryptAll prim sender redis packets).1 = .ok emissions →
        emissions.map Emission.plain = packets := by
  induction packets with
  | nil => exact fun sender _ => ⟨sender.crypto, rfl, by rintro _ ⟨⟩; rfl⟩
  | cons packet rest ih =>
    intro sender redis
    obtain ⟨crypto, kept, own⟩ := encryptRtp_spec prim sender redis packet
    unfold encryptAll
    split
    · rename_i fault after store first
      rw [first] at kept
      exact ⟨crypto, kept, nofun⟩
    · rename_i emission after store first
      rw [first] at kept own
      simp only at kept
      subst kept
      obtain ⟨last, final, plain⟩ := ih { sender with crypto := crypto } store
      refine ⟨last, final, fun emissions made => ?_⟩
      cases others : (encryptAll prim { sender with crypto := crypto } store rest).1 with
      | error fault =>
        simp only [others] at made
        cases made
      | ok more =>
        simp only [others] at made
        cases made
        rw [List.map_cons, own emission rfl, plain more others]

theorem readable_eq (emissions : List Emission) :
    readable emissions = read (emissions.map Emission.plain) := by
  unfold readable read
  rw [List.filterMap_map]
  rfl

theorem playing_next {sender : Sender} {n : Nat} {front : Option Front} {ids : List UInt8}
    (playing : Playing pt type duration ptime start sender n front ids) :
    ∃ template, nextRtpPacket sender = .ok { sender with rtpPacket := template } ∧
      Playing pt type duration ptime start { sender with rtpPacket := template } (n + 1) front
        ids := by
  obtain ⟨header, old, template, stamp, sound⟩ := playing.template
  let after : RtpPacket.RtpHeader := { header with
    sequence := UInt16.ofNat (RtpPacket.succU16 header.sequence.toNat)
    timestamp := UInt32.ofNat (RtpPacket.checkedAddU32 header.timestamp.toNat sender.tsLen) }
  refine ⟨after.bytes ++ old, ?_, ⟨after, old, rfl, ?_, sound⟩, playing.step, playing.long,
    playing.mapped, playing.queue, ?_⟩
  · rw [nextRtpPacket, template, next_header]
    rfl
  · refine (toNat_ofNat_clock _ _).trans ?_
    rw [stamp, playing.step]
    rfl
  · intro digit same
    obtain ⟨few, past⟩ := playing.partly digit same
    exact ⟨few, Nat.le_succ_of_le past⟩

/-- One call of the sender. -/
theorem getRtpPackets_playing (prim : Srtp.Primitives) {sender : Sender} {redis : Srtp.RocStore}
    {ssrc seq n : Nat} {front : Option Front} {ids : List UInt8} (fits : Fits receiver pt type)
    (bound : start < 2 ^ 32) (ready : AudioSequence.Ready sender ssrc seq) (media : Bytes)
    (playing : Playing pt type duration ptime start sender n front ids) :
    ∃ emissions sender' redis' ended next waiting,
      getRtpPackets prim sender redis media = (.ok emissions, sender', redis') ∧
      advance (n + 1) front ids = (ended, next, waiting) ∧
      AudioSequence.Ready sender' ssrc (CyclicCounter.succ 65536 seq) ∧
      Playing pt type duration ptime start sender' (n + 1) next waiting ∧
      ends receiver (readable emissions) = copies ended pt duration ptime start ∧
      Long receiver (readable emissions) := by
  obtain ⟨emissions, sender', redis', ran, readyNext, _⟩ :=
    AudioSequence.getRtpPackets_ok prim redis ready media
  obtain ⟨template, advanced, playingNext⟩ := playing_next playing
  obtain ⟨packets, ended, next, waiting, moved, made, heard, long, partly⟩ :=
    rtpPackets_playing fits bound media playingNext
  have encrypted : encryptAll prim { sender with
      rtpPacket := template, dtmf := queueOf duration ptime start next waiting } redis packets =
      (.ok emissions, sender', redis') := by
    rw [← ran, getRtpPackets, advanced]
    simp only [made]
  obtain ⟨crypto, kept, plain⟩ := encryptAll_spec prim packets { sender with
    rtpPacket := template, dtmf := queueOf duration ptime start next waiting } redis
  rw [encrypted] at kept plain
  simp only at kept
  refine ⟨emissions, sender', redis', ended, next, waiting, ran, moved, readyNext, ?_, ?_⟩
  · rw [kept]
    exact ⟨playingNext.template, playingNext.step, playingNext.long, playingNext.mapped, rfl, partly⟩
  · rw [readable_eq, plain emissions rfl]
    exact ⟨heard, long⟩

theorem sendDtmf_playing {sender : Sender} {n : Nat} {front : Option Front} {ids : List UInt8}
    (playing : Playing pt type duration ptime start sender n front ids) (dtmf : String) :
    ∃ more, Playing pt type duration ptime start (sendDtmf sender dtmf) n front (ids ++ more) ∧
      more.map digitOf = (accepted (.sendDtmf dtmf)).toList.map some := by
  have types : ¬ sender.dtmfRtpmap.isNone = true := by
    rw [playing.mapped]
    exact Bool.false_ne_true
  by_cases untold : (dtmf.toList.head?.all fun c => c ∉ TONES) = true
  · have kept : sendDtmf sender dtmf = sender := by rw [sendDtmf, if_pos untold]
    have nothing : accepted (.sendDtmf dtmf) = none := by rw [accepted, if_pos untold]
    rw [kept, nothing]
    exact ⟨[], by rwa [List.append_nil], rfl⟩
  · cases found : dtmfByte dtmf with
    | none =>
      have kept : sendDtmf sender dtmf = sender := by
        rw [sendDtmf, if_neg untold, if_neg types, found]
      have nothing : accepted (.sendDtmf dtmf) = none := by
        rw [accepted, if_neg untold, found]
        rfl
      rw [kept, nothing]
      exact ⟨[], by rwa [List.append_nil], rfl⟩
    | some id =>
      have pushed : sendDtmf sender dtmf = { sender with dtmf := sender.dtmf ++
          [(none, dtmfPayloads id (sender.rate / 1000 * sender.ptime % 65536))] } := by
        rw [sendDtmf, if_neg untold, if_neg types, found]
      have taken : accepted (.sendDtmf dtmf) = some dtmf := by
        rw [accepted, if_neg untold, found]
        rfl
      rw [pushed, taken]
      refine ⟨[id], ⟨playing.template, playing.step, playing.long, playing.mapped, ?_,
        playing.partly⟩, ?_⟩
      · simp only [playing.queue, playing.long, queueOf, List.map_append, List.map_cons,
          List.map_nil, List.append_assoc]
      · rw [List.map_cons, dtmfByte_digit found]
        rfl

/-- The digits of a queue. -/
def frontId (front : Option Front) : List UInt8 := (front.map Front.id).toList

/-- The first packet that a digit of the queue can have begun with. -/
def floor (n : Nat) : Option Front → Nat
  | some digit => digit.began
  | none => n + 1

theorem advance_spec {n : Nat} {front next : Option Front} {ids waiting : List UInt8}
    {ended : List (Nat × UInt8)} (moved : advance (n + 1) front ids = (ended, next, waiting))
    (partly : ∀ digit, front = some digit → digit.began ≤ n) :
    frontId front ++ ids = ended.map Prod.snd ++ (frontId next ++ waiting) ∧
      (ended = [] ∧ floor n front ≤ floor (n + 1) next ∨
        ∃ digit, ended = [digit] ∧ digit.1 = floor n front ∧ digit.1 < floor (n + 1) next) := by
  unfold advance at moved
  split at moved <;> cases moved
  · exact ⟨rfl, Or.inl ⟨rfl, Nat.le_succ _⟩⟩
  · exact ⟨rfl, Or.inl ⟨rfl, Nat.le_refl _⟩⟩
  · rename_i began id
    have past := partly _ rfl
    exact ⟨rfl, Or.inr ⟨(began, id), rfl, rfl, by simp only [floor]; simp only at past; omega⟩⟩
  · exact ⟨rfl, Or.inl ⟨rfl, Nat.le_refl _⟩⟩

/-- The digits whose end a run sends, with the packet each began with: one after another, and
    with those that still wait they are the digits that were to be sent. -/
theorem emitted_ends (prim : Srtp.Primitives) (fits : Fits receiver pt type)
    (bound : start < 2 ^ 32) (events : List Event) :
    ∀ {sender : Sender} {redis : Srtp.RocStore} {ssrc seq n : Nat} {front : Option Front}
      {ids : List UInt8}, AudioSequence.Ready sender ssrc seq →
      Playing pt type duration ptime start sender n front ids →
      ∃ ended next waiting m, ends receiver (readable (emitted prim sender redis events)) =
          copies ended pt duration ptime start ∧
        Long receiver (readable (emitted prim sender redis events)) ∧
        (ended.map Prod.fst).Pairwise (· < ·) ∧
        (∀ digit ∈ ended, floor n front ≤ digit.1 ∧ digit.1 ≤ n + calls events) ∧
        Playing pt type duration ptime start (played prim sender redis events) m next waiting ∧
        (frontId front ++ ids).map digitOf ++ (events.filterMap accepted).map some =
          (ended.map Prod.snd ++ (frontId next ++ waiting)).map digitOf := by
  induction events with
  | nil =>
    intro sender redis ssrc seq n front ids _ playing
    refine ⟨[], front, ids, n, rfl, nofun, List.Pairwise.nil, nofun, playing, ?_⟩
    simp
  | cons event rest ih =>
    intro sender redis ssrc seq n front ids ready playing
    cases event with
    | sendDtmf dtmf =>
      obtain ⟨more, playingNext, digits⟩ := sendDtmf_playing playing dtmf
      obtain ⟨ended, next, waiting, m, heard, long, order, within, final, all⟩ :=
        @ih (sendDtmf sender dtmf) redis ssrc seq n front (ids ++ more)
          (AudioSequence.sendDtmf_ready ready dtmf).1 playingNext
      refine ⟨ended, next, waiting, m, heard, long, order, ?_, final, ?_⟩
      · intro digit listed
        simpa [calls] using within digit listed
      · have split : (frontId front ++ (ids ++ more)).map digitOf =
            (frontId front ++ ids).map digitOf ++ more.map digitOf := by
          rw [← List.append_assoc, List.map_append]
        rw [← all, List.filterMap_cons, split, digits]
        cases accepted (.sendDtmf dtmf) <;> simp
    | getRtpPackets media =>
      obtain ⟨emissions, sender', redis', ended, next, waiting, ran, moved, readyNext, playingNext,
        heard, long⟩ := @getRtpPackets_playing _ _ _ _ _ receiver prim sender redis ssrc seq n front ids
          fits bound ready media playing
      obtain ⟨digits, stamps⟩ := advance_spec moved
        fun digit same => (playing.partly digit same).2
      obtain ⟨later, last, left, m, heardRest, longRest, order, within, final, all⟩ :=
        @ih sender' redis' ssrc _ (n + 1) next waiting readyNext playingNext
      refine ⟨ended ++ later, last, left, m, ?_, ?_, ?_, ?_, ?_, ?_⟩
      · rw [AudioSequence.emitted_call rest ran, readable, List.filterMap_append, ends,
          List.filter_append, copies, List.flatMap_append]
        exact congrArg₂ _ heard heardRest
      · rw [AudioSequence.emitted_call rest ran, readable, List.filterMap_append]
        intro packet listed
        rcases List.mem_append.mp listed with early | late
        · exact long packet early
        · exact longRest packet late
      · rcases stamps with ⟨rfl, _⟩ | ⟨digit, rfl, same, before⟩
        · exact order
        · rw [List.map_append, List.map_cons, List.map_nil, List.singleton_append,
            List.pairwise_cons]
          refine ⟨?_, order⟩
          intro stamp listed
          obtain ⟨other, among, rfl⟩ := List.mem_map.mp listed
          exact Nat.lt_of_lt_of_le before (within other among).1
      · have count : calls (.getRtpPackets media :: rest) = calls rest + 1 := by simp [calls]
        intro digit listed
        rw [count]
        rcases stamps with ⟨rfl, lower⟩ | ⟨first, rfl, same, before⟩
        · have inside := within digit listed
          omega
        · rcases List.mem_cons.mp listed with rfl | later'
          · refine ⟨Nat.le_of_eq same.symm, ?_⟩
            rw [same]
            cases front with
            | none =>
              simp only [floor]
              omega
            | some held =>
              have past := (playing.partly held rfl).2
              simp only [floor]
              omega
          · have inside := within digit later'
            omega
      · simp only [played, ran]
        exact final
      · rw [digits, List.filterMap_cons]
        simp only [accepted, List.map_append, List.append_assoc]
        rw [List.map_append, List.map_append] at all
        simp only [List.map_append, List.append_assoc] at all
        rw [all]

theorem bytes16_mod (v : Nat) : bytes16 (v % 65536) = bytes16 v := by
  have split := RtpPacket.bytes16_add (v / 65536) (v % 65536)
  rw [Nat.mul_comm, Nat.div_add_mod] at split
  exact split.symm

theorem bytes32_mod (v : Nat) : bytes32 (v % 4294967296) = bytes32 v := by
  unfold bytes32
  have high : v % 4294967296 / 65536 = v / 65536 % 65536 := by omega
  have low : bytes16 (v % 4294967296) = bytes16 v := by
    rw [← bytes16_mod (v % 4294967296), ← bytes16_mod v]
    congr 1
    omega
  rw [high, bytes16_mod, low]

theorem new_playing (seq ts ssrc : Nat) (typeNumber : UInt8) (rate ptime : Nat) (pt : UInt8)
    (crypto : Option Srtp.CryptoContext) :
    Playing pt (typeNumber &&& RtpPacket.PT_MASK) (rate / 1000 * ptime % 65536)
      (rate / 1000 * ptime % 4294967296) (ts % 4294967296)
      (StreamLocalState.new seq ts ssrc typeNumber rate ptime (some pt) crypto) 0 none [] := by
  let header : RtpPacket.RtpHeader := {
    first := 0x80
    second := typeNumber &&& RtpPacket.PT_MASK
    sequence := UInt16.ofNat seq
    timestamp := UInt32.ofNat ts
    ssrc := UInt32.ofNat ssrc
    csrc := []
    block := []
    csrcLength := rfl
    blockValid := by
      unfold RtpPacket.ExtensionBlock
      rw [if_neg (by decide)] }
  refine ⟨⟨header, [], ?_, ?_, ?_⟩, rfl, rfl, rfl, rfl, nofun⟩
  · simp only [StreamLocalState.new, header, RtpPacket.RtpHeader.bytes, UInt16.toNat_ofNat',
      UInt32.toNat_ofNat', List.append_nil]
    rw [bytes16_mod, bytes32_mod, bytes32_mod]
    simp
  · exact UInt32.toNat_ofNat'
  · show typeNumber &&& RtpPacket.PT_MASK &&& RtpPacket.PT_MASK = typeNumber &&& RtpPacket.PT_MASK
    rw [UInt8.and_assoc, UInt8.and_self]

theorem queued_digits {sender : Sender} {n : Nat} {front : Option Front} {ids : List UInt8}
    (playing : Playing pt type duration ptime start sender n front ids) :
    sender.dtmf.filterMap queuedDigit = (frontId front ++ ids).filterMap digitOf := by
  rw [playing.queue, queueOf, List.filterMap_append, List.filterMap_append]
  congr 1
  · cases front with
    | none => rfl
    | some digit => rfl
  · rw [List.filterMap_map]
    rfl

theorem report_digit (packets : List Packet) : (packets.filterMap report).map Prod.snd =
    (packets.map fun packet => packet.payload[0]?.bind digitOf).filterMap id := by
  rw [List.map_filterMap, List.filterMap_map]
  congr 1
  funext packet
  unfold report
  rw [Option.map_map]
  exact Option.map_id'

theorem apart_of_order {events : Nat} {ended : List (Nat × UInt8)} (bound : start < 2 ^ 32)
    (ticks : 0 < ptime) (turn : events * ptime < 2 ^ 32)
    (order : (ended.map Prod.fst).Pairwise (· < ·)) (within : ∀ digit ∈ ended, digit.1 ≤ events) :
    (ended.map fun digit => List.replicate 3 (endPacket pt duration ptime start digit)).Pairwise
      fun block later => ∀ item ∈ block, ∀ other ∈ later, item.timestamp ≠ other.timestamp := by
  rw [List.pairwise_map] at order ⊢
  refine (List.Pairwise.and_mem.mp order).imp ?_
  rintro early late ⟨_, listed, before⟩ item first other second same
  rw [List.eq_of_mem_replicate first, List.eq_of_mem_replicate second] at same
  have numbers := congrArg UInt32.toNat same
  simp only [endPacket, UInt32.toNat_ofNat'] at numbers
  rw [Nat.mod_eq_of_lt (clock_lt bound _), Nat.mod_eq_of_lt (clock_lt bound _)] at numbers
  exact clock_inj ticks turn before (within late listed) numbers

/-- Two digits and the start of a third. -/
def dialled : List Event :=
  let sound : Event := .getRtpPackets [0, 0]
  [.sendDtmf "5", sound, sound, .sendDtmf "#", sound, sound, sound, sound, .sendDtmf "1", sound,
    sound, sound, sound, sound]

/-- The second copy of the end of the 5, a packet before the end of the #, and the last copy of
    its end. -/
def lossyArrivals : List (ℕ × Packet) :=
  [(120, ⟨101, 160, [5, 138, 3, 32]⟩), (200, ⟨101, 960, [11, 10, 2, 128]⟩),
    (240, ⟨101, 960, [11, 138, 3, 32]⟩)]

end Sender
end DtmfTransport
