import Nebula.Lib.ByteStrings
import Nebula.Lib.Expiring
import Nebula.Lib.Repeats
import Nebula.Switchboard.InactivityMonitor

/- Telephone events in the RTP of an audio stream. The receiver reports a digit at an end packet,
   and leaves out the end packets whose timestamp is the one of the end packet before. Redis
   and the switchboard answer; times are milliseconds. -/
namespace TelephoneEvents
open ByteStrings
open InactivityMonitor (MediaMode)

def DTMF_DIGITS : List String :=
  ["0", "1", "2", "3", "4", "5", "6", "7", "8", "9", "*", "#", "A", "B", "C", "D", "X"]

/-- How long the timestamp of the last end packet is kept. -/
def DTMF_EXPIRE : ℕ := 10000

/-- A packet as the RTP library reads it. -/
structure Packet where
  payloadType : UInt8
  timestamp : UInt32
  payload : Bytes
  deriving DecidableEq, Repr

structure AudioStreamReceiver where
  mode : MediaMode
  muted : Bool
  t38Passthrough : Bool
  typeNumber : UInt8
  dtmfPts : List UInt8

/-- The timestamp in Redis, and the digits reported to the stream of the channel and to the
    switchboard, with the timestamps of their packets. -/
structure Dtmf where
  dtmfTimestamp : Expiring.Cell UInt32 := none
  reported : List (UInt32 × String) := []

def digitOf (code : UInt8) : Option String := DTMF_DIGITS[code.toNat]?

/-- A telephone event. The timestamp is swapped before the digit is looked up. -/
def receiveDtmf (now : ℕ) (dtmf : Dtmf) (packet : Packet) : Dtmf × Outcome Unit :=
  match byteAt packet.payload 1 with
  | .error fault => (dtmf, .error fault)
  | .ok second =>
    if 0 < second &&& 0x80 then
      let lastTimestamp := Expiring.read now dtmf.dtmfTimestamp
      let swapped := some ⟨packet.timestamp, none⟩
      let dtmf := { dtmf with dtmfTimestamp := Expiring.expireAt now (now + DTMF_EXPIRE) swapped }
      if lastTimestamp = some packet.timestamp then (dtmf, .ok ())
      else
        match byteAt packet.payload 0 with
        | .error fault => (dtmf, .error fault)
        | .ok first =>
          match digitOf first with
          | none => (dtmf, .error (.error "receive invalid DTMF"))
          | some digit =>
            ({ dtmf with reported := dtmf.reported ++ [(packet.timestamp, digit)] }, .ok ())
    else (dtmf, .ok ())

/-- Packets of other types go on to the audio, which leaves the events alone. -/
def receiveRtpPacket (receiver : AudioStreamReceiver) (now : ℕ) (dtmf : Dtmf) (packet : Packet) :
    Dtmf × Outcome Unit :=
  if receiver.mode ≠ .Sendrecv then (dtmf, .ok ())
  else if receiver.muted then (dtmf, .ok ())
  else if receiver.t38Passthrough then (dtmf, .ok ())
  else if packet.payloadType ≠ receiver.typeNumber ∧ packet.payloadType ∈ receiver.dtmfPts then
    receiveDtmf now dtmf packet
  else (dtmf, .ok ())

/-- The loop of the stream drops the errors; a panic ends it. -/
def receiveAll (receiver : AudioStreamReceiver) (dtmf : Dtmf) : List (ℕ × Packet) → Outcome Dtmf
  | [] => .ok dtmf
  | (now, packet) :: rest =>
    match receiveRtpPacket receiver now dtmf packet with
    | (_, .error .panic) => .error .panic
    | (after, _) => receiveAll receiver after rest

/-- Telephone events that come to a receiver which takes them, within ten seconds. -/
structure Arrivals (receiver : AudioStreamReceiver) (start : ℕ) (arrivals : List (ℕ × Packet)) : Prop where
  listening : receiver.mode = .Sendrecv ∧ receiver.muted = false ∧ receiver.t38Passthrough = false
  events : ∀ arrival ∈ arrivals, arrival.2.payloadType ≠ receiver.typeNumber ∧
    arrival.2.payloadType ∈ receiver.dtmfPts
  soon : ∀ arrival ∈ arrivals, start ≤ arrival.1 ∧ arrival.1 < start + DTMF_EXPIRE

def isEnd (packet : Packet) : Bool :=
  packet.payload[1]?.any fun second => decide (0 < second &&& 0x80)

/-- The first byte is the code of a digit. -/
def hasDigit (packet : Packet) : Bool := (packet.payload[0]?.bind digitOf).isSome

/-- An end packet with event, volume and duration. -/
def WellFormedEnd (packet : Packet) : Prop :=
  4 ≤ packet.payload.length ∧ isEnd packet = true ∧ hasDigit packet = true

/-- The end packets in the order in which they came. -/
def endPackets (arrivals : List (ℕ × Packet)) : List Packet :=
  (arrivals.map fun arrival => arrival.2).filter isEnd

/-- Nothing panics, and every event with a well-formed end packet is reported exactly once. -/
def ReportedOnce (receiver : AudioStreamReceiver) (arrivals : List (ℕ × Packet)) : Prop :=
  ∃ last, receiveAll receiver {} arrivals = .ok last ∧
    ∀ arrival ∈ arrivals, WellFormedEnd arrival.2 →
      last.reported.countP (fun report => decide (report.1 = arrival.2.timestamp)) = 1

/-- No payload is shorter than two bytes, and of the bursts into which the end packets of others
    part the end packets of an event, exactly one begins with the code of a digit. -/
def OneBurst (arrivals : List (ℕ × Packet)) : Prop :=
  (∀ arrival ∈ arrivals, 2 ≤ arrival.2.payload.length) ∧
    ∀ arrival ∈ arrivals, WellFormedEnd arrival.2 →
      ∃! i, ∃ packet, Repeats.Opens Packet.timestamp none (endPackets arrivals) i packet ∧
        packet.timestamp = arrival.2.timestamp ∧ hasDigit packet = true

section Reports

/-- The report of an end packet that is not left out. -/
def report (packet : Packet) : Option (UInt32 × String) :=
  (packet.payload[0]?.bind digitOf).map fun digit => (packet.timestamp, digit)

/-- What is kept of the last timestamp for ten seconds from the start. -/
def Reads (start : ℕ) (dtmf : Dtmf) (last : Option UInt32) : Prop :=
  ∀ now, start ≤ now → now < start + DTMF_EXPIRE → Expiring.read now dtmf.dtmfTimestamp = last

variable {receiver : AudioStreamReceiver} {start now : ℕ} {dtmf : Dtmf} {packet : Packet}
  {last : Option UInt32}

theorem receiveDtmf_short (short : packet.payload.length < 2) :
    receiveDtmf now dtmf packet = (dtmf, .error .panic) := by
  have none_ : packet.payload[1]? = none := List.getElem?_eq_none (by omega)
  unfold receiveDtmf byteAt
  rw [none_]

theorem reads_swapped (began : start ≤ now) (reported : List (UInt32 × String)) :
    Reads start ⟨Expiring.expireAt now (now + DTMF_EXPIRE) (some ⟨packet.timestamp, none⟩), reported⟩
      (some packet.timestamp) := by
  intro later _ inTime
  rw [Expiring.read_expireAt, if_pos (by omega)]
  rfl

/-- A payload of two bytes or more never panics; an end packet is remembered, and reported if the
    one before had another timestamp. -/
theorem receiveDtmf_step (long : 2 ≤ packet.payload.length) (reads : Reads start dtmf last)
    (began : start ≤ now) (inTime : now < start + DTMF_EXPIRE) :
    ∃ after result, receiveDtmf now dtmf packet = (after, result) ∧ result ≠ .error .panic ∧
      Reads start after (if isEnd packet then some packet.timestamp else last) ∧
      after.reported = dtmf.reported ++
        if isEnd packet ∧ last ≠ some packet.timestamp then (report packet).toList else [] := by
  obtain ⟨second, secondFound⟩ : ∃ second, packet.payload[1]? = some second :=
    ⟨_, List.getElem?_eq_getElem (by omega)⟩
  obtain ⟨first, firstFound⟩ : ∃ first, packet.payload[0]? = some first :=
    ⟨_, List.getElem?_eq_getElem (by omega)⟩
  have isEnd_eq : isEnd packet = decide (0 < second &&& 0x80) := by
    unfold isEnd
    rw [secondFound]
    rfl
  have report_eq : report packet = (digitOf first).map fun digit => (packet.timestamp, digit) := by
    unfold report
    rw [firstFound]
    rfl
  unfold receiveDtmf byteAt
  rw [secondFound, firstFound, reads now began inTime, isEnd_eq, report_eq]
  by_cases ended : 0 < second &&& 0x80
  · simp only [ended, if_true, decide_true, true_and]
    by_cases same : last = some packet.timestamp
    · simp only [same, if_true, ne_eq, not_true_eq_false, if_false, List.append_nil]
      exact ⟨_, _, rfl, by simp, reads_swapped began _, rfl⟩
    · simp only [same, if_false, ne_eq, not_false_eq_true, if_true]
      cases digitOf first with
      | none => exact ⟨_, _, rfl, by simp, reads_swapped began _, (List.append_nil _).symm⟩
      | some digit => exact ⟨_, _, rfl, by simp, reads_swapped began _, rfl⟩
  · simp only [ended, if_false, decide_false, Bool.false_eq_true, false_and, List.append_nil]
    exact ⟨_, _, rfl, by simp, reads, rfl⟩

theorem receiveRtpPacket_event {arrivals : List (ℕ × Packet)}
    (arrive : Arrivals receiver start ((now, packet) :: arrivals)) :
    receiveRtpPacket receiver now dtmf packet = receiveDtmf now dtmf packet := by
  obtain ⟨mode, unmuted, audio⟩ := arrive.listening
  have event := arrive.events (now, packet) List.mem_cons_self
  unfold receiveRtpPacket
  rw [if_neg (not_not.mpr mode), unmuted, audio, if_neg Bool.false_ne_true,
    if_neg Bool.false_ne_true, if_pos event]

theorem arrivals_tail {arrival : ℕ × Packet} {arrivals : List (ℕ × Packet)}
    (arrive : Arrivals receiver start (arrival :: arrivals)) : Arrivals receiver start arrivals :=
  ⟨arrive.listening, fun other member => arrive.events other (List.mem_cons_of_mem _ member),
    fun other member => arrive.soon other (List.mem_cons_of_mem _ member)⟩

theorem endPackets_cons (arrival : ℕ × Packet) (rest : List (ℕ × Packet)) :
    endPackets (arrival :: rest) = (if isEnd arrival.2 then [arrival.2] else []) ++ endPackets rest := by
  unfold endPackets
  rw [List.map_cons, List.filter_cons]
  split <;> rfl

/-- Where no payload is too short, the packets reported are the first end packets of bursts. -/
theorem receiveAll_long (arrivals : List (ℕ × Packet)) :
    ∀ {dtmf : Dtmf} {last : Option UInt32}, Arrivals receiver start arrivals →
      Reads start dtmf last → (∀ arrival ∈ arrivals, 2 ≤ arrival.2.payload.length) →
      ∃ after, receiveAll receiver dtmf arrivals = .ok after ∧
        after.reported = dtmf.reported ++
          (Repeats.firsts Packet.timestamp last (endPackets arrivals)).filterMap report := by
  induction arrivals with
  | nil => exact fun {dtmf} {_} _ _ _ => ⟨dtmf, rfl, (List.append_nil _).symm⟩
  | cons arrival rest ih =>
    intro dtmf last arrive reads long
    obtain ⟨now, packet⟩ := arrival
    obtain ⟨began, inTime⟩ := arrive.soon (now, packet) List.mem_cons_self
    obtain ⟨middle, result, received, fine, readsAfter, reported⟩ :=
      receiveDtmf_step (long (now, packet) List.mem_cons_self) reads began inTime
    obtain ⟨after, ran, all⟩ := ih (arrivals_tail arrive) readsAfter
      fun other member => long other (List.mem_cons_of_mem _ member)
    have onward : receiveAll receiver dtmf ((now, packet) :: rest) = receiveAll receiver middle rest := by
      rw [receiveAll, receiveRtpPacket_event arrive, received]
      cases result with
      | ok _ => rfl
      | error fault =>
        cases fault with
        | panic => exact absurd rfl fine
        | error text => rfl
    refine ⟨after, onward.trans ran, ?_⟩
    rw [all, reported, List.append_assoc, endPackets_cons]
    congr 1
    by_cases ended : isEnd packet = true
    · simp only [ended, if_true, true_and, List.singleton_append]
      rw [Repeats.firsts_cons, List.filterMap_append]
      congr 1
      by_cases same : last = some packet.timestamp
      · simp [same]
      · simp only [same, ne_eq, not_false_eq_true, if_true, if_false]
        cases found : report packet with
        | none => simp [found]
        | some entry => simp [found]
    · simp [ended]

theorem receiveAll_short (arrivals : List (ℕ × Packet)) :
    ∀ {dtmf : Dtmf} {last : Option UInt32}, Arrivals receiver start arrivals →
      Reads start dtmf last → (∃ arrival ∈ arrivals, arrival.2.payload.length < 2) →
      receiveAll receiver dtmf arrivals = .error .panic := by
  induction arrivals with
  | nil =>
    rintro _ _ _ _ ⟨_, member, _⟩
    cases member
  | cons arrival rest ih =>
    intro dtmf last arrive reads short
    obtain ⟨now, packet⟩ := arrival
    rw [receiveAll, receiveRtpPacket_event arrive]
    by_cases here : packet.payload.length < 2
    · rw [receiveDtmf_short here]
    · obtain ⟨began, inTime⟩ := arrive.soon (now, packet) List.mem_cons_self
      obtain ⟨middle, result, received, fine, readsAfter, _⟩ :=
        receiveDtmf_step (Nat.le_of_not_lt here) reads began inTime
      have later : ∃ arrival ∈ rest, arrival.2.payload.length < 2 := by
        obtain ⟨other, member, less⟩ := short
        rcases List.mem_cons.mp member with rfl | inside
        · exact absurd less here
        · exact ⟨other, inside, less⟩
      have panics := ih (arrivals_tail arrive) readsAfter later
      rw [received]
      cases result with
      | ok _ => exact panics
      | error fault =>
        cases fault with
        | panic => exact absurd rfl fine
        | error text => exact panics

theorem reads_start (start : ℕ) : Reads start {} none := fun _ _ _ => rfl

/-- The reports of an event are those of the first packets of its bursts that have a digit. -/
theorem countP_report (timestamp : UInt32) (packets : List Packet) :
    (packets.filterMap report).countP (fun report => decide (report.1 = timestamp)) =
      packets.countP fun packet => decide (packet.timestamp = timestamp) && hasDigit packet := by
  induction packets with
  | nil => rfl
  | cons packet rest ih =>
    cases digit : packet.payload[0]?.bind digitOf with
    | none => simp [report, hasDigit, digit, ih]
    | some text => simp [report, hasDigit, digit, ih, List.countP_cons]

end Reports

/-- Telephone events that come within ten seconds are reported once each, and none panics,
    exactly if each payload has two bytes and each event has one burst of end packets that
    begins with a digit. -/
theorem reported_once_iff (receiver : AudioStreamReceiver) (start : ℕ)
    (arrivals : List (ℕ × Packet)) (arrive : Arrivals receiver start arrivals) :
    ReportedOnce receiver arrivals ↔ OneBurst arrivals := by
  by_cases long : ∀ arrival ∈ arrivals, 2 ≤ arrival.2.payload.length
  · obtain ⟨after, ran, reported⟩ := receiveAll_long arrivals arrive (reads_start start) long
    have each : ∀ timestamp, after.reported.countP (fun report => decide (report.1 = timestamp)) = 1 ↔
        ∃! i, ∃ packet, Repeats.Opens Packet.timestamp none (endPackets arrivals) i packet ∧
          packet.timestamp = timestamp ∧ hasDigit packet = true := by
      intro timestamp
      rw [reported, List.nil_append, countP_report, Repeats.one_opens_iff]
      simp only [Bool.and_eq_true, decide_eq_true_eq]
    constructor
    · rintro ⟨last, ranLast, once⟩
      cases ran.symm.trans ranLast
      exact ⟨long, fun arrival member formed => (each _).mp (once arrival member formed)⟩
    · rintro ⟨_, single⟩
      exact ⟨after, ran, fun arrival member formed => (each _).mpr (single arrival member formed)⟩
  · refine iff_of_false ?_ fun burst => long burst.1
    rintro ⟨last, ran, _⟩
    simp only [not_forall, Nat.not_le] at long
    obtain ⟨arrival, member, short⟩ := long
    rw [receiveAll_short arrivals arrive (reads_start start) ⟨arrival, member, short⟩] at ran
    cases ran

/-- A stream of PCMU with telephone events of type 101. -/
def phone : AudioStreamReceiver := ⟨.Sendrecv, false, false, 0, [101]⟩

def endOf (timestamp : UInt32) (code : UInt8) : Packet := ⟨101, timestamp, [code, 0x80, 3, 0x20]⟩

/-- The end of a 5, which comes three times. -/
def repeatedEnd : List (ℕ × Packet) := [(0, endOf 160 5), (1, endOf 160 5), (2, endOf 160 5)]

theorem repeatedEnd_arrives : Arrivals phone 0 repeatedEnd := by
  refine ⟨⟨rfl, rfl, rfl⟩, ?_, ?_⟩
  · decide
  · decide

theorem reported_once_repeated :
    Arrivals phone 0 repeatedEnd ∧ (ReportedOnce phone repeatedEnd ↔ OneBurst repeatedEnd) :=
  ⟨repeatedEnd_arrives, reported_once_iff phone 0 repeatedEnd repeatedEnd_arrives⟩

/-- The end of a 1 that comes again after the end of a 2. -/
def interleaved : List (ℕ × Packet) := [(0, endOf 160 1), (1, endOf 320 2), (2, endOf 160 1)]

def tooShort : List (ℕ × Packet) := [(0, ⟨101, 160, [1]⟩)]

/-- The 1 is reported twice, and a payload of one byte panics. -/
theorem interleaved_reported_twice :
    (Arrivals phone 0 interleaved ∧ ¬ ReportedOnce phone interleaved) ∧
      Arrivals phone 0 tooShort ∧ receiveAll phone {} tooShort = .error .panic := by
  refine ⟨⟨⟨⟨rfl, rfl, rfl⟩, by decide, by decide⟩, ?_⟩, ⟨⟨rfl, rfl, rfl⟩, by decide, by decide⟩, rfl⟩
  rintro ⟨last, ran, once⟩
  have again := once (0, endOf 160 1) List.mem_cons_self ⟨by decide, by decide, by decide⟩
  cases ran
  revert again
  decide

end TelephoneEvents
