import Nebula.Media.NackSender
import Nebula.Media.PublishedLayers
import Nebula.Media.TransportFeedback

/- When the receiver of a video stream looks through its trackers for packets to ask for. The
   time of the last look is read, but nothing writes it. -/
namespace VideoReceiver
open ByteStrings
open TransportFeedback (expandTruncatedCounter)

section Receiver

def NACK_CALCULATION_INTERVAL : Nat := 20000000

structure IncomingSsrcState where
  maxSeqnum : Nat
  nackSender : NackSender

/-- The receiver with what it keeps for the requests. -/
structure NackReceiver where
  receiver : VideoStreamReceiver
  stateByIncomingSsrc : IndexMap UInt32 IncomingSsrcState
  nacksSent : Option Nat

def NackReceiver.new (receiver : VideoStreamReceiver) : NackReceiver :=
  ⟨receiver, IndexMap.empty, none⟩

def getIncomingSsrcState (nacking : NackReceiver) (ssrc : UInt32) : IncomingSsrcState :=
  (nacking.stateByIncomingSsrc.entries.lookup ssrc).getD ⟨0, NackSender.new 250⟩

def rememberSeqnum (nacking : NackReceiver) (ssrc : UInt32) (sequenceNumber : UInt16) :
    NackReceiver :=
  let ssrcState := getIncomingSsrcState nacking ssrc
  let fullSeqnum := expandTruncatedCounter sequenceNumber.toNat ssrcState.maxSeqnum 16
  let after := ⟨fullSeqnum.2, ssrcState.nackSender.rememberReceived fullSeqnum.1⟩
  { nacking with stateByIncomingSsrc := nacking.stateByIncomingSsrc.insert ssrc after }

variable (marshalNack : UInt32 → List Nat → Option Bytes)

/-- The trackers one after another; a request that cannot be written ends the scan. -/
def scan (now : Nat) : List (UInt32 × IncomingSsrcState) → IndexMap UInt32 IncomingSsrcState →
    IndexMap UInt32 IncomingSsrcState × List Bytes
  | [], table => (table, [])
  | (ssrc, state) :: rest, table =>
    let asked := state.nackSender.sendNacks now
    let table := table.insert ssrc { state with nackSender := asked.1 }
    match asked.2 with
    | none => scan now rest table
    | some seqnums =>
      match marshalNack ssrc (seqnums.map (· % 65536)) with
      | none => (table, [])
      | some packet =>
        let more := scan now rest table
        (more.1, packet :: more.2)

/-- The requests that go out, none where the last scan is too recent. -/
def sendNacks (nacking : NackReceiver) (now : Nat) : NackReceiver × Option (List Bytes) :=
  if (nacking.nacksSent.map fun nacksSent =>
      decide (now < nacksSent + NACK_CALCULATION_INTERVAL)).getD false then (nacking, none)
  else
    let scanned := scan marshalNack now nacking.stateByIncomingSsrc.entries
      nacking.stateByIncomingSsrc
    ({ nacking with stateByIncomingSsrc := scanned.1 }, some scanned.2)

variable (unmarshal : Bytes → Option Rtp) (quotient : Nat → Nat → Nat)

/-- What a packet that is handled leads to, and what every other event does. -/
def nackStep (nacking : NackReceiver) (event : Event) :
    Outcome (NackReceiver × Option (List Bytes)) := do
  let after ← step unmarshal quotient nacking.receiver event
  let nacking := { nacking with receiver := after.1 }
  match event, after.2 with
  | .packet _ readings, some handled =>
    let sequenceNumber := ((unmarshal handled.packet).map Rtp.sequenceNumber).getD 0
    pure (sendNacks marshalNack (rememberSeqnum nacking handled.ssrc sequenceNumber) readings.now)
  | _, _ => pure (nacking, none)

/-- The times of the scans of a run; a panic ends it. -/
def scans (nacking : NackReceiver) : List Event → List Nat
  | [] => []
  | event :: rest =>
    match nackStep marshalNack unmarshal quotient nacking event with
    | .error _ => []
    | .ok (after, none) => scans after rest
    | .ok (after, some _) =>
      match event with
      | .packet _ readings => readings.now :: scans after rest
      | .mute _ => scans after rest

/-- The times of the packets that are handled. -/
def handledTimes (receiver : VideoStreamReceiver) : List Event → List Nat
  | [] => []
  | event :: rest =>
    match step unmarshal quotient receiver event with
    | .error _ => []
    | .ok (after, none) => handledTimes after rest
    | .ok (after, some _) =>
      match event with
      | .packet _ readings => readings.now :: handledTimes after rest
      | .mute _ => handledTimes after rest

def IntervalsApart (times : List Nat) : Prop :=
  times.Pairwise fun earlier later => earlier + NACK_CALCULATION_INTERVAL ≤ later

end Receiver

section Scans
variable {marshalNack : UInt32 → List Nat → Option Bytes} {unmarshal : Bytes → Option Rtp}
  {quotient : Nat → Nat → Nat}

theorem sendNacks_scans {nacking : NackReceiver} (never : nacking.nacksSent = none) (now : Nat) :
    ∃ after packets, sendNacks marshalNack nacking now = (after, some packets) ∧
      after.receiver = nacking.receiver ∧ after.nacksSent = none := by
  unfold sendNacks
  rw [never]
  exact ⟨_, _, rfl, rfl, rfl⟩

/-- A step scans exactly if it handles a packet, and leaves no time behind. -/
theorem nackStep_cases {nacking : NackReceiver} (never : nacking.nacksSent = none) (event : Event) :
    (∃ fault, step unmarshal quotient nacking.receiver event = .error fault ∧
      nackStep marshalNack unmarshal quotient nacking event = .error fault) ∨
    ∃ after found nackingAfter, step unmarshal quotient nacking.receiver event = .ok (after, found) ∧
      nackingAfter.receiver = after ∧ nackingAfter.nacksSent = none ∧
      ((found = none ∧
          nackStep marshalNack unmarshal quotient nacking event = .ok (nackingAfter, none)) ∨
        ∃ packet readings handled packets, event = .packet packet readings ∧ found = some handled ∧
          nackStep marshalNack unmarshal quotient nacking event =
            .ok (nackingAfter, some packets)) := by
  unfold nackStep
  cases stepped : step unmarshal quotient nacking.receiver event with
  | error fault => exact Or.inl ⟨fault, rfl, rfl⟩
  | ok result =>
    obtain ⟨after, found⟩ := result
    right
    rw [ok_bind]
    cases event with
    | mute muted =>
      cases stepped
      exact ⟨_, _, { nacking with receiver := _ }, rfl, rfl, never, Or.inl ⟨rfl, rfl⟩⟩
    | packet packet readings =>
      cases found with
      | none => exact ⟨_, _, { nacking with receiver := after }, rfl, rfl, never, Or.inl ⟨rfl, rfl⟩⟩
      | some handled =>
        obtain ⟨last, packets, sent, same, still⟩ := @sendNacks_scans marshalNack
          (rememberSeqnum { nacking with receiver := after } handled.ssrc
            (((unmarshal handled.packet).map Rtp.sequenceNumber).getD 0)) never readings.now
        refine ⟨after, some handled, last, rfl, same, still,
          Or.inr ⟨packet, readings, handled, packets, rfl, rfl, ?_⟩⟩
        simp only [sent, pure_eq_ok]

/-- Every handled packet has the trackers scanned. -/
theorem scans_handled (events : List Event) :
    ∀ nacking : NackReceiver, nacking.nacksSent = none →
      scans marshalNack unmarshal quotient nacking events =
        handledTimes unmarshal quotient nacking.receiver events := by
  induction events with
  | nil =>
    intro nacking _
    rfl
  | cons event rest ih =>
    intro nacking never
    unfold scans handledTimes
    rcases @nackStep_cases marshalNack unmarshal quotient nacking never event with
      ⟨fault, stepped, nacked⟩ | ⟨after, found, nackingAfter, stepped, same, still,
        ⟨rfl, nacked⟩ | ⟨packet, readings, handled, packets, rfl, rfl, nacked⟩⟩
    · rw [stepped, nacked]
    · rw [stepped, nacked]
      simp only
      rw [ih nackingAfter still, same]
    · rw [stepped, nacked]
      simp only
      rw [ih nackingAfter still, same]

/-- The scans keep their distance exactly where the handled packets do. -/
theorem scans_apart_iff (marshalNack : UInt32 → List Nat → Option Bytes)
    (unmarshal : Bytes → Option Rtp) (quotient : Nat → Nat → Nat) (receiver : VideoStreamReceiver)
    (events : List Event) :
    IntervalsApart (scans marshalNack unmarshal quotient (NackReceiver.new receiver) events) ↔
      IntervalsApart (handledTimes unmarshal quotient receiver events) := by
  rw [scans_handled events (NackReceiver.new receiver) rfl]
  rfl

/-- Two packets of one layer, a millisecond apart. -/
theorem scans_not_apart :
    ¬ ∀ (marshalNack : UInt32 → List Nat → Option Bytes) (unmarshal : Bytes → Option Rtp)
      (quotient : Nat → Nat → Nat) (receiver : VideoStreamReceiver) (events : List Event),
      IntervalsApart (scans marshalNack unmarshal quotient (NackReceiver.new receiver) events) := by
  intro claimed
  have apart := claimed (fun _ _ => none) readOneByte (fun bits _ => bits)
    (VideoStreamReceiver.new 96 false) [keyFrame 104 1 180 0, keyFrame 104 1 180 1000000]
  have times : scans (fun _ _ => none) readOneByte (fun bits _ => bits)
      (NackReceiver.new (VideoStreamReceiver.new 96 false))
      [keyFrame 104 1 180 0, keyFrame 104 1 180 1000000] = [0, 1000000] := by
    decide +kernel
  rw [times] at apart
  exact absurd ((List.pairwise_cons.mp apart).1 1000000 List.mem_cons_self) (by decide)

end Scans

end VideoReceiver
