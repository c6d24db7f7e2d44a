import Mathlib.Algebra.GroupWithZero.Nat
import Mathlib.Data.List.Basic
import Mathlib.Tactic.Common

/- Transport-wide congestion feedback: a receiver remembers when packets came and reports it
   in ticks, a sender reads the reports. Instants are nanoseconds from the receiver's epoch. -/
namespace TransportFeedback

def MICROS_PER_REFERENCE_TICK : Nat := 64000
def MICROS_PER_DELTA_TICK : Nat := 250

section Counters

/-- The full number for a truncated one, and the largest number seen after it. -/
def expandTruncatedCounter (truncated max width : Nat) : Nat × Nat :=
  let reallyBig := 2 ^ (width - 1)
  let truncatedMax := max % 2 ^ width
  let maxRoc := max / 2 ^ width
  let roc :=
    if truncated < truncatedMax ∧ reallyBig < truncatedMax - truncated then maxRoc + 1
    else if 0 < maxRoc ∧ truncatedMax < truncated ∧ reallyBig < truncated - truncatedMax then
      maxRoc - 1
    else maxRoc
  let full := roc * 2 ^ width % 2 ^ 64 + truncated % 2 ^ width
  (full, if max < full then full else max)

/-- The cycle of a number less than half a cycle from the largest one. -/
theorem roc_near {half cycle roc rest maxRoc maxRest : Nat} (halves : cycle = half + half)
    (small : rest < cycle) (maxSmall : maxRest < cycle)
    (below : cycle * roc + rest < cycle * maxRoc + maxRest + half)
    (above : cycle * maxRoc + maxRest < cycle * roc + rest + half) :
    (if rest < maxRest ∧ half < maxRest - rest then maxRoc + 1
      else if 0 < maxRoc ∧ maxRest < rest ∧ half < rest - maxRest then maxRoc - 1
      else maxRoc) = roc := by
  rcases Nat.lt_trichotomy roc maxRoc with lower | same | upper
  · have one : maxRoc = roc + 1 := by
      by_contra more
      have two := Nat.mul_le_mul_left cycle (show roc + 2 ≤ maxRoc by omega)
      rw [Nat.mul_add] at two
      omega
    rw [one, Nat.mul_add, Nat.mul_one] at below above
    rw [if_neg (by omega), if_pos (by omega)]
    omega
  · rw [same] at below above
    rw [if_neg (by omega), if_neg (by omega), same]
  · have one : roc = maxRoc + 1 := by
      by_contra more
      have two := Nat.mul_le_mul_left cycle (show maxRoc + 2 ≤ roc by omega)
      rw [Nat.mul_add] at two
      omega
    rw [one, Nat.mul_add, Nat.mul_one] at below above
    rw [if_pos (by omega), one]

/-- A number less than half a cycle from the largest one is recovered. -/
theorem expandTruncatedCounter_near {full max width : Nat} (wide : 0 < width)
    (below : full < max + 2 ^ (width - 1)) (above : max < full + 2 ^ (width - 1))
    (word : full < 2 ^ 64) :
    expandTruncatedCounter (full % 2 ^ width) max width =
      (full, if max < full then full else max) := by
  have halves : 2 ^ width = 2 ^ (width - 1) + 2 ^ (width - 1) := by
    rw [← Nat.two_mul, ← Nat.pow_succ', Nat.succ_eq_add_one, Nat.sub_add_cancel wide]
  have fullSplit := Nat.div_add_mod full (2 ^ width)
  have maxSplit := Nat.div_add_mod max (2 ^ width)
  have roc := roc_near halves (Nat.mod_lt full (Nat.two_pow_pos width))
    (Nat.mod_lt max (Nat.two_pow_pos width)) (by rw [fullSplit, maxSplit]; exact below)
    (by rw [fullSplit, maxSplit]; exact above)
  have whole : full / 2 ^ width * 2 ^ width % 2 ^ 64 + full % 2 ^ width % 2 ^ width = full := by
    rw [Nat.mod_mod, Nat.mul_comm, Nat.mod_eq_of_lt (by omega), fullSplit]
  unfold expandTruncatedCounter
  simp only
  rw [roc, whole]

theorem expandTruncatedCounter_mod {width : Nat} (word : width ≤ 64) (truncated max : Nat) :
    (expandTruncatedCounter truncated max width).1 % 2 ^ width = truncated % 2 ^ width := by
  have divides : 2 ^ width ∣ 2 ^ 64 := Nat.pow_dvd_pow 2 word
  unfold expandTruncatedCounter
  simp only
  rw [Nat.add_mod, Nat.mod_mod_of_dvd _ divides, Nat.mul_mod_left, Nat.zero_add, Nat.mod_mod,
    Nat.mod_mod]

/-- Whole microseconds, as 64 bits, in ticks. -/
def ticksFromDuration (nanos microsPerTick : Nat) : Nat := nanos / 1000 % 2 ^ 64 / microsPerTick

/-- The nanoseconds of so many ticks. -/
def durationFromTicks (ticks microsPerTick : Nat) : Nat := ticks * microsPerTick * 1000

def ticksFromBeforeAndAfter (before after : Int) (microsPerTick : Nat) : Int :=
  if before < after then ticksFromDuration (after - before).toNat microsPerTick
  else -(ticksFromDuration (before - after).toNat microsPerTick : Int)

end Counters

section Receiver

inductive SymbolTypeTcc where
  | packetNotReceived
  | packetReceivedSmallDelta
  | packetReceivedLargeDelta
  | packetReceivedWithoutDelta
  deriving DecidableEq

/-- A difference in microseconds. -/
structure RecvDelta where
  typeTccPacket : SymbolTypeTcc
  delta : Int
  deriving DecidableEq

inductive PacketStatusChunk where
  | runLengthChunk (symbol : SymbolTypeTcc) (runLength : Nat)
  | statusVectorChunk (symbols : List SymbolTypeTcc)
  deriving DecidableEq

structure TransportLayerCc where
  senderSsrc : Nat
  mediaSsrc : Nat
  baseSequenceNumber : Nat
  packetStatusCount : Nat
  referenceTime : Nat
  fbPktCount : Nat
  packetChunks : List PacketStatusChunk
  recvDeltas : List RecvDelta
  deriving DecidableEq

/-- A full sequence number and when its packet came. -/
abbrev Arrival := Nat × Int

/-- Arrivals are kept in the order of their numbers. -/
structure TccReceiver where
  senderSsrc : Nat
  lastFeedback : Int
  feedbackSeqnum : Nat
  unackedArrival : List Arrival
  maxReceivedSeqnum : Nat

def TccReceiver.new (senderSsrc : Nat) : TccReceiver := ⟨senderSsrc, 0, 1, [], 0⟩

/-- A number that is there keeps its arrival. -/
def insertVacant (seqnum : Nat) (arrival : Int) : List Arrival → List Arrival
  | [] => [(seqnum, arrival)]
  | head :: rest =>
    if seqnum < head.1 then (seqnum, arrival) :: head :: rest
    else if seqnum = head.1 then head :: rest
    else head :: insertVacant seqnum arrival rest

def rememberReceived (receiver : TccReceiver) (seq : Nat) (arrival : Int) : TccReceiver :=
  let expanded := expandTruncatedCounter seq receiver.maxReceivedSeqnum 16
  { receiver with
    unackedArrival := insertVacant expanded.1 arrival receiver.unackedArrival
    maxReceivedSeqnum := expanded.2 }

/-- The clock is read once for the time since the last feedback, and again for a new one. -/
def shouldSendFeedback (receiver : TccReceiver) (now later : Int) : TccReceiver × Bool :=
  if 5 < receiver.unackedArrival.length ∨ 100 < (now - receiver.lastFeedback) / 1000000 then
    ({ receiver with lastFeedback := later }, true)
  else (receiver, false)

/-- The variables of the loop that fills a packet. -/
structure Draft where
  prevSeqnum : Nat
  prevArrival : Int
  recvDeltas : List RecvDelta
  symbolLists : List SymbolTypeTcc

def Draft.received (draft : Draft) (symbol : SymbolTypeTcc) (ticks : Int) (arrival : Arrival) :
    Draft where
  prevSeqnum := arrival.1
  prevArrival := arrival.2
  recvDeltas := draft.recvDeltas ++ [⟨symbol, ticks * MICROS_PER_DELTA_TICK⟩]
  symbolLists := draft.symbolLists ++ [symbol]

/-- The packets that have not come since the last one. -/
def Draft.skipTo (draft : Draft) (seqnum : Nat) : Draft :=
  { draft with symbolLists :=
      draft.symbolLists ++ List.replicate (seqnum - (draft.prevSeqnum + 1)) .packetNotReceived }

variable (marshalSize : RecvDelta → Nat)

/-- The draft in the end, and the arrivals that it does not hold. -/
def fill (firstSeqnum : Nat) : Draft → List Arrival → Draft × List Arrival
  | draft, [] => (draft, [])
  | draft, (seqnum, arrival) :: rest =>
    if firstSeqnum + 65535 < seqnum then (draft, (seqnum, arrival) :: rest)
    else if 1100 < (draft.recvDeltas.map marshalSize).sum + draft.symbolLists.length then
      (draft, (seqnum, arrival) :: rest)
    else
      let ticks := ticksFromBeforeAndAfter draft.prevArrival arrival MICROS_PER_DELTA_TICK
      if 0 ≤ ticks ∧ ticks ≤ 255 then
        fill firstSeqnum
          ((draft.skipTo seqnum).received .packetReceivedSmallDelta ticks (seqnum, arrival)) rest
      else if -32768 ≤ ticks ∧ ticks ≤ 32767 then
        fill firstSeqnum
          ((draft.skipTo seqnum).received .packetReceivedLargeDelta ticks (seqnum, arrival)) rest
      else (draft.skipTo seqnum, (seqnum, arrival) :: rest)

def referenceTicks (firstArrival : Int) : Nat :=
  ticksFromDuration firstArrival.toNat MICROS_PER_REFERENCE_TICK

def referenceTime (firstArrival : Int) : Int :=
  durationFromTicks (referenceTicks firstArrival) MICROS_PER_REFERENCE_TICK

/-- The draft for the arrivals, from the first one on. -/
def draftOf (first : Arrival) (rest : List Arrival) : Draft × List Arrival :=
  fill marshalSize first.1 ⟨first.1, referenceTime first.2, [], []⟩ (first :: rest)

def packetOf (senderSsrc mediaSsrc feedbackSeqnum : Nat) (first : Arrival) (draft : Draft) :
    TransportLayerCc where
  senderSsrc := senderSsrc
  mediaSsrc := mediaSsrc
  baseSequenceNumber := first.1 % 65536
  packetStatusCount := (draft.prevSeqnum - first.1 + 1) % 65536
  referenceTime := referenceTicks first.2 % 2 ^ 32
  fbPktCount := feedbackSeqnum
  packetChunks := [.statusVectorChunk draft.symbolLists]
  recvDeltas := draft.recvDeltas

/-- The packets for the arrivals, and the number after their last one; nothing where so many
    packets do not hold all arrivals. -/
def packets (senderSsrc mediaSsrc : Nat) :
    Nat → Nat → List Arrival → Option (List TransportLayerCc × Nat)
  | _, feedbackSeqnum, [] => some ([], feedbackSeqnum)
  | 0, _, _ :: _ => none
  | fuel + 1, feedbackSeqnum, first :: rest =>
    let drafted := draftOf marshalSize first rest
    (packets senderSsrc mediaSsrc fuel ((feedbackSeqnum + 1) % 256) drafted.2).map fun more =>
      (packetOf senderSsrc mediaSsrc feedbackSeqnum first drafted.1 :: more.1, more.2)

def feedbacks (fuel : Nat) (receiver : TccReceiver) (mediaSsrc : Nat) :
    Option (List TransportLayerCc × TccReceiver) :=
  (packets marshalSize receiver.senderSsrc mediaSsrc fuel receiver.feedbackSeqnum
    receiver.unackedArrival).map fun made =>
      (made.1, { receiver with unackedArrival := [], feedbackSeqnum := made.2 })

end Receiver

section Sender

/-- The symbols of a chunk. -/
def PacketStatusChunk.symbols : PacketStatusChunk → List SymbolTypeTcc
  | .runLengthChunk symbol runLength => List.replicate runLength symbol
  | .statusVectorChunk symbols => symbols

/-- The numbers with their instants in microseconds. The sum so far is in microseconds too. -/
def readSymbols (referenceTime : Int) :
    List SymbolTypeTcc → List RecvDelta → Nat → Int → List (Nat × Nat)
  | [], _, _, _ => []
  | symbol :: symbols, deltas, seq, sum =>
    match symbol, deltas with
    | .packetReceivedSmallDelta, delta :: deltas | .packetReceivedLargeDelta, delta :: deltas =>
      (seq, ((referenceTime + (sum + delta.delta)) % 2 ^ 64).toNat) ::
        readSymbols referenceTime symbols deltas (seq + 1) (sum + delta.delta)
    | _, deltas => readSymbols referenceTime symbols deltas (seq + 1) sum

/-- What a feedback says, and the largest number seen after it. -/
def readFeedback (maxReceivedSeqnum : Nat) (cc : TransportLayerCc) : List (Nat × Nat) × Nat :=
  let expanded := expandTruncatedCounter cc.baseSequenceNumber maxReceivedSeqnum 16
  (readSymbols (MICROS_PER_REFERENCE_TICK * cc.referenceTime)
    (cc.packetChunks.flatMap PacketStatusChunk.symbols) cc.recvDeltas expanded.1 0, expanded.2)

/-- Feedbacks in the order in which they come. -/
def readAll : Nat → List TransportLayerCc → List (Nat × Nat)
  | _, [] => []
  | maxReceivedSeqnum, cc :: rest =>
    (readFeedback maxReceivedSeqnum cc).1 ++ readAll (readFeedback maxReceivedSeqnum cc).2 rest

end Sender

end TransportFeedback
