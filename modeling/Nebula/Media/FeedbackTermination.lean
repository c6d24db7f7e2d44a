import Mathlib.Logic.Relation
import Nebula.Media.FeedbackReports

/- The iterator over the feedback packets: each packet takes up at least one arrival, so it comes
   to an end. Sequence numbers are words of 64 bits, and the sum that bounds the numbers of a
   packet wraps around for the last of them; a build with overflow checks panics there. -/
namespace TransportFeedback

section Iterator
variable (marshalSize : RecvDelta → Nat)

/-- The loop that fills a packet, with the sum of the bound as a word. -/
def fillWords (firstSeqnum : Nat) : Draft → List Arrival → Draft × List Arrival
  | draft, [] => (draft, [])
  | draft, (seqnum, arrival) :: rest =>
    if (firstSeqnum + 65535) % 2 ^ 64 < seqnum then (draft, (seqnum, arrival) :: rest)
    else if 1100 < (draft.recvDeltas.map marshalSize).sum + draft.symbolLists.length then
      (draft, (seqnum, arrival) :: rest)
    else
      let ticks := ticksFromBeforeAndAfter draft.prevArrival arrival MICROS_PER_DELTA_TICK
      if 0 ≤ ticks ∧ ticks ≤ 255 then
        fillWords firstSeqnum
          ((draft.skipTo seqnum).received .packetReceivedSmallDelta ticks (seqnum, arrival)) rest
      else if -32768 ≤ ticks ∧ ticks ≤ 32767 then
        fillWords firstSeqnum
          ((draft.skipTo seqnum).received .packetReceivedLargeDelta ticks (seqnum, arrival)) rest
      else (draft.skipTo seqnum, (seqnum, arrival) :: rest)

/-- What the iterator holds: the number of the next packet, and the arrivals that are left. -/
structure FeedbackIter where
  nextFeedbackSeqnum : Nat
  arrivals : List Arrival

def FeedbackIter.next (senderSsrc mediaSsrc : Nat) (iter : FeedbackIter) :
    Option (TransportLayerCc × FeedbackIter) :=
  match iter.arrivals with
  | [] => none
  | first :: rest =>
    let filled := fillWords marshalSize first.1 ⟨first.1, referenceTime first.2, [], []⟩
      (first :: rest)
    some (packetOf senderSsrc mediaSsrc iter.nextFeedbackSeqnum first filled.1,
      ⟨(iter.nextFeedbackSeqnum + 1) % 256, filled.2⟩)

/-- The iterator of a receiver takes all its arrivals. -/
def feedbackIter (receiver : TccReceiver) : FeedbackIter :=
  ⟨receiver.feedbackSeqnum, receiver.unackedArrival⟩

/-- The packets that the iterator yields until it has no more. -/
inductive Yields (senderSsrc mediaSsrc : Nat) :
    FeedbackIter → List TransportLayerCc → FeedbackIter → Prop where
  | done {iter : FeedbackIter} (none : iter.next marshalSize senderSsrc mediaSsrc = none) :
      Yields senderSsrc mediaSsrc iter [] iter
  | more {iter after last : FeedbackIter} {packet : TransportLayerCc}
      {packets : List TransportLayerCc}
      (some : iter.next marshalSize senderSsrc mediaSsrc = some (packet, after))
      (rest : Yields senderSsrc mediaSsrc after packets last) :
      Yields senderSsrc mediaSsrc iter (packet :: packets) last

/-- The arrivals are from the epoch on, and their numbers leave room for those of a packet. -/
structure Drainable (arrivals : List Arrival) : Prop where
  after : ∀ arrival ∈ arrivals, 0 ≤ arrival.2
  room : ∀ arrival ∈ arrivals, arrival.1 + 65535 < 2 ^ 64

theorem Drainable.suffix {taken left : List Arrival} (drainable : Drainable (taken ++ left)) :
    Drainable left :=
  ⟨fun arrival member => drainable.after arrival (List.mem_append_right _ member),
    fun arrival member => drainable.room arrival (List.mem_append_right _ member)⟩

theorem fillWords_eq {firstSeqnum : Nat} (room : firstSeqnum + 65535 < 2 ^ 64)
    (arrivals : List Arrival) (draft : Draft) :
    fillWords marshalSize firstSeqnum draft arrivals =
      fill marshalSize firstSeqnum draft arrivals := by
  induction arrivals generalizing draft with
  | nil => rfl
  | cons arrival rest ih =>
    unfold fillWords fill
    simp only [Nat.mod_eq_of_lt room, ih]

theorem next_none_iff (senderSsrc mediaSsrc : Nat) (iter : FeedbackIter) :
    iter.next marshalSize senderSsrc mediaSsrc = none ↔ iter.arrivals = [] := by
  unfold FeedbackIter.next
  cases iter.arrivals with
  | nil => exact iff_of_true rfl rfl
  | cons first rest => exact iff_of_false (fun none => by cases none) (List.cons_ne_nil _ _)

/-- Each packet takes up an arrival. -/
theorem next_consumes (senderSsrc mediaSsrc : Nat) {iter after : FeedbackIter}
    {packet : TransportLayerCc} (drainable : Drainable iter.arrivals)
    (some : iter.next marshalSize senderSsrc mediaSsrc = some (packet, after)) :
    ∃ taken, taken ≠ [] ∧ iter.arrivals = taken ++ after.arrivals := by
  unfold FeedbackIter.next at some
  cases holds : iter.arrivals with
  | nil =>
    rw [holds] at some
    cases some
  | cons first rest =>
    rw [holds] at some drainable
    have room := drainable.room first List.mem_cons_self
    have fits := fitsDelta_first (drainable.after first List.mem_cons_self)
    obtain ⟨taken, parts, _⟩ := draftOf_holds marshalSize rest fits
    simp only [fillWords_eq marshalSize room] at some
    cases some
    exact ⟨first :: taken, List.cons_ne_nil _ _, congrArg (first :: ·) parts⟩

theorem yields_all (senderSsrc mediaSsrc : Nat) (count : Nat) :
    ∀ iter : FeedbackIter, iter.arrivals.length ≤ count → Drainable iter.arrivals →
      ∃ packets last, Yields marshalSize senderSsrc mediaSsrc iter packets last ∧
        last.arrivals = [] ∧ packets.length ≤ iter.arrivals.length := by
  induction count with
  | zero =>
    intro iter few _
    have empty := List.length_eq_zero_iff.mp (Nat.le_zero.mp few)
    exact ⟨[], iter, Yields.done ((next_none_iff marshalSize _ _ iter).mpr empty), empty,
      Nat.zero_le _⟩
  | succ count ih =>
    intro iter few drainable
    cases next : iter.next marshalSize senderSsrc mediaSsrc with
    | none =>
      exact ⟨[], iter, Yields.done next, (next_none_iff marshalSize _ _ iter).mp next,
        Nat.zero_le _⟩
    | some yielded =>
      obtain ⟨packet, after⟩ := yielded
      obtain ⟨taken, some, parts⟩ := next_consumes marshalSize senderSsrc mediaSsrc drainable next
      have shorter : after.arrivals.length + 1 ≤ iter.arrivals.length := by
        rw [parts, List.length_append, Nat.add_comm]
        exact Nat.add_le_add_right (List.length_pos_of_ne_nil some) _
      rw [parts] at drainable
      obtain ⟨packets, last, yields, empty, fewer⟩ := ih after (by omega) drainable.suffix
      refine ⟨packet :: packets, last, Yields.more next yields, empty, ?_⟩
      rw [List.length_cons]
      omega

/-- The states that the iterator goes through. -/
def Visits (senderSsrc mediaSsrc : Nat) : FeedbackIter → FeedbackIter → Prop :=
  Relation.ReflTransGen fun iter after =>
    ∃ packet, iter.next marshalSize senderSsrc mediaSsrc = some (packet, after)

theorem drainable_visited {senderSsrc mediaSsrc : Nat} {start iter : FeedbackIter}
    (drainable : Drainable start.arrivals)
    (visits : Visits marshalSize senderSsrc mediaSsrc start iter) : Drainable iter.arrivals := by
  induction visits with
  | refl => exact drainable
  | tail _ stepped ih =>
    obtain ⟨packet, next⟩ := stepped
    obtain ⟨taken, _, parts⟩ := next_consumes marshalSize senderSsrc mediaSsrc ih next
    rw [parts] at ih
    exact ih.suffix

/-- The iterator comes to an end, with no arrival left, and every packet takes up some. -/
theorem feedbacks_end (receiver : TccReceiver) (mediaSsrc : Nat)
    (drainable : Drainable receiver.unackedArrival) :
    (∃ packets last, Yields marshalSize receiver.senderSsrc mediaSsrc (feedbackIter receiver)
        packets last ∧ last.arrivals = [] ∧
        packets.length ≤ receiver.unackedArrival.length) ∧
      ∀ iter packet after,
        Visits marshalSize receiver.senderSsrc mediaSsrc (feedbackIter receiver) iter →
        iter.next marshalSize receiver.senderSsrc mediaSsrc = some (packet, after) →
        ∃ taken, taken ≠ [] ∧ iter.arrivals = taken ++ after.arrivals := by
  refine ⟨yields_all marshalSize _ _ _ (feedbackIter receiver) (Nat.le_refl _) drainable, ?_⟩
  intro iter packet after visits next
  exact next_consumes marshalSize _ _ (drainable_visited marshalSize drainable visits) next

/-- Three arrivals, of which the last is too late for the packet of the others. -/
theorem feedbacks_end_late :
    ∃ packets last, Yields deltaBytes 1 2 (feedbackIter ⟨1, 0, 1,
      [(5, 0), (7, 1000000), (8, 20000000000)], 8⟩) packets last ∧ last.arrivals = [] ∧
      packets.length ≤ 3 :=
  (feedbacks_end deltaBytes ⟨1, 0, 1, [(5, 0), (7, 1000000), (8, 20000000000)], 8⟩ 2
    ⟨by decide +kernel, by decide +kernel⟩).1

end Iterator

section Wrapped

/-- The receivers that there are: arrivals come in, and the packets for them go out. -/
inductive Reached (marshalSize : RecvDelta → Nat) (senderSsrc : Nat) : TccReceiver → Prop where
  | new : Reached marshalSize senderSsrc (TccReceiver.new senderSsrc)
  | remember {receiver : TccReceiver} (before : Reached marshalSize senderSsrc receiver)
      (seq : UInt16) (arrival : Int) :
      Reached marshalSize senderSsrc (rememberReceived receiver seq.toNat arrival)
  | feedbacks {receiver : TccReceiver} {mediaSsrc : Nat} {packets : List TransportLayerCc}
      {last : FeedbackIter} (before : Reached marshalSize senderSsrc receiver)
      (yields : Yields marshalSize senderSsrc mediaSsrc (feedbackIter receiver) packets last) :
      Reached marshalSize senderSsrc { receiver with
        unackedArrival := last.arrivals
        feedbackSeqnum := last.nextFeedbackSeqnum }

/-- The number of an arrival that is less than half a cycle ahead. -/
theorem remember_ahead {receiver : TccReceiver} {full : Nat} (empty : receiver.unackedArrival = [])
    (ahead : receiver.maxReceivedSeqnum < full)
    (near : full < receiver.maxReceivedSeqnum + 32768) (word : full < 2 ^ 64) (arrival : Int) :
    (rememberReceived receiver (UInt16.ofNat full).toNat arrival).unackedArrival =
        [(full, arrival)] ∧
      (rememberReceived receiver (UInt16.ofNat full).toNat arrival).maxReceivedSeqnum = full := by
  have expanded := @expandTruncatedCounter_near full receiver.maxReceivedSeqnum 16 (by decide)
    near (by omega) word
  unfold rememberReceived
  rw [UInt16.toNat_ofNat', expanded, empty, if_pos ahead]
  exact ⟨rfl, rfl⟩

/-- Arrivals one after another bring the numbers as far up as there is room for a packet. -/
theorem reached_drained (marshalSize : RecvDelta → Nat) (senderSsrc count : Nat) :
    count * 32767 + 65535 < 2 ^ 64 → ∃ receiver, Reached marshalSize senderSsrc receiver ∧
      receiver.unackedArrival = [] ∧ receiver.maxReceivedSeqnum = count * 32767 := by
  induction count with
  | zero =>
    intro _
    exact ⟨_, Reached.new, rfl, rfl⟩
  | succ count ih =>
    intro room
    have step : (count + 1) * 32767 = count * 32767 + 32767 := Nat.succ_mul count 32767
    have less : count * 32767 + 65535 ≤ (count + 1) * 32767 + 65535 := by
      rw [step]
      exact Nat.add_le_add_right (Nat.le_add_right _ _) _
    obtain ⟨receiver, reached, empty, largest⟩ := ih (Nat.lt_of_le_of_lt less room)
    have ahead : receiver.maxReceivedSeqnum < (count + 1) * 32767 := by
      rw [largest, step]
      exact Nat.lt_add_of_pos_right (by decide)
    have near : (count + 1) * 32767 < receiver.maxReceivedSeqnum + 32768 := by
      rw [largest, step]
      exact Nat.lt_succ_self _
    obtain ⟨stored, most⟩ := remember_ahead empty ahead near
      (Nat.lt_of_le_of_lt (Nat.le_add_right _ _) room) 0
    have next := Reached.remember reached (UInt16.ofNat ((count + 1) * 32767)) 0
    revert stored most next
    generalize rememberReceived receiver (UInt16.ofNat ((count + 1) * 32767)).toNat 0 = after
    intro stored most next
    have drainable : Drainable after.unackedArrival := by
      rw [stored]
      constructor
      · intro arrival member
        rw [List.mem_singleton.mp member]
      · intro arrival member
        rw [List.mem_singleton.mp member]
        exact room
    obtain ⟨packets, last, yields, left, _⟩ := yields_all marshalSize senderSsrc 0 _
      (feedbackIter after) (Nat.le_refl _) drainable
    exact ⟨_, Reached.feedbacks next yields, left, most⟩

/-- A number for which the sum wraps is never taken up. -/
theorem yields_wrapped (marshalSize : RecvDelta → Nat) {senderSsrc mediaSsrc : Nat}
    {iter last : FeedbackIter} {packets : List TransportLayerCc} {seqnum : Nat} {arrival : Int}
    (wraps : (seqnum + 65535) % 2 ^ 64 < seqnum) (holds : iter.arrivals = [(seqnum, arrival)]) :
    ¬ Yields marshalSize senderSsrc mediaSsrc iter packets last := by
  intro yields
  induction yields with
  | done none =>
    rw [next_none_iff, holds] at none
    cases none
  | more some _ ih =>
    refine ih ?_
    unfold FeedbackIter.next at some
    rw [holds] at some
    simp only [fillWords, if_pos wraps] at some
    cases some
    rfl

theorem feedbacks_never_end :
    ¬ ∀ (marshalSize : RecvDelta → Nat) (senderSsrc mediaSsrc : Nat) (receiver : TccReceiver),
      Reached marshalSize senderSsrc receiver →
      (∀ arrival ∈ receiver.unackedArrival, 0 ≤ arrival.2) →
      ∃ packets last, Yields marshalSize senderSsrc mediaSsrc (feedbackIter receiver)
        packets last := by
  intro claimed
  obtain ⟨receiver, reached, empty, largest⟩ :=
    reached_drained deltaBytes 1 562967133814798 (by decide)
  obtain ⟨stored, _⟩ := @remember_ahead receiver (562967133814799 * 32767) empty
    (by omega) (by omega) (by decide) 0
  have next := Reached.remember reached (UInt16.ofNat (562967133814799 * 32767)) 0
  obtain ⟨packets, last, yields⟩ := claimed deltaBytes 1 2 _ next (by
    intro arrival member
    rw [stored] at member
    rw [List.mem_singleton.mp member])
  exact yields_wrapped deltaBytes (by decide) stored yields

end Wrapped

end TransportFeedback
