import Nebula.Media.FeedbackReports
import Mathlib.Data.List.Forall2

/- When the feedback packets of a receiver are well formed: their counts, symbols and deltas,
   and that each arrival is in one of them. -/
namespace TransportFeedback

section Form

def TransportLayerCc.symbols (cc : TransportLayerCc) : List SymbolTypeTcc :=
  cc.packetChunks.flatMap PacketStatusChunk.symbols

/-- A chunk that its 16 bits can hold: seven symbols of two bits. -/
def PacketStatusChunk.Fits : PacketStatusChunk → Prop
  | .statusVectorChunk symbols => symbols.length ≤ 7
  | .runLengthChunk _ _ => True

/-- A packet for a report: it counts its symbols, one for each number from the first to the
    last; it has a delta for each received symbol, in their order; the received symbols are
    for the arrivals of the report; and its chunks fit. -/
structure WellFormed (report : List Arrival) (cc : TransportLayerCc) : Prop where
  counted : cc.packetStatusCount = cc.symbols.length
  spans : ∃ first taken, report = first :: taken ∧ cc.baseSequenceNumber = first.1 % 65536 ∧
    first.1 + cc.packetStatusCount = lastOf first.1 taken + 1 ∧
      received first.1 cc.symbols = report.map Prod.fst
  deltas : cc.recvDeltas.map RecvDelta.typeTccPacket =
    cc.symbols.filter (· ≠ SymbolTypeTcc.packetNotReceived)
  chunks : ∀ chunk ∈ cc.packetChunks, chunk.Fits

variable (marshalSize : RecvDelta → Nat)

/-- The feedbacks end, and are well formed for parts that make up the arrivals. -/
def FeedbacksWellFormed (receiver : TccReceiver) (mediaSsrc : Nat) : Prop :=
  ∃ fuel made after, feedbacks marshalSize fuel receiver mediaSsrc = some (made, after) ∧
    ∃ parts : List (List Arrival), parts.flatten = receiver.unackedArrival ∧
      List.Forall₂ WellFormed parts made

/-- The arrivals after one, in a report that starts at a number: each either is within seven
    numbers of it or starts a new report. If that is for its delta, no number is missing
    before it. -/
def ShortAfter (firstSeqnum prevSeqnum : Nat) (prev : Int) : List Arrival → Prop
  | [] => True
  | (seqnum, arrival) :: rest =>
    if firstSeqnum + 65535 < seqnum ∨ ¬ FitsDelta prev arrival then
      (seqnum ≤ firstSeqnum + 65535 → seqnum = prevSeqnum + 1) ∧
        FitsDelta (referenceTime arrival) arrival ∧ ShortAfter seqnum seqnum arrival rest
    else seqnum < firstSeqnum + 7 ∧ ShortAfter firstSeqnum seqnum arrival rest

instance decidableShortAfter : (firstSeqnum prevSeqnum : Nat) → (prev : Int) →
    (arrivals : List Arrival) → Decidable (ShortAfter firstSeqnum prevSeqnum prev arrivals)
  | _, _, _, [] => isTrue trivial
  | firstSeqnum, prevSeqnum, prev, (seqnum, arrival) :: rest =>
    have := decidableShortAfter seqnum seqnum arrival rest
    have := decidableShortAfter firstSeqnum seqnum arrival rest
    inferInstanceAs (Decidable (if firstSeqnum + 65535 < seqnum ∨ ¬ FitsDelta prev arrival then
      (seqnum ≤ firstSeqnum + 65535 → seqnum = prevSeqnum + 1) ∧
        FitsDelta (referenceTime arrival) arrival ∧ ShortAfter seqnum seqnum arrival rest
    else seqnum < firstSeqnum + 7 ∧ ShortAfter firstSeqnum seqnum arrival rest))

/-- The arrivals make short reports only. -/
def ShortReports : List Arrival → Prop
  | [] => True
  | (seqnum, arrival) :: rest =>
    FitsDelta (referenceTime arrival) arrival ∧ ShortAfter seqnum seqnum arrival rest

instance decidableShortReports : (arrivals : List Arrival) → Decidable (ShortReports arrivals)
  | [] => isTrue trivial
  | (seqnum, arrival) :: rest =>
    inferInstanceAs (Decidable (FitsDelta (referenceTime arrival) arrival ∧
      ShortAfter seqnum seqnum arrival rest))

end Form

section Short

variable {marshalSize : RecvDelta → Nat}

/-- A draft only grows. -/
theorem fill_grows (firstSeqnum : Nat) (draft : Draft) (arrivals : List Arrival) :
    draft.symbolLists.length ≤ (fill marshalSize firstSeqnum draft arrivals).1.symbolLists.length := by
  obtain ⟨_, _, _, _, _, _, _, symbols⟩ := fill_spec marshalSize firstSeqnum draft arrivals
  rw [symbols, List.length_append]
  exact Nat.le_add_right _ _

theorem sum_sizes (small : ∀ delta, marshalSize delta ≤ 2) (deltas : List RecvDelta) :
    (deltas.map marshalSize).sum ≤ 2 * deltas.length := by
  induction deltas with
  | nil => exact Nat.le_refl _
  | cons delta deltas ih =>
    have one := small delta
    rw [List.map_cons, List.sum_cons, List.length_cons]
    omega

/-- A draft that counts right and fits. -/
def Good (firstSeqnum : Nat) (draft : Draft) : Prop :=
  draft.symbolLists.length ≤ 7 ∧
    (draft.prevSeqnum - firstSeqnum + 1) % 65536 = draft.symbolLists.length

/-- A short draft with a symbol for each number ends good, with short reports left, exactly
    if the arrivals after it are short. -/
theorem fill_good (small : ∀ delta, marshalSize delta ≤ 2) {firstSeqnum : Nat} {draft : Draft}
    {arrivals : List Arrival} (sorted : Sorted arrivals)
    (above : ∀ arrival ∈ arrivals, draft.prevSeqnum < arrival.1)
    (start : firstSeqnum ≤ draft.prevSeqnum)
    (counts : draft.symbolLists.length = draft.prevSeqnum - firstSeqnum + 1)
    (deltas : draft.recvDeltas.length ≤ draft.symbolLists.length)
    (short : draft.symbolLists.length ≤ 7) :
    (Good firstSeqnum (fill marshalSize firstSeqnum draft arrivals).1 ∧
      ShortReports (fill marshalSize firstSeqnum draft arrivals).2) ↔
        ShortAfter firstSeqnum draft.prevSeqnum draft.prevArrival arrivals := by
  have good : Good firstSeqnum draft := ⟨short, by omega⟩
  induction arrivals generalizing draft with
  | nil => exact iff_of_true ⟨good, trivial⟩ trivial
  | cons arrival rest ih =>
    obtain ⟨seqnum, arrival⟩ := arrival
    obtain ⟨first, later⟩ := List.pairwise_cons.mp sorted
    have higher : draft.prevSeqnum < seqnum := above _ List.mem_cons_self
    have sizes := sum_sizes small draft.recvDeltas
    rw [fill_cons, ShortAfter]
    by_cases far : firstSeqnum + 65535 < seqnum
    · rw [if_pos (Or.inl far), if_pos (Or.inl far)]
      constructor
      · exact fun both => ⟨fun near => absurd far (Nat.not_lt.mpr near), both.2⟩
      · exact fun both => ⟨good, both.2⟩
    have open_ : ¬ (firstSeqnum + 65535 < seqnum ∨
        1100 < (draft.recvDeltas.map marshalSize).sum + draft.symbolLists.length) := by omega
    rw [if_neg open_]
    by_cases fits : FitsDelta draft.prevArrival arrival
    · rw [if_pos fits, if_neg (not_or.mpr ⟨far, not_not.mpr fits⟩)]
      have length : ((draft.skipTo seqnum).received (symbolOf (ticksAfter draft.prevArrival arrival))
          (ticksAfter draft.prevArrival arrival) (seqnum, arrival)).symbolLists.length =
            seqnum - firstSeqnum + 1 := by
        simp only [Draft.received, Draft.skipTo, List.length_append, List.length_replicate,
          List.length_singleton]
        omega
      by_cases near : seqnum < firstSeqnum + 7
      · refine (ih later first (Nat.le_of_lt (Nat.lt_of_le_of_lt start higher)) length ?_
          (by omega) ⟨by omega, ?_⟩).trans (and_iff_right near).symm
        · simp only [Draft.received, Draft.skipTo, List.length_append, List.length_singleton]
          omega
        · rw [length]
          show (seqnum - firstSeqnum + 1) % 65536 = _
          omega
      · refine iff_of_false (fun both => ?_) (fun both => near both.1)
        have grown := @fill_grows marshalSize firstSeqnum ((draft.skipTo seqnum).received
          (symbolOf (ticksAfter draft.prevArrival arrival)) (ticksAfter draft.prevArrival arrival)
            (seqnum, arrival)) rest
        have bound := both.1.1
        omega
    · rw [if_neg fits, if_pos (Or.inr fits)]
      have length : (draft.skipTo seqnum).symbolLists.length =
          seqnum - firstSeqnum := by
        simp only [Draft.skipTo, List.length_append, List.length_replicate]
        omega
      have same : Good firstSeqnum (draft.skipTo seqnum) ↔
          (seqnum ≤ firstSeqnum + 65535 → seqnum = draft.prevSeqnum + 1) := by
        unfold Good
        rw [length]
        show _ ∧ (draft.prevSeqnum - firstSeqnum + 1) % 65536 = _ ↔ _
        constructor
        · rintro ⟨bound, count⟩ _
          omega
        · intro follows
          have next := follows (by omega)
          exact ⟨by omega, by omega⟩
      rw [same]
      rfl

theorem draftOf_good (small : ∀ delta, marshalSize delta ≤ 2) {first : Arrival}
    {rest : List Arrival} (sorted : Sorted (first :: rest))
    (fits : FitsDelta (referenceTime first.2) first.2) :
    (Good first.1 (draftOf marshalSize first rest).1 ∧
      ShortReports (draftOf marshalSize first rest).2) ↔ ShortReports (first :: rest) := by
  obtain ⟨seqnum, arrival⟩ := first
  obtain ⟨later, others⟩ := List.pairwise_cons.mp sorted
  have none : seqnum - (seqnum + 1) = 0 := by omega
  refine (?_ : _ ↔ ShortAfter seqnum seqnum arrival rest).trans (and_iff_right fits).symm
  unfold draftOf
  rw [fill_cons, if_neg (by simp), if_pos fits]
  refine fill_good small others later (Nat.le_refl _) ?_ ?_ ?_
  · simp only [Draft.received, Draft.skipTo, none, List.replicate_zero, List.nil_append,
      List.length_singleton, Nat.sub_self]
  · simp only [Draft.received, Draft.skipTo, none, List.replicate_zero, List.nil_append,
      List.length_singleton, Nat.le_refl]
  · simp only [Draft.received, Draft.skipTo, none, List.replicate_zero, List.nil_append,
      List.length_singleton]
    decide

theorem draftOf_shorter {first : Arrival} {rest : List Arrival}
    (fits : FitsDelta (referenceTime first.2) first.2) (sorted : Sorted (first :: rest)) :
    (draftOf marshalSize first rest).2.length < (first :: rest).length ∧
      Sorted (draftOf marshalSize first rest).2 := by
  obtain ⟨taken, parts, _⟩ := draftOf_holds marshalSize rest fits
  have size := congrArg List.length parts
  rw [List.length_append] at size
  have later := (List.pairwise_cons.mp sorted).2
  rw [parts] at later
  refine ⟨?_, (List.pairwise_append.mp later).2.1⟩
  rw [List.length_cons]
  omega

end Short

section Packets

variable {marshalSize : RecvDelta → Nat} {senderSsrc mediaSsrc : Nat}

theorem symbols_packetOf (feedbackSeqnum : Nat) (first : Arrival) (draft : Draft) :
    (packetOf senderSsrc mediaSsrc feedbackSeqnum first draft).symbols = draft.symbolLists :=
  List.flatMap_singleton _ _

/-- A good draft makes a packet that is well formed for what it holds. -/
theorem wellFormed_packetOf {first : Arrival} {taken : List Arrival} {draft : Draft}
    (holds : Holds first taken draft) (sorted : Sorted (first :: taken))
    (good : Good first.1 draft) (feedbackSeqnum : Nat) :
    WellFormed (first :: taken) (packetOf senderSsrc mediaSsrc feedbackSeqnum first draft) := by
  obtain ⟨later, others⟩ := List.pairwise_cons.mp sorted
  obtain ⟨trailing, symbols⟩ := holds.symbols
  have above : ∀ arrival ∈ first :: taken, first.1 ≤ arrival.1 := by
    intro arrival member
    rcases List.mem_cons.mp member with rfl | inside
    · exact Nat.le_refl _
    · exact Nat.le_of_lt (later arrival inside)
  have span := @symbolsOf_length first.1 first.2 taken others later
  have length : draft.symbolLists.length =
      (symbolsOf (first.1 + 1) first.2 taken).length + 1 + trailing := by
    rw [symbols, symbolsOf, Nat.sub_self, List.replicate_zero, List.nil_append, List.length_append,
      List.length_cons, List.length_replicate]
  obtain ⟨short, count⟩ := good
  have counted : (packetOf senderSsrc mediaSsrc feedbackSeqnum first draft).packetStatusCount =
      draft.symbolLists.length := count
  refine ⟨?_, ⟨first, taken, rfl, rfl, ?_, ?_⟩, ?_, ?_⟩
  · rw [symbols_packetOf, counted]
  · rw [counted]
    rw [holds.last] at count
    omega
  · rw [symbols_packetOf, symbols]
    exact received_symbolsOf trailing sorted above
  · rw [symbols_packetOf, symbols, filter_symbolsOf]
    exact congrArg _ holds.deltas
  · intro chunk member
    obtain rfl := List.mem_singleton.mp member
    exact short

/-- Short reports make packets that are well formed, with all arrivals in them. -/
theorem packets_of_short (small : ∀ delta, marshalSize delta ≤ 2) (length : Nat)
    {arrivals : List Arrival} (size : arrivals.length ≤ length) (sorted : Sorted arrivals)
    (short : ShortReports arrivals) (feedbackSeqnum : Nat) :
    ∃ made last, packets marshalSize senderSsrc mediaSsrc length feedbackSeqnum arrivals =
      some (made, last) ∧ ∃ parts : List (List Arrival), parts.flatten = arrivals ∧
        List.Forall₂ WellFormed parts made := by
  induction length generalizing arrivals feedbackSeqnum with
  | zero =>
    have none : arrivals = [] := List.eq_nil_of_length_eq_zero (Nat.le_zero.mp size)
    rw [none]
    exact ⟨[], feedbackSeqnum, rfl, [], rfl, .nil⟩
  | succ length ih =>
    cases arrivals with
    | nil => exact ⟨[], feedbackSeqnum, rfl, [], rfl, .nil⟩
    | cons first rest =>
      have fits : FitsDelta (referenceTime first.2) first.2 := short.1
      obtain ⟨good, left⟩ := (draftOf_good small sorted fits).mpr short
      obtain ⟨shorter, order⟩ := @draftOf_shorter marshalSize _ _ fits sorted
      obtain ⟨taken, split, holds⟩ := draftOf_holds marshalSize rest fits
      obtain ⟨made, last, done, parts, flat, all⟩ := ih (by omega) order left
        ((feedbackSeqnum + 1) % 256)
      have front : Sorted (first :: taken) := by
        have whole := sorted
        rw [split, ← List.cons_append] at whole
        exact (List.pairwise_append.mp whole).1
      refine ⟨_, last, by rw [packets_cons, done]; rfl, (first :: taken) :: parts, ?_,
        .cons (wellFormed_packetOf holds front good feedbackSeqnum) all⟩
      rw [List.flatten_cons, flat, List.cons_append, ← split]

/-- Packets that count right and fit come from short reports. -/
theorem short_of_packets (small : ∀ delta, marshalSize delta ≤ 2) (fuel : Nat)
    {arrivals : List Arrival} (sorted : Sorted arrivals) {feedbackSeqnum last : Nat}
    {made : List TransportLayerCc}
    (done : packets marshalSize senderSsrc mediaSsrc fuel feedbackSeqnum arrivals =
      some (made, last))
    (all : ∀ cc ∈ made, cc.packetStatusCount = cc.symbols.length ∧
      ∀ chunk ∈ cc.packetChunks, chunk.Fits) : ShortReports arrivals := by
  induction fuel generalizing arrivals feedbackSeqnum made last with
  | zero =>
    cases arrivals with
    | nil => trivial
    | cons first rest => cases done
  | succ fuel ih =>
    cases arrivals with
    | nil => trivial
    | cons first rest =>
      by_cases fits : FitsDelta (referenceTime first.2) first.2
      · rw [packets_cons] at done
        obtain ⟨⟨others, number⟩, more, same⟩ := Option.map_eq_some_iff.mp done
        obtain ⟨rfl, _⟩ := Prod.mk.inj same
        obtain ⟨⟨counted, chunks⟩, later⟩ := List.forall_mem_cons.mp all
        have order := (@draftOf_shorter marshalSize _ _ fits sorted).2
        rw [symbols_packetOf] at counted
        have bound : (draftOf marshalSize first rest).1.symbolLists.length ≤ 7 :=
          chunks _ List.mem_cons_self
        exact (draftOf_good small sorted fits).mp ⟨⟨bound, counted⟩, ih order more later⟩
      · rw [packets_stuck marshalSize _ _ _ _ rest fits] at done
        cases done

end Packets

section Reached

variable (marshalSize : RecvDelta → Nat)

/-- The receivers that its methods lead to. -/
inductive Reachable : TccReceiver → Prop
  | new (senderSsrc : Nat) : Reachable (.new senderSsrc)
  | remember {receiver : TccReceiver} (reached : Reachable receiver) (seq : Nat)
      (word : seq < 65536) (arrival : Int) : Reachable (rememberReceived receiver seq arrival)
  | ask {receiver : TccReceiver} (reached : Reachable receiver) (now later : Int) :
      Reachable (shouldSendFeedback receiver now later).1
  | drain {receiver : TccReceiver} (reached : Reachable receiver) (fuel mediaSsrc : Nat)
      {made : List TransportLayerCc} {after : TccReceiver}
      (done : feedbacks marshalSize fuel receiver mediaSsrc = some (made, after)) : Reachable after

theorem mem_insertVacant {seqnum : Nat} {arrival : Int} {arrivals : List Arrival} {found : Arrival}
    (member : found ∈ insertVacant seqnum arrival arrivals) :
    found = (seqnum, arrival) ∨ found ∈ arrivals := by
  induction arrivals with
  | nil => exact Or.inl (List.mem_singleton.mp member)
  | cons head rest ih =>
    unfold insertVacant at member
    split at member
    · exact List.mem_cons.mp member
    split at member
    · exact Or.inr member
    · rcases List.mem_cons.mp member with rfl | later
      · exact Or.inr List.mem_cons_self
      · exact (ih later).imp_right (List.mem_cons_of_mem _)

theorem insertVacant_sorted {seqnum : Nat} {arrival : Int} {arrivals : List Arrival}
    (sorted : Sorted arrivals) : Sorted (insertVacant seqnum arrival arrivals) := by
  induction arrivals with
  | nil => exact List.pairwise_singleton _ _
  | cons head rest ih =>
    obtain ⟨first, later⟩ := List.pairwise_cons.mp sorted
    unfold insertVacant
    split
    · rename_i lower
      refine List.pairwise_cons.mpr ⟨fun found member => ?_, sorted⟩
      rcases List.mem_cons.mp member with rfl | inside
      · exact lower
      · exact Nat.lt_trans lower (first found inside)
    rename_i notLower
    split
    · exact sorted
    · rename_i other
      refine List.pairwise_cons.mpr ⟨fun found member => ?_, ih later⟩
      rcases mem_insertVacant member with rfl | inside
      · show head.1 < seqnum
        omega
      · exact first found inside

theorem reachable_sorted {receiver : TccReceiver} (reached : Reachable marshalSize receiver) :
    Sorted receiver.unackedArrival := by
  induction reached with
  | new senderSsrc => exact List.Pairwise.nil
  | remember reached seq word arrival ih => exact insertVacant_sorted ih
  | ask reached now later ih =>
    unfold shouldSendFeedback
    split
    · exact ih
    · exact ih
  | drain reached fuel mediaSsrc done ih =>
    obtain ⟨packets, _, same⟩ := Option.map_eq_some_iff.mp done
    obtain ⟨_, rfl⟩ := Prod.mk.inj same
    exact List.Pairwise.nil

theorem short_of_wellFormed (small : ∀ delta, marshalSize delta ≤ 2) {receiver : TccReceiver}
    (sorted : Sorted receiver.unackedArrival) {mediaSsrc : Nat}
    (formed : FeedbacksWellFormed marshalSize receiver mediaSsrc) :
    ShortReports receiver.unackedArrival := by
  obtain ⟨fuel, made, after, fed, parts, _, all⟩ := formed
  obtain ⟨⟨packets, last⟩, done, same⟩ := Option.map_eq_some_iff.mp fed
  obtain ⟨rfl, _⟩ := Prod.mk.inj same
  refine short_of_packets small fuel sorted done fun cc member => ?_
  obtain ⟨index, inside, rfl⟩ := List.getElem_of_mem member
  have bound : index < packets.length := inside
  have formed := List.Forall₂.get all (by rw [all.length_eq]; exact bound) bound
  exact ⟨formed.counted, formed.chunks⟩

/-- In a state that is reached, the feedbacks are well formed and have each arrival in one of
    them exactly if the arrivals make short reports. -/
theorem feedbacks_wellFormed_iff (small : ∀ delta, marshalSize delta ≤ 2)
    (receiver : TccReceiver) (reached : Reachable marshalSize receiver) (mediaSsrc : Nat) :
    FeedbacksWellFormed marshalSize receiver mediaSsrc ↔ ShortReports receiver.unackedArrival := by
  have sorted := reachable_sorted marshalSize reached
  refine ⟨short_of_wellFormed marshalSize small sorted, fun short => ?_⟩
  obtain ⟨made, last, done, parts, flat, all⟩ := @packets_of_short marshalSize
    receiver.senderSsrc mediaSsrc small receiver.unackedArrival.length _ (Nat.le_refl _) sorted
      short receiver.feedbackSeqnum
  refine ⟨receiver.unackedArrival.length, made,
    { receiver with unackedArrival := [], feedbackSeqnum := last }, ?_, parts, flat, all⟩
  unfold feedbacks
  rw [done]
  rfl

/-- A receiver that has seen two numbers, the second at the same time or later. -/
def twoSeen (seq : Nat) (arrival : Int) : TccReceiver :=
  rememberReceived (rememberReceived (.new 1) 1 0) seq arrival

theorem twoSeen_reachable {seq : Nat} (word : seq < 65536) (arrival : Int) :
    Reachable marshalSize (twoSeen seq arrival) :=
  .remember (.remember (.new 1) 1 (by decide) 0) seq word arrival

theorem feedbacks_wellFormed_two :
    Reachable deltaBytes (twoSeen 3 1000000) ∧
      FeedbacksWellFormed deltaBytes (twoSeen 3 1000000) 7 :=
  ⟨twoSeen_reachable deltaBytes (by decide) _,
    (feedbacks_wellFormed_iff deltaBytes deltaBytes_le _
      (twoSeen_reachable deltaBytes (by decide) _) 7).mpr (by decide +kernel)⟩

/-- The numbers from 1 to 9 make nine symbols in one chunk. -/
theorem nine_symbols_in_chunk : ∃ receiver, Reachable deltaBytes receiver ∧
    ¬ FeedbacksWellFormed deltaBytes receiver 7 := by
  refine ⟨twoSeen 9 1000000, twoSeen_reachable deltaBytes (by decide) _, fun formed => ?_⟩
  have sorted := reachable_sorted deltaBytes (@twoSeen_reachable deltaBytes 9 (by decide) 1000000)
  exact absurd (short_of_wellFormed deltaBytes deltaBytes_le sorted formed) (by decide +kernel)

end Reached

end TransportFeedback
