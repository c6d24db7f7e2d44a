import Nebula.Media.FeedbackReports
import Mathlib.Data.List.Forall2

/- What a sender reads from the feedback packets of a receiver. Ticks leave out a part of
   each difference between arrivals, and the parts add up over a packet. -/
namespace TransportFeedback

section Readings

/-- Within one tick, in nanoseconds. -/
def WithinTick (nanos : Int) : Prop := -250000 < nanos ∧ nanos < 250000

instance (nanos : Int) : Decidable (WithinTick nanos) := inferInstanceAs (Decidable (_ ∧ _))

/-- What is read, in microseconds, is an arrival: its number, and its instant to a tick. -/
def Matches (read : Nat × Nat) (arrival : Arrival) : Prop :=
  read.1 = arrival.1 ∧ WithinTick (1000 * (read.2 : Int) - arrival.2)

instance (read : Nat × Nat) (arrival : Arrival) : Decidable (Matches read arrival) :=
  inferInstanceAs (Decidable (_ ∧ _))

/-- What is read for arrivals, from a number and a sum of deltas on. -/
def readingsOf (reference : Int) (seq next : Nat) (prev : Int) (sum : Int) :
    List Arrival → List (Nat × Nat)
  | [] => []
  | (seqnum, arrival) :: rest =>
    (seq + (seqnum - next),
        ((reference + (sum + ticksAfter prev arrival * 250)) % 2 ^ 64).toNat) ::
      readingsOf reference (seq + (seqnum - next) + 1) (seqnum + 1) arrival
        (sum + ticksAfter prev arrival * 250) rest

theorem readSymbols_missing (reference : Int) (symbols : List SymbolTypeTcc)
    (deltas : List RecvDelta) (seq : Nat) (sum : Int) :
    readSymbols reference (.packetNotReceived :: symbols) deltas seq sum =
      readSymbols reference symbols deltas (seq + 1) sum := by
  cases deltas with
  | nil => rfl
  | cons delta deltas => rfl

theorem readSymbols_skip (reference : Int) (count : Nat) (symbols : List SymbolTypeTcc)
    (deltas : List RecvDelta) (seq : Nat) (sum : Int) :
    readSymbols reference (List.replicate count .packetNotReceived ++ symbols) deltas seq sum =
      readSymbols reference symbols deltas (seq + count) sum := by
  induction count generalizing seq with
  | zero => rfl
  | succ count ih =>
    rw [List.replicate_succ, List.cons_append, readSymbols_missing, ih]
    congr 1
    omega

theorem readSymbols_received (reference : Int) (ticks : Int) (symbols : List SymbolTypeTcc)
    (deltas : List RecvDelta) (seq : Nat) (sum : Int) :
    readSymbols reference (symbolOf ticks :: symbols) (deltaOf ticks :: deltas) seq sum =
      (seq, ((reference + (sum + ticks * 250)) % 2 ^ 64).toNat) ::
        readSymbols reference symbols deltas (seq + 1) (sum + ticks * 250) := by
  unfold symbolOf
  split
  · rfl
  · rfl

theorem readSymbols_eq (reference : Int) (seq next : Nat) (prev : Int) (sum : Int)
    (taken : List Arrival) (trailing : Nat) :
    readSymbols reference (symbolsOf next prev taken ++ List.replicate trailing .packetNotReceived)
      (deltasOf prev taken) seq sum = readingsOf reference seq next prev sum taken := by
  induction taken generalizing seq next prev sum with
  | nil =>
    have none := readSymbols_skip reference trailing [] [] seq sum
    rw [List.append_nil] at none
    exact none
  | cons arrival rest ih =>
    obtain ⟨seqnum, arrival⟩ := arrival
    rw [symbolsOf, deltasOf, List.append_assoc, readSymbols_skip, List.cons_append,
      readSymbols_received, ih, readingsOf]

theorem readingsOf_length (reference : Int) (seq next : Nat) (prev : Int) (sum : Int)
    (taken : List Arrival) : (readingsOf reference seq next prev sum taken).length = taken.length := by
  induction taken generalizing seq next prev sum with
  | nil => rfl
  | cons arrival rest ih => rw [readingsOf, List.length_cons, List.length_cons, ih]

end Readings

section Lags

/-- What the ticks of a difference leave out of it, in nanoseconds. -/
def lag (before after : Int) : Int := after - before - 250000 * ticksAfter before after

/-- The parts left out add up to less than a tick at each arrival. -/
def Timely (sum : Int) (prev : Int) : List Arrival → Prop
  | [] => True
  | (_, arrival) :: rest =>
    WithinTick (sum + lag prev arrival) ∧ Timely (sum + lag prev arrival) arrival rest

/-- Ticks have the sign of their difference. -/
theorem ticksAfter_sign (before after : Int) :
    (0 < ticksAfter before after → before < after) ∧
      (ticksAfter before after < 0 → after ≤ before) := by
  unfold ticksAfter ticksFromBeforeAndAfter
  split
  · rename_i later
    exact ⟨fun _ => later, fun _ => by omega⟩
  · rename_i earlier
    exact ⟨fun _ => by omega, fun _ => Int.not_lt.mp earlier⟩

/-- A value that stays a 64-bit number is read as it is, and is within a tick where what was
    left out is; a value that does not is neither. -/
theorem within_iff {value sum : Int} {prev arrival : Int} (fits : FitsDelta prev arrival)
    (low : 0 ≤ value) (high : value + 8388608 < 2 ^ 64) (divides : value % 250 = 0)
    (known : prev - 1000 * value = sum) (within : WithinTick sum) (after : 0 ≤ arrival) :
    WithinTick (1000 * (((value + ticksAfter prev arrival * 250) % 2 ^ 64).toNat : Int) - arrival) ↔
      WithinTick (sum + lag prev arrival) := by
  obtain ⟨small, large⟩ := fits
  obtain ⟨forward, backward⟩ := ticksAfter_sign prev arrival
  unfold WithinTick at within ⊢
  unfold lag
  generalize ticksAfter prev arrival = ticks at small large forward backward ⊢
  by_cases negative : value + ticks * 250 < 0
  · -- The cast of a negative value is far above the arrival, which is before the last one.
    have back := backward (by omega)
    have wrapped : (value + ticks * 250) % 2 ^ 64 = value + ticks * 250 + 2 ^ 64 := by omega
    rw [wrapped]
    constructor
    · rintro ⟨_, far⟩
      omega
    · rintro ⟨_, far⟩
      omega
  · have kept : 0 ≤ value + ticks * 250 := Int.not_lt.mp negative
    have same : (value + ticks * 250) % 2 ^ 64 = value + ticks * 250 :=
      Int.emod_eq_of_lt kept (by omega)
    rw [same, Int.toNat_of_nonneg kept]
    constructor
    · rintro ⟨first, second⟩
      exact ⟨by omega, by omega⟩
    · rintro ⟨first, second⟩
      exact ⟨by omega, by omega⟩

/-- Readings from the right number match their arrivals exactly if the arrivals are timely. -/
theorem readingsOf_matches {reference sum lags : Int} {next : Nat} {prev : Int}
    {taken : List Arrival} (sorted : Sorted taken) (above : ∀ arrival ∈ taken, next ≤ arrival.1)
    (after : ∀ arrival ∈ taken, 0 ≤ arrival.2) (fits : AllFit prev taken)
    (low : 0 ≤ reference + sum) (high : reference + sum + 8388608 * taken.length < 2 ^ 64)
    (divides : (reference + sum) % 250 = 0) (known : prev - 1000 * (reference + sum) = lags)
    (within : WithinTick lags) :
    List.Forall₂ Matches (readingsOf reference next next prev sum taken) taken ↔
      Timely lags prev taken := by
  induction taken generalizing sum lags next prev with
  | nil => exact iff_of_true List.Forall₂.nil trivial
  | cons arrival rest ih =>
    obtain ⟨seqnum, arrival⟩ := arrival
    obtain ⟨first, later⟩ := List.pairwise_cons.mp sorted
    obtain ⟨fitsFirst, fitsRest⟩ := fits
    have higher : next ≤ seqnum := above _ List.mem_cons_self
    have reached : next + (seqnum - next) = seqnum := by omega
    rw [List.length_cons] at high
    have values : reference + (sum + ticksAfter prev arrival * 250) =
        reference + sum + ticksAfter prev arrival * 250 := by omega
    have one := within_iff fitsFirst low (by omega) divides known within
      (after _ List.mem_cons_self)
    rw [readingsOf, List.forall₂_cons, reached, Timely]
    have head : Matches (seqnum, ((reference + (sum + ticksAfter prev arrival * 250)) % 2 ^ 64).toNat)
        (seqnum, arrival) ↔ WithinTick (lags + lag prev arrival) := by
      rw [← one, values]
      exact and_iff_right rfl
    rw [head]
    refine and_congr_right fun timely => ?_
    have value : arrival - 1000 * (reference + (sum + ticksAfter prev arrival * 250)) =
        lags + lag prev arrival := by
      unfold lag
      omega
    have kept : 0 ≤ reference + (sum + ticksAfter prev arrival * 250) := by
      have start := after _ List.mem_cons_self
      obtain ⟨_, below⟩ := timely
      rw [← value] at below
      simp only at start
      omega
    obtain ⟨small, large⟩ := fitsFirst
    exact ih later first (fun found member => after found (List.mem_cons_of_mem _ member))
      fitsRest kept (by omega) (by omega) value timely

end Lags

section Reports

/-- A report in time: its reference time fits into 32 bits of ticks, and it is timely from
    there on. -/
def Timed : List Arrival → Prop
  | [] => True
  | first :: taken => referenceTicks first.2 < 2 ^ 32 ∧
      Timely 0 (referenceTime first.2) (first :: taken)

/-- The base of each report is recovered by a sender that has seen the bases before it. -/
def InStep : Nat → List (List Arrival) → Prop
  | _, [] => True
  | max, [] :: more => InStep max more
  | max, (first :: _) :: more => (expandTruncatedCounter (first.1 % 65536) max 16).1 = first.1 ∧
      InStep (expandTruncatedCounter (first.1 % 65536) max 16).2 more

theorem readFeedback_eq {senderSsrc mediaSsrc feedbackSeqnum : Nat} {first : Arrival}
    {taken : List Arrival} {draft : Draft} (holds : Holds first taken draft) (max : Nat) :
    (readFeedback max (packetOf senderSsrc mediaSsrc feedbackSeqnum first draft)).1 =
      readingsOf (64000 * ((referenceTicks first.2 % 2 ^ 32 : Nat) : Int))
        (expandTruncatedCounter (first.1 % 65536) max 16).1 first.1 (referenceTime first.2) 0
          (first :: taken) := by
  obtain ⟨trailing, symbols⟩ := holds.symbols
  rw [← readSymbols_eq _ _ _ _ _ _ trailing, ← symbols, ← holds.deltas]
  show readSymbols _ ([PacketStatusChunk.statusVectorChunk draft.symbolLists].flatMap
    PacketStatusChunk.symbols) _ _ _ = _
  rw [List.flatMap_singleton]
  rfl

/-- A reading near the arrival shows that the reference time fits into its field. -/
theorem reference_fits {arrival ticks : Int} {reference low : Nat}
    (start : 64000000 * (reference : Int) ≤ arrival) (bounds : 0 ≤ ticks ∧ ticks ≤ 255)
    (field : low < 2 ^ 32)
    (near : WithinTick (1000 * (((64000 * (low : Int) + (0 + ticks * 250)) % 2 ^ 64).toNat : Int) -
      arrival)) : reference ≤ low := by
  obtain ⟨small, large⟩ := bounds
  have positive : 0 ≤ 64000 * (low : Int) + (0 + ticks * 250) := by omega
  have same : (64000 * (low : Int) + (0 + ticks * 250)) % 2 ^ 64 =
      64000 * (low : Int) + (0 + ticks * 250) := Int.emod_eq_of_lt positive (by omega)
  rw [same, Int.toNat_of_nonneg positive] at near
  have above := near.1
  omega

theorem readFeedback_matches {senderSsrc mediaSsrc feedbackSeqnum : Nat} {first : Arrival}
    {taken : List Arrival} {draft : Draft} (holds : Holds first taken draft)
    (sorted : Sorted (first :: taken)) (after : ∀ arrival ∈ first :: taken, 0 ≤ arrival.2)
    (max : Nat) :
    List.Forall₂ Matches
        (readFeedback max (packetOf senderSsrc mediaSsrc feedbackSeqnum first draft)).1
        (first :: taken) ↔
      (expandTruncatedCounter (first.1 % 65536) max 16).1 = first.1 ∧ Timed (first :: taken) := by
  rw [readFeedback_eq holds]
  obtain ⟨seqnum, arrival⟩ := first
  obtain ⟨below, bounds⟩ := fits_first (after _ List.mem_cons_self)
  have reference : referenceTime arrival = 64000000 * (referenceTicks arrival : Int) := by
    unfold referenceTime durationFromTicks MICROS_PER_REFERENCE_TICK
    omega
  have field : referenceTicks arrival % 2 ^ 32 < 2 ^ 32 := Nat.mod_lt _ (by decide)
  have timely : referenceTicks arrival < 2 ^ 32 →
      (List.Forall₂ Matches (readingsOf (64000 * ((referenceTicks arrival : Nat) : Int)) seqnum
        seqnum (referenceTime arrival) 0 ((seqnum, arrival) :: taken)) ((seqnum, arrival) :: taken) ↔
      Timely 0 (referenceTime arrival) ((seqnum, arrival) :: taken)) := by
    intro small
    have short := holds.short
    refine readingsOf_matches sorted ?_ after holds.fits (by omega) ?_ (by omega) (by omega)
      ⟨by decide, by decide⟩
    · intro found member
      rcases List.mem_cons.mp member with rfl | later
      · exact Nat.le_refl _
      · exact Nat.le_of_lt ((List.pairwise_cons.mp sorted).1 found later)
    · rw [List.length_cons]
      omega
  constructor
  · intro all
    have head := all
    rw [readingsOf, List.forall₂_cons] at head
    obtain ⟨⟨number, near⟩, _⟩ := head
    simp only [Nat.sub_self, Nat.add_zero] at number near
    rw [reference] at below
    have fitting := reference_fits below bounds field near
    have small : referenceTicks arrival < 2 ^ 32 := Nat.lt_of_le_of_lt fitting field
    simp only at all
    rw [number, Nat.mod_eq_of_lt small] at all
    exact ⟨number, small, (timely small).mp all⟩
  · rintro ⟨number, small, within⟩
    simp only at number small ⊢
    rw [number, Nat.mod_eq_of_lt small]
    exact (timely small).mpr within

theorem forall₂_append_iff {α β : Type} {R : α → β → Prop} {left₁ left₂ : List α}
    {right₁ right₂ : List β} (same : left₁.length = right₁.length) :
    List.Forall₂ R (left₁ ++ left₂) (right₁ ++ right₂) ↔
      List.Forall₂ R left₁ right₁ ∧ List.Forall₂ R left₂ right₂ := by
  induction left₁ generalizing right₁ with
  | nil =>
    have none : right₁ = [] := List.eq_nil_of_length_eq_zero same.symm
    rw [none]
    exact (and_iff_right List.Forall₂.nil).symm
  | cons head rest ih =>
    cases right₁ with
    | nil => cases same
    | cons other others =>
      have shorter : rest.length = others.length := Nat.succ.inj same
      rw [List.cons_append, List.cons_append, List.forall₂_cons, List.forall₂_cons, ih shorter,
        and_assoc]

end Reports

section RoundTrip

variable (marshalSize : RecvDelta → Nat)

theorem packets_end (senderSsrc mediaSsrc fuel feedbackSeqnum : Nat) {arrivals : List Arrival}
    (after : ∀ arrival ∈ arrivals, 0 ≤ arrival.2) (enough : arrivals.length ≤ fuel) :
    ∃ made last, packets marshalSize senderSsrc mediaSsrc fuel feedbackSeqnum arrivals =
      some (made, last) := by
  induction fuel generalizing feedbackSeqnum arrivals with
  | zero =>
    have none : arrivals = [] := List.eq_nil_of_length_eq_zero (Nat.le_zero.mp enough)
    rw [none]
    exact ⟨[], feedbackSeqnum, rfl⟩
  | succ fuel ih =>
    cases arrivals with
    | nil => exact ⟨[], feedbackSeqnum, rfl⟩
    | cons first rest =>
      have fits := fitsDelta_first (after first List.mem_cons_self)
      obtain ⟨taken, parts, _⟩ := draftOf_holds marshalSize rest fits
      have size := congrArg List.length parts
      rw [List.length_append] at size
      rw [List.length_cons] at enough
      have later : ∀ arrival ∈ (draftOf marshalSize first rest).2, 0 ≤ arrival.2 := by
        intro arrival member
        refine after arrival (List.mem_cons_of_mem _ ?_)
        rw [parts]
        exact List.mem_append_right _ member
      obtain ⟨made, last, more⟩ := ih ((feedbackSeqnum + 1) % 256) later (by omega)
      rw [packets_cons, more]
      exact ⟨_, _, rfl⟩

theorem readAll_matches {senderSsrc mediaSsrc fuel feedbackSeqnum : Nat} {arrivals : List Arrival}
    (sorted : Sorted arrivals) (after : ∀ arrival ∈ arrivals, 0 ≤ arrival.2) (max : Nat)
    {made : List TransportLayerCc} {last : Nat}
    (done : packets marshalSize senderSsrc mediaSsrc fuel feedbackSeqnum arrivals =
      some (made, last)) :
    List.Forall₂ Matches (readAll max made) arrivals ↔
      InStep max (reports marshalSize fuel arrivals) ∧
        ∀ report ∈ reports marshalSize fuel arrivals, Timed report := by
  induction fuel generalizing feedbackSeqnum arrivals max made last with
  | zero =>
    cases arrivals with
    | nil =>
      obtain ⟨rfl, _⟩ := Prod.mk.inj (Option.some.inj done)
      exact iff_of_true List.Forall₂.nil ⟨trivial, by simp [reports]⟩
    | cons first rest => cases done
  | succ fuel ih =>
    cases arrivals with
    | nil =>
      obtain ⟨rfl, _⟩ := Prod.mk.inj (Option.some.inj done)
      exact iff_of_true List.Forall₂.nil ⟨trivial, by simp [reports]⟩
    | cons first rest =>
      have fits := fitsDelta_first (after first List.mem_cons_self)
      obtain ⟨taken, parts, holds⟩ := draftOf_holds marshalSize rest fits
      rw [packets_cons] at done
      obtain ⟨⟨others, number⟩, more, same⟩ := Option.map_eq_some_iff.mp done
      obtain ⟨rfl, _⟩ := Prod.mk.inj same
      have whole : first :: rest = (first :: taken) ++ (draftOf marshalSize first rest).2 := by
        rw [List.cons_append, ← parts]
      rw [reports_cons marshalSize parts rfl, List.forall_mem_cons, readAll]
      rw [whole] at sorted after ⊢
      obtain ⟨front, back, _⟩ := List.pairwise_append.mp sorted
      have length : (readFeedback max (packetOf senderSsrc mediaSsrc feedbackSeqnum first
          (draftOf marshalSize first rest).1)).1.length = (first :: taken).length := by
        rw [readFeedback_eq holds, readingsOf_length]
      rw [forall₂_append_iff length, readFeedback_matches holds front
        (fun arrival member => after arrival (List.mem_append_left _ member)) max,
        ih back (fun arrival member => after arrival (List.mem_append_right _ member)) _ more]
      show _ ↔ ((expandTruncatedCounter (first.1 % 65536) max 16).1 = first.1 ∧
        InStep (expandTruncatedCounter (first.1 % 65536) max 16).2 _) ∧ _
      tauto

/-- What a sender reads from the feedbacks of a receiver is what the receiver remembered. -/
def RoundTrip (receiver : TccReceiver) (mediaSsrc fuel max : Nat) : Prop :=
  ∃ made after, feedbacks marshalSize fuel receiver mediaSsrc = some (made, after) ∧
    List.Forall₂ Matches (readAll max made) receiver.unackedArrival

/-- Arrivals from the epoch on come back, each to a tick, exactly if the sender recovers the
    base of each report and each report is timely. -/
theorem timing_round_trip (receiver : TccReceiver) (mediaSsrc fuel max : Nat)
    (sorted : Sorted receiver.unackedArrival)
    (after : ∀ arrival ∈ receiver.unackedArrival, 0 ≤ arrival.2)
    (enough : receiver.unackedArrival.length ≤ fuel) :
    RoundTrip marshalSize receiver mediaSsrc fuel max ↔
      InStep max (reports marshalSize fuel receiver.unackedArrival) ∧
        ∀ report ∈ reports marshalSize fuel receiver.unackedArrival, Timed report := by
  obtain ⟨made, last, ended⟩ := packets_end marshalSize receiver.senderSsrc mediaSsrc fuel
    receiver.feedbackSeqnum after enough
  rw [← readAll_matches marshalSize sorted after max ended]
  have fed : feedbacks marshalSize fuel receiver mediaSsrc = some (made,
      { receiver with unackedArrival := [], feedbackSeqnum := last }) := by
    unfold feedbacks
    rw [ended]
    rfl
  constructor
  · rintro ⟨other, state, given, all⟩
    obtain ⟨rfl, _⟩ := Prod.mk.inj (Option.some.inj (given.symm.trans fed))
    exact all
  · exact fun all => ⟨made, _, fed, all⟩

def remembering (arrivals : List Arrival) : TccReceiver := ⟨1, 0, 1, arrivals, 3⟩

theorem timing_round_trip_two :
    Sorted [(1, 0), (2, 300000)] ∧ RoundTrip deltaBytes (remembering [(1, 0), (2, 300000)]) 7 2 0 := by
  have sorted : Sorted [(1, 0), (2, 300000)] := by
    unfold Sorted
    decide
  have one : reports deltaBytes 2 [(1, 0), (2, 300000)] = [[(1, 0), (2, 300000)]] := by
    decide +kernel
  refine ⟨sorted, (timing_round_trip deltaBytes (remembering [(1, 0), (2, 300000)]) 7 2 0 sorted
    (by decide) (by decide)).mpr ?_⟩
  show InStep 0 (reports deltaBytes 2 [(1, 0), (2, 300000)]) ∧
    ∀ report ∈ reports deltaBytes 2 [(1, 0), (2, 300000)], Timed report
  rw [one]
  refine ⟨⟨by decide +kernel, trivial⟩, List.forall_mem_singleton.mpr ⟨by decide +kernel, ?_⟩⟩
  exact ⟨by decide +kernel, by decide +kernel, trivial⟩

/-- Two differences of 249 microseconds are no tick each, and almost two ticks together. -/
theorem lags_add_up : Sorted [(1, 0), (2, 249000), (3, 498000)] ∧
    ¬ RoundTrip deltaBytes (remembering [(1, 0), (2, 249000), (3, 498000)]) 7 3 0 := by
  refine ⟨by unfold Sorted; decide, ?_⟩
  rintro ⟨made, after, fed, all⟩
  have misses : (feedbacks deltaBytes 3 (remembering [(1, 0), (2, 249000), (3, 498000)]) 7).all
      (fun read => ¬ List.Forall₂ Matches (readAll 0 read.1)
        [(1, 0), (2, 249000), (3, 498000)]) = true := by decide +kernel
  have wrong := (Option.all_eq_true _ _).mp misses (made, after) fed
  exact absurd all (of_decide_eq_true wrong)

end RoundTrip

end TransportFeedback
