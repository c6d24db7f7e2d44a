import Nebula.Media.TransportFeedback
import Mathlib.Algebra.Order.Group.Int

/- What one feedback packet holds: an unbroken part of the arrivals, with a delta and a
   received symbol for each and a symbol for each number between them. -/
namespace TransportFeedback

section Parts

def ticksAfter (before after : Int) : Int :=
  ticksFromBeforeAndAfter before after MICROS_PER_DELTA_TICK

def symbolOf (ticks : Int) : SymbolTypeTcc :=
  if 0 ≤ ticks ∧ ticks ≤ 255 then .packetReceivedSmallDelta else .packetReceivedLargeDelta

def deltaOf (ticks : Int) : RecvDelta := ⟨symbolOf ticks, ticks * MICROS_PER_DELTA_TICK⟩

/-- The difference fits into 16 bits of ticks. -/
def FitsDelta (before after : Int) : Prop :=
  -32768 ≤ ticksAfter before after ∧ ticksAfter before after ≤ 32767

instance (before after : Int) : Decidable (FitsDelta before after) :=
  inferInstanceAs (Decidable (_ ∧ _))

/-- Each arrival fits after the one before it. -/
def AllFit (prev : Int) : List Arrival → Prop
  | [] => True
  | (_, arrival) :: rest => FitsDelta prev arrival ∧ AllFit arrival rest

def deltasOf (prev : Int) : List Arrival → List RecvDelta
  | [] => []
  | (_, arrival) :: rest => deltaOf (ticksAfter prev arrival) :: deltasOf arrival rest

/-- The symbols for arrivals, from the number on that is next. -/
def symbolsOf (next : Nat) (prev : Int) : List Arrival → List SymbolTypeTcc
  | [] => []
  | (seqnum, arrival) :: rest =>
    List.replicate (seqnum - next) .packetNotReceived ++
      symbolOf (ticksAfter prev arrival) :: symbolsOf (seqnum + 1) arrival rest

/-- The last number of arrivals that follow one. -/
def lastOf (prevSeqnum : Nat) (arrivals : List Arrival) : Nat :=
  (arrivals.getLast?.map Prod.fst).getD prevSeqnum

def Sorted (arrivals : List Arrival) : Prop := arrivals.Pairwise fun a b => a.1 < b.1

theorem lastOf_cons (prevSeqnum : Nat) (arrival : Arrival) (rest : List Arrival) :
    lastOf prevSeqnum (arrival :: rest) = lastOf arrival.1 rest := by
  unfold lastOf
  cases rest with
  | nil => rfl
  | cons next rest => rfl

/-- Between a number and the last of arrivals above it there is a symbol for each number. -/
theorem symbolsOf_length {prevSeqnum : Nat} {prev : Int} {arrivals : List Arrival}
    (sorted : Sorted arrivals) (above : ∀ arrival ∈ arrivals, prevSeqnum < arrival.1) :
    prevSeqnum + (symbolsOf (prevSeqnum + 1) prev arrivals).length = lastOf prevSeqnum arrivals := by
  induction arrivals generalizing prevSeqnum prev with
  | nil => rfl
  | cons arrival rest ih =>
    obtain ⟨seqnum, arrival⟩ := arrival
    obtain ⟨first, later⟩ := List.pairwise_cons.mp sorted
    have higher : prevSeqnum < seqnum := above _ List.mem_cons_self
    rw [lastOf_cons, ← @ih seqnum arrival later first, symbolsOf, List.length_append,
      List.length_replicate, List.length_cons]
    omega

/-- The numbers of received symbols, the first symbol being for the given number. -/
def received : Nat → List SymbolTypeTcc → List Nat
  | _, [] => []
  | next, symbol :: symbols =>
    if symbol = .packetNotReceived then received (next + 1) symbols
    else next :: received (next + 1) symbols

theorem symbolOf_received (ticks : Int) : symbolOf ticks ≠ .packetNotReceived := by
  unfold symbolOf
  split
  · decide
  · decide

theorem received_skip (count next : Nat) (symbols : List SymbolTypeTcc) :
    received next (List.replicate count .packetNotReceived ++ symbols) =
      received (next + count) symbols := by
  induction count generalizing next with
  | zero => rfl
  | succ count ih =>
    rw [List.replicate_succ, List.cons_append, received, if_pos rfl, ih]
    congr 1
    omega

theorem received_symbolsOf {next : Nat} {prev : Int} {arrivals : List Arrival}
    (trailing : Nat) (sorted : Sorted arrivals) (above : ∀ arrival ∈ arrivals, next ≤ arrival.1) :
    received next (symbolsOf next prev arrivals ++ List.replicate trailing .packetNotReceived) =
      arrivals.map Prod.fst := by
  induction arrivals generalizing next prev with
  | nil =>
    have none := received_skip trailing next []
    rw [List.append_nil] at none
    exact none
  | cons arrival rest ih =>
    obtain ⟨seqnum, arrival⟩ := arrival
    obtain ⟨first, later⟩ := List.pairwise_cons.mp sorted
    have higher : next ≤ seqnum := above _ List.mem_cons_self
    have reached : next + (seqnum - next) = seqnum := by omega
    rw [symbolsOf, List.append_assoc, received_skip, reached, List.cons_append, received,
      if_neg (symbolOf_received _), ih later fun arrival member => first arrival member]
    rfl

/-- The deltas are those of the received symbols, in the same order. -/
theorem filter_symbolsOf (next : Nat) (prev : Int) (arrivals : List Arrival) (trailing : Nat) :
    (symbolsOf next prev arrivals ++ List.replicate trailing SymbolTypeTcc.packetNotReceived).filter
        (· ≠ SymbolTypeTcc.packetNotReceived) =
      (deltasOf prev arrivals).map RecvDelta.typeTccPacket := by
  have none : ∀ count, (List.replicate count SymbolTypeTcc.packetNotReceived).filter
      (· ≠ SymbolTypeTcc.packetNotReceived) = [] := by
    intro count
    rw [List.filter_replicate]
    rfl
  induction arrivals generalizing next prev with
  | nil => exact none trailing
  | cons arrival rest ih =>
    obtain ⟨seqnum, arrival⟩ := arrival
    rw [symbolsOf, List.append_assoc, List.filter_append, none, List.nil_append, List.cons_append,
      List.filter_cons_of_pos (by simpa using symbolOf_received _), ih]
    rfl

end Parts

section Filling

variable (marshalSize : RecvDelta → Nat)

/-- What the loop makes of a draft and of arrivals. -/
theorem fill_cons (firstSeqnum : Nat) (draft : Draft) (seqnum : Nat) (arrival : Int)
    (rest : List Arrival) :
    fill marshalSize firstSeqnum draft ((seqnum, arrival) :: rest) =
      if firstSeqnum + 65535 < seqnum ∨
          1100 < (draft.recvDeltas.map marshalSize).sum + draft.symbolLists.length then
        (draft, (seqnum, arrival) :: rest)
      else if FitsDelta draft.prevArrival arrival then
        fill marshalSize firstSeqnum ((draft.skipTo seqnum).received
          (symbolOf (ticksAfter draft.prevArrival arrival)) (ticksAfter draft.prevArrival arrival)
            (seqnum, arrival)) rest
      else (draft.skipTo seqnum, (seqnum, arrival) :: rest) := by
  rw [fill]
  by_cases far : firstSeqnum + 65535 < seqnum
  · rw [if_pos far, if_pos (Or.inl far)]
  by_cases full : 1100 < (draft.recvDeltas.map marshalSize).sum + draft.symbolLists.length
  · rw [if_neg far, if_pos full, if_pos (Or.inr full)]
  rw [if_neg far, if_neg full, if_neg (not_or.mpr ⟨far, full⟩)]
  unfold symbolOf FitsDelta ticksAfter
  by_cases small : 0 ≤ ticksFromBeforeAndAfter draft.prevArrival arrival MICROS_PER_DELTA_TICK ∧
      ticksFromBeforeAndAfter draft.prevArrival arrival MICROS_PER_DELTA_TICK ≤ 255
  · simp only [if_pos small]
    rw [if_pos (by omega)]
  · simp only [if_neg small]

/-- A draft takes up the first of the arrivals and leaves the others, perhaps after symbols
    for the numbers before the next one. -/
theorem fill_spec (firstSeqnum : Nat) (draft : Draft) (arrivals : List Arrival) :
    ∃ taken trailing, arrivals = taken ++ (fill marshalSize firstSeqnum draft arrivals).2 ∧
      AllFit draft.prevArrival taken ∧
      (taken ≠ [] → draft.symbolLists.length + taken.length ≤ 1101) ∧
      (fill marshalSize firstSeqnum draft arrivals).1.prevSeqnum = lastOf draft.prevSeqnum taken ∧
      (fill marshalSize firstSeqnum draft arrivals).1.recvDeltas =
        draft.recvDeltas ++ deltasOf draft.prevArrival taken ∧
      (fill marshalSize firstSeqnum draft arrivals).1.symbolLists =
        draft.symbolLists ++ (symbolsOf (draft.prevSeqnum + 1) draft.prevArrival taken ++
          List.replicate trailing .packetNotReceived) := by
  induction arrivals generalizing draft with
  | nil =>
    refine ⟨[], 0, rfl, trivial, ?_, rfl, ?_, ?_⟩
    · exact fun some => absurd rfl some
    · exact (List.append_nil _).symm
    · exact (List.append_nil _).symm
  | cons arrival rest ih =>
    obtain ⟨seqnum, arrival⟩ := arrival
    rw [fill_cons]
    split
    · refine ⟨[], 0, rfl, trivial, ?_, rfl, ?_, ?_⟩
      · exact fun some => absurd rfl some
      · exact (List.append_nil _).symm
      · exact (List.append_nil _).symm
    rename_i goes
    split
    · rename_i fitting
      obtain ⟨taken, trailing, parts, fits, short, last, deltas, symbols⟩ :=
        ih ((draft.skipTo seqnum).received (symbolOf (ticksAfter draft.prevArrival arrival))
          (ticksAfter draft.prevArrival arrival) (seqnum, arrival))
      have room := (not_or.mp goes).2
      have size : draft.symbolLists.length + 1 ≤ ((draft.skipTo seqnum).received
          (symbolOf (ticksAfter draft.prevArrival arrival)) (ticksAfter draft.prevArrival arrival)
            (seqnum, arrival)).symbolLists.length := by
        simp only [Draft.received, Draft.skipTo, List.length_append, List.length_singleton]
        omega
      refine ⟨(seqnum, arrival) :: taken, trailing, ?_, ⟨fitting, fits⟩, ?_, ?_, ?_, ?_⟩
      · rw [List.cons_append, ← parts]
      · intro _
        by_cases none : taken = []
        · rw [none, List.length_singleton]
          omega
        · have bound := short none
          rw [List.length_cons]
          omega
      · rw [last, lastOf_cons]
        rfl
      · rw [deltas, deltasOf]
        simp only [Draft.received, Draft.skipTo, List.append_assoc]
        rfl
      · rw [symbols, symbolsOf]
        simp only [Draft.received, Draft.skipTo, List.append_assoc, List.cons_append,
          List.nil_append]
    · refine ⟨[], seqnum - (draft.prevSeqnum + 1), rfl, trivial, ?_, rfl, ?_, rfl⟩
      · exact fun some => absurd rfl some
      · exact (List.append_nil _).symm

/-- What a draft holds of arrivals whose first one fits. -/
structure Holds (first : Arrival) (taken : List Arrival) (draft : Draft) : Prop where
  last : draft.prevSeqnum = lastOf first.1 taken
  deltas : draft.recvDeltas = deltasOf (referenceTime first.2) (first :: taken)
  symbols : ∃ trailing, draft.symbolLists =
    symbolsOf first.1 (referenceTime first.2) (first :: taken) ++
      List.replicate trailing .packetNotReceived
  fits : AllFit (referenceTime first.2) (first :: taken)
  short : taken.length ≤ 1100

theorem draftOf_holds {first : Arrival} (rest : List Arrival)
    (fits : FitsDelta (referenceTime first.2) first.2) :
    ∃ taken, rest = taken ++ (draftOf marshalSize first rest).2 ∧
      Holds first taken (draftOf marshalSize first rest).1 := by
  obtain ⟨seqnum, arrival⟩ := first
  unfold draftOf
  rw [fill_cons, if_neg (by simp), if_pos fits]
  obtain ⟨taken, trailing, parts, allFit, short, last, deltas, symbols⟩ := fill_spec marshalSize seqnum
    ((Draft.skipTo ⟨seqnum, referenceTime arrival, [], []⟩ seqnum).received
      (symbolOf (ticksAfter (referenceTime arrival) arrival))
      (ticksAfter (referenceTime arrival) arrival) (seqnum, arrival)) rest
  have none : seqnum - (seqnum + 1) = 0 := by omega
  refine ⟨taken, parts, last, deltas, ⟨trailing, ?_⟩, ⟨fits, allFit⟩, ?_⟩
  · rw [symbols, symbolsOf]
    simp only [Draft.received, Draft.skipTo, none, Nat.sub_self, List.replicate_zero,
      List.nil_append, List.cons_append]
  · by_cases empty : taken = []
    · rw [empty]
      exact Nat.zero_le _
    · have bound := short empty
      simp only [Draft.received, Draft.skipTo, List.length_append, List.length_singleton] at bound
      omega

/-- An arrival that does not fit stays where it is. -/
theorem draftOf_stuck {first : Arrival} (rest : List Arrival)
    (misses : ¬ FitsDelta (referenceTime first.2) first.2) :
    (draftOf marshalSize first rest).2 = first :: rest := by
  obtain ⟨seqnum, arrival⟩ := first
  unfold draftOf
  rw [fill_cons, if_neg (by simp), if_neg misses]

/-- The parts of the arrivals that the packets hold. -/
def reports : Nat → List Arrival → List (List Arrival)
  | _, [] => []
  | 0, _ :: _ => []
  | fuel + 1, first :: rest =>
    (first :: rest).take ((first :: rest).length - (draftOf marshalSize first rest).2.length) ::
      reports fuel (draftOf marshalSize first rest).2

theorem reports_cons {fuel : Nat} {first : Arrival} {rest taken left : List Arrival}
    (parts : rest = taken ++ left) (drafted : (draftOf marshalSize first rest).2 = left) :
    reports marshalSize (fuel + 1) (first :: rest) =
      (first :: taken) :: reports marshalSize fuel left := by
  have size : (first :: rest).length - left.length = (first :: taken).length := by
    rw [parts, List.length_cons, List.length_cons, List.length_append]
    omega
  have taking : (first :: rest).take (first :: taken).length = first :: taken := by
    rw [parts, ← List.cons_append, List.take_left]
  rw [reports, drafted, size, taking]

theorem packets_cons (senderSsrc mediaSsrc fuel feedbackSeqnum : Nat) (first : Arrival)
    (rest : List Arrival) :
    packets marshalSize senderSsrc mediaSsrc (fuel + 1) feedbackSeqnum (first :: rest) =
      (packets marshalSize senderSsrc mediaSsrc fuel ((feedbackSeqnum + 1) % 256)
        (draftOf marshalSize first rest).2).map fun more =>
          (packetOf senderSsrc mediaSsrc feedbackSeqnum first (draftOf marshalSize first rest).1 ::
            more.1, more.2) := rfl

/-- An arrival that does not fit keeps the packets from ending. -/
theorem packets_stuck (senderSsrc mediaSsrc fuel feedbackSeqnum : Nat) {first : Arrival}
    (rest : List Arrival) (misses : ¬ FitsDelta (referenceTime first.2) first.2) :
    packets marshalSize senderSsrc mediaSsrc fuel feedbackSeqnum (first :: rest) = none := by
  induction fuel generalizing feedbackSeqnum with
  | zero => rfl
  | succ fuel ih => rw [packets_cons, draftOf_stuck marshalSize rest misses, ih, Option.map_none]

theorem micros_after_reference (nanos : Nat) :
    (nanos - nanos / 1000 % 2 ^ 64 / 64000 * 64000 * 1000) / 1000 % 2 ^ 64 =
      nanos / 1000 % 2 ^ 64 % 64000 := by
  omega

/-- From the epoch on a first arrival is less than a reference tick after the reference time,
    and fits. -/
theorem fits_first {arrival : Int} (after : 0 ≤ arrival) :
    referenceTime arrival ≤ arrival ∧ 0 ≤ ticksAfter (referenceTime arrival) arrival ∧
      ticksAfter (referenceTime arrival) arrival ≤ 255 := by
  obtain ⟨nanos, rfl⟩ := Int.eq_ofNat_of_zero_le after
  have reference : referenceTime (nanos : Int) =
      ((nanos / 1000 % 2 ^ 64 / 64000 * 64000 * 1000 : Nat) : Int) := rfl
  have below : nanos / 1000 % 2 ^ 64 / 64000 * 64000 * 1000 ≤ nanos := by omega
  have micros := micros_after_reference nanos
  rw [reference]
  generalize nanos / 1000 % 2 ^ 64 / 64000 * 64000 * 1000 = start at below micros ⊢
  have apart : ((nanos : Int) - (start : Int)).toNat = nanos - start := by omega
  refine ⟨Int.ofNat_le.mpr below, ?_⟩
  unfold ticksAfter ticksFromBeforeAndAfter ticksFromDuration
  have tick : MICROS_PER_DELTA_TICK = 250 := rfl
  rw [tick, apart, micros]
  split
  · constructor
    · omega
    · omega
  · rename_i same
    have none : ((start : Int) - (nanos : Int)).toNat = 0 := by omega
    rw [none]
    decide

theorem fitsDelta_first {arrival : Int} (after : 0 ≤ arrival) :
    FitsDelta (referenceTime arrival) arrival := by
  obtain ⟨_, low, high⟩ := fits_first after
  exact ⟨by omega, by omega⟩

/-- One byte for a small delta and two for a large one. -/
def deltaBytes (delta : RecvDelta) : Nat :=
  if delta.typeTccPacket = .packetReceivedSmallDelta then 1 else 2

theorem deltaBytes_le (delta : RecvDelta) : deltaBytes delta ≤ 2 := by
  unfold deltaBytes
  split
  · decide
  · decide

end Filling

end TransportFeedback
