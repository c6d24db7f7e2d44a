import Nebula.Media.JitterBuffer

/- Which payload get returns with which samples, when payloads pass through. The two queues
   stay in step as long as what is pushed lands at the same place in both. -/
namespace JitterBuffer

section Runs

/-- With overflow checks a counter that would go below zero ends the run, without them it
    wraps. -/
inductive Arithmetic where
  | checked
  | wrapping

def countedIn (mode : Arithmetic) (state : RtpBufferState) (seq : Nat) : Option RtpBufferState :=
  match updateRoc state seq, mode with
  | some after, _ => some after
  | none, .checked => none
  | none, .wrapping => some (counted state seq (2 ^ 64 - 1))

def extendedSeqIn (mode : Arithmetic) (state : RtpBufferState) (packet : Packet) : Nat :=
  match mode with
  | .checked => extendedSeq state packet
  | .wrapping => extendedSeq state packet % 2 ^ 64

def addIn (mode : Arithmetic) (state : RtpBufferState) (packet : Packet) : Option RtpBufferState :=
  (countedIn mode state packet.sequence).map fun state =>
    match packet.samples with
    | none => state
    | some pcm => queuePcm state packet pcm (extendedSeqIn mode state packet)

theorem addIn_checked (state : RtpBufferState) (packet : Packet) :
    addIn .checked state packet = add state packet := by
  have same : countedIn .checked state packet.sequence = updateRoc state packet.sequence := by
    unfold countedIn
    cases updateRoc state packet.sequence with
    | none => rfl
    | some after => rfl
  unfold addIn
  rw [same]
  rfl

/-- The state in the end, and what each get returned. -/
def runIn (mode : Arithmetic) (state : RtpBufferState) :
    List Event → Option (RtpBufferState × List (Option Packet × Option Pcm))
  | [] => some (state, [])
  | .add packet :: rest => (addIn mode state packet).bind fun next => runIn mode next rest
  | .get :: rest => (runIn mode (get state).1 rest).map fun last => (last.1, (get state).2 :: last.2)

end Runs

section Alignment

/-- The samples of queued payloads, as they are queued. -/
def pieces (payloads : SeqQueue Packet) : SeqQueue Piece :=
  payloads.map fun entry => (⟨entry.1.index, entry.1.samples.getD []⟩, entry.2)

/-- Each payload queued is of one frame, and the samples that come out next are those of
    the payloads, in the same order. -/
structure Aligned (state : RtpBufferState) : Prop where
  whole : ∀ entry ∈ state.payloads, ∃ pcm, entry.1.samples = some pcm ∧ pcm.length = state.pcmLen
  ends : ∃ others, state.pcms = others ++ pieces state.payloads

/-- The entries that come out after those of the payloads. -/
def RtpBufferState.others (state : RtpBufferState) : SeqQueue Piece :=
  state.pcms.take (state.pcms.length - state.payloads.length)

theorem aligned_split {state : RtpBufferState} (aligned : Aligned state) :
    state.pcms = state.others ++ pieces state.payloads := by
  obtain ⟨front, split⟩ := aligned.ends
  have size : state.pcms.length - state.payloads.length = front.length := by
    rw [split, List.length_append, pieces, List.length_map, Nat.add_sub_cancel]
  have same : state.others = front := by
    unfold RtpBufferState.others
    rw [size, split, List.take_left]
  rw [same, split]

theorem pieces_push (payloads : SeqQueue Packet) {packet : Packet} {pcm : Pcm} (seq : Nat)
    (samples : packet.samples = some pcm) :
    pieces (payloads.push packet seq) = (pieces payloads).push ⟨packet.index, pcm⟩ seq := by
  have made : (⟨packet.index, pcm⟩ : Piece) = ⟨packet.index, packet.samples.getD []⟩ := by
    rw [samples]
    rfl
  rw [made]
  induction payloads with
  | nil => rfl
  | cons head rest ih =>
    obtain ⟨other, s⟩ := head
    show pieces (SeqQueue.push ((other, s) :: rest) packet seq) =
      SeqQueue.push ((⟨other.index, other.samples.getD []⟩, s) :: pieces rest) _ seq
    unfold SeqQueue.push
    split
    · rfl
    · rw [← ih]
      rfl

/-- The packet is silent, and there are samples enough without it. -/
def Skipped (state : RtpBufferState) (packet : Packet) : Prop :=
  (10 < state.pcms.length ∨ state.jitterBufferSize + 1 < state.pcms.length) ∧
    packet.hadSound = false

/-- A packet of one frame is not numbered above any samples queued without a payload, and
    one of another size is numbered above all payloads. -/
structure Fits (state : RtpBufferState) (seq : Nat) (pcm : Pcm) : Prop where
  frame : pcm.length = state.pcmLen → ∀ entry ∈ state.others, seq ≤ entry.2
  other : pcm.length ≠ state.pcmLen → ∀ entry ∈ state.payloads, entry.2 < seq

instance (state : RtpBufferState) (packet : Packet) : Decidable (Skipped state packet) :=
  inferInstanceAs (Decidable (_ ∧ _))

instance (state : RtpBufferState) (seq : Nat) (pcm : Pcm) : Decidable (Fits state seq pcm) :=
  decidable_of_iff ((pcm.length = state.pcmLen → ∀ entry ∈ state.others, seq ≤ entry.2) ∧
      (pcm.length ≠ state.pcmLen → ∀ entry ∈ state.payloads, entry.2 < seq))
    ⟨fun both => ⟨both.1, both.2⟩, fun fits => ⟨fits.frame, fits.other⟩⟩

theorem aligned_counted {state : RtpBufferState} (aligned : Aligned state) (seq roc : Nat) :
    Aligned (counted state seq roc) :=
  ⟨aligned.whole, aligned.ends⟩

theorem aligned_queuePcm {state : RtpBufferState} {packet : Packet} {pcm : Pcm} {seq : Nat}
    (aligned : Aligned state) (samples : packet.samples = some pcm)
    (passes : state.transcode = false)
    (fits : ¬ Skipped state packet → Fits state seq pcm) :
    Aligned (queuePcm state packet pcm seq) := by
  have split := aligned_split aligned
  unfold queuePcm
  split
  · exact aligned
  · rename_i queued
    have fit := fits queued
    by_cases frame : pcm.length = state.pcmLen
    · simp only [if_pos (And.intro passes frame)]
      refine ⟨?_, state.others, ?_⟩
      · intro entry member
        rcases mem_push.mp member with rfl | before
        · exact ⟨pcm, samples, frame⟩
        · exact aligned.whole entry before
      · simp only
        rw [pieces_push _ _ samples, ← push_append _ (fit.frame frame), ← split]
    · simp only [if_neg fun both : state.transcode = false ∧ _ => frame both.2]
      refine ⟨aligned.whole, ?_⟩
      have above : ∀ entry ∈ pieces state.payloads, entry.2 < seq := by
        intro entry member
        obtain ⟨payload, inside, rfl⟩ := List.mem_map.mp member
        exact fit.other frame payload inside
      obtain ⟨start, shape⟩ := @push_before _ state.others _ ⟨packet.index, pcm⟩ _ above
      exact ⟨start, by rw [← shape, ← split]⟩

/-- The first entry popped is a whole frame, so it alone is what get returns. -/
theorem gather_frame {pcmLen fuel : Nat} (front : SeqQueue Piece) {piece : Piece} (seq : Nat)
    (whole : piece.pcm.length = pcmLen) :
    gather pcmLen (fuel + 1) (front ++ [(piece, seq)]) [] = (piece.pcm, front) := by
  unfold gather SeqQueue.pop
  rw [List.getLast?_append, List.dropLast_concat]
  exact if_pos whole

theorem adjust_queues (state : RtpBufferState) :
    (adjust state).pcms = state.pcms ∧ (adjust state).pcmLen = state.pcmLen ∧
      (adjust state).transcode = state.transcode := by
  obtain ⟨filled, size, times, adjusted⟩ := adjust_changes state
  rw [adjusted]
  exact ⟨rfl, rfl, rfl⟩

theorem samples_decoded {packet : Packet} {pcm : Pcm} (samples : packet.samples = some pcm) :
    packet.decoded = some pcm ∧ pcm ≠ [] := by
  obtain ⟨decoded, filled⟩ := Option.filter_eq_some_iff.mp samples
  refine ⟨decoded, fun empty => ?_⟩
  rw [empty] at filled
  cases filled

/-- A payload that get returns has the samples that it returns, and what is left is aligned. -/
theorem get_aligned {state : RtpBufferState} (aligned : Aligned state) :
    Aligned (get state).1 ∧ ∀ packet pcm, (get state).2 = (some packet, some pcm) →
      packet.decoded = some pcm := by
  unfold get
  split
  · exact ⟨aligned, by rintro packet pcm same; cases same⟩
  obtain ⟨pcms, pcmLen, _⟩ := adjust_queues
    { state with pcms := (gather state.pcmLen state.pcms.length state.pcms []).2 }
  rcases List.eq_nil_or_concat state.payloads with empty | ⟨front, ⟨payload, seq⟩, split⟩
  · simp only [SeqQueue.pop, empty]
    refine ⟨⟨by simp, _, (List.append_nil _).symm⟩, ?_⟩
    rintro packet pcm same
    cases same
  · rw [List.concat_eq_append] at split
    obtain ⟨samples, known, whole⟩ := aligned.whole (payload, seq)
      (by rw [split]; exact List.mem_append_right _ List.mem_cons_self)
    obtain ⟨decoded, filled⟩ := samples_decoded known
    have ends : state.pcms = (state.others ++ pieces front) ++ [(⟨payload.index, samples⟩, seq)] := by
      have queue := aligned_split aligned
      rw [split, pieces, List.map_append] at queue
      rw [queue, ← List.append_assoc, List.map_singleton]
      simp only [known, Option.getD_some]
      rfl
    have popped : gather state.pcmLen state.pcms.length state.pcms [] =
        (samples, state.others ++ pieces front) := by
      rw [ends, List.length_append]
      exact gather_frame _ seq whole
    have last : state.payloads.pop = (some (payload, seq), front) := by
      rw [split, SeqQueue.pop, List.getLast?_append, List.dropLast_concat]
      rfl
    rw [last]
    refine ⟨⟨?_, state.others, ?_⟩, ?_⟩
    · intro entry member
      simp only [pcmLen]
      exact aligned.whole entry (by rw [split]; exact List.mem_append_left _ member)
    · simp only [pcms]
      rw [popped]
    · intro packet pcm same
      obtain ⟨first, second⟩ := Prod.mk.inj same
      obtain rfl := Option.some.inj first
      rw [popped] at second
      unfold padded at second
      rw [if_neg (by simp [filled]), whole, Nat.sub_self, List.replicate_zero, List.append_nil] at second
      rw [decoded, second]

end Alignment

section Guarantee

/-- What has to hold before a step: a packet that will be queued fits. -/
def StepFits (mode : Arithmetic) (state : RtpBufferState) : Event → Prop
  | .add packet => ∀ counted ∈ countedIn mode state packet.sequence, ∀ pcm ∈ packet.samples,
      ¬ Skipped counted packet → Fits counted (extendedSeqIn mode counted packet) pcm
  | .get => True

/-- Each step of a run meets its condition. -/
def Fitting (mode : Arithmetic) : RtpBufferState → List Event → Prop
  | _, [] => True
  | state, .add packet :: rest => StepFits mode state (.add packet) ∧
      ∀ next ∈ addIn mode state packet, Fitting mode next rest
  | state, .get :: rest => StepFits mode state .get ∧ Fitting mode (get state).1 rest

instance (mode : Arithmetic) (state : RtpBufferState) :
    (event : Event) → Decidable (StepFits mode state event)
  | .add packet => inferInstanceAs (Decidable (∀ counted ∈ countedIn mode state packet.sequence,
      ∀ pcm ∈ packet.samples,
        ¬ Skipped counted packet → Fits counted (extendedSeqIn mode counted packet) pcm))
  | .get => isTrue trivial

instance decidableFitting (mode : Arithmetic) :
    (events : List Event) → (state : RtpBufferState) → Decidable (Fitting mode state events)
  | [], _ => isTrue trivial
  | .add packet :: rest, state =>
    have := fun next => decidableFitting mode rest next
    inferInstanceAs (Decidable (StepFits mode state (.add packet) ∧
      ∀ next ∈ addIn mode state packet, Fitting mode next rest))
  | .get :: rest, state =>
    have := decidableFitting mode rest (get state).1
    inferInstanceAs (Decidable (StepFits mode state .get ∧ Fitting mode (get state).1 rest))

theorem updateRoc_counts {state after : RtpBufferState} {seq : Nat}
    (done : updateRoc state seq = some after) : ∃ roc, after = counted state seq roc := by
  unfold updateRoc at done
  split at done
  · exact ⟨_, (Option.some.inj done).symm⟩
  split at done
  · exact ⟨_, (Option.some.inj done).symm⟩
  split at done
  · split at done
    · cases done
    · exact ⟨_, (Option.some.inj done).symm⟩
  split at done
  · exact ⟨_, (Option.some.inj done).symm⟩
  · exact ⟨_, (Option.some.inj done).symm⟩

theorem countedIn_counts {mode : Arithmetic} {state after : RtpBufferState} {seq : Nat}
    (done : countedIn mode state seq = some after) : ∃ roc, after = counted state seq roc := by
  unfold countedIn at done
  split at done
  · rename_i first known
    obtain rfl := Option.some.inj done
    exact updateRoc_counts known
  · cases done
  · exact ⟨_, (Option.some.inj done).symm⟩

theorem queuePcm_transcode (state : RtpBufferState) (packet : Packet) (pcm : Pcm) (seq : Nat) :
    (queuePcm state packet pcm seq).transcode = state.transcode := by
  unfold queuePcm
  split
  · rfl
  · rfl

theorem addIn_aligned {mode : Arithmetic} {state after : RtpBufferState} {packet : Packet}
    (aligned : Aligned state) (passes : state.transcode = false)
    (fits : StepFits mode state (.add packet)) (done : addIn mode state packet = some after) :
    Aligned after ∧ after.transcode = false := by
  obtain ⟨middle, known, rfl⟩ := Option.map_eq_some_iff.mp done
  obtain ⟨roc, rfl⟩ := countedIn_counts known
  have start := aligned_counted aligned packet.sequence roc
  cases samples : packet.samples with
  | none => exact ⟨start, passes⟩
  | some pcm =>
    refine ⟨aligned_queuePcm start samples passes (fits _ known pcm samples), ?_⟩
    rw [queuePcm_transcode]
    exact passes

theorem get_transcode (state : RtpBufferState) : (get state).1.transcode = state.transcode := by
  unfold get
  split
  · rfl
  · exact (adjust_queues
      { state with pcms := (gather state.pcmLen state.pcms.length state.pcms []).2 }).2.2

theorem run_aligned {mode : Arithmetic} {state : RtpBufferState} {events : List Event}
    (aligned : Aligned state) (passes : state.transcode = false)
    (fits : Fitting mode state events) {after : RtpBufferState}
    {outputs : List (Option Packet × Option Pcm)}
    (ran : runIn mode state events = some (after, outputs)) :
    ∀ packet pcm, (some packet, some pcm) ∈ outputs → packet.decoded = some pcm := by
  induction events generalizing state outputs with
  | nil =>
    obtain ⟨rfl, rfl⟩ := Prod.mk.inj (Option.some.inj ran)
    intro packet pcm member
    cases member
  | cons event rest ih =>
    cases event with
    | add packet =>
      obtain ⟨first, later⟩ := fits
      obtain ⟨next, added, ran⟩ := Option.bind_eq_some_iff.mp ran
      obtain ⟨kept, still⟩ := addIn_aligned aligned passes first added
      exact ih kept still (later next added) ran
    | get =>
      obtain ⟨kept, returned⟩ := get_aligned aligned
      obtain ⟨⟨last, gets⟩, rested, same⟩ := Option.map_eq_some_iff.mp ran
      obtain ⟨rfl, rfl⟩ := Prod.mk.inj same
      intro packet pcm member
      rcases List.mem_cons.mp member with this | later
      · exact returned packet pcm this.symm
      · exact ih kept ((get_transcode state).trans passes) fits.2 rested packet pcm later

/-- In a run whose packets fit, a payload and a frame that get returns together belong
    together, whether counters are checked or wrap. -/
theorem payload_matches_pcm (mode : Arithmetic) (pcmLen : Nat) (events : List Event)
    (fits : Fitting mode (new pcmLen false) events) (after : RtpBufferState)
    (outputs : List (Option Packet × Option Pcm))
    (ran : runIn mode (new pcmLen false) events = some (after, outputs)) :
    ∀ packet pcm, (some packet, some pcm) ∈ outputs → packet.decoded = some pcm :=
  run_aligned ⟨by simp [new], [], rfl⟩ rfl fits ran

/-- Packets of one frame of two samples each, and one of half a frame. -/
def frameOf (index : Int) (pcm : Pcm) : Packet := ⟨index, [], some pcm, true⟩

theorem payload_matches_reordered :
    Fitting .checked (new 2 false)
        [.add (frameOf 6 [3, 4]), .add (frameOf 5 [1, 2]), .get] ∧
      ∃ after, runIn .checked (new 2 false)
          [.add (frameOf 6 [3, 4]), .add (frameOf 5 [1, 2]), .get] =
            some (after, [(some (frameOf 5 [1, 2]), some [1, 2])]) ∧
        ∀ packet pcm, (some packet, some pcm) ∈ [(some (frameOf 5 [1, 2]), some ([1, 2] : Pcm))] →
          packet.decoded = some pcm :=
  ⟨by decide +kernel, _, rfl, payload_matches_pcm .checked 2
    [.add (frameOf 6 [3, 4]), .add (frameOf 5 [1, 2]), .get] (by decide +kernel) _ _ rfl⟩

/-- Half a frame before a frame: its samples and half of the next ones come with the
    payload of the next. -/
theorem half_frame_shifts : ∃ events after outputs packet pcm,
    runIn .checked (new 2 false) events = some (after, outputs) ∧
      (some packet, some pcm) ∈ outputs ∧ packet.decoded ≠ some pcm :=
  ⟨[.add (frameOf 0 [7]), .add (frameOf 1 [1, 2]), .get], _, _, frameOf 1 [1, 2], [7, 1], rfl,
    List.mem_cons_self, by decide⟩

end Guarantee

end JitterBuffer
