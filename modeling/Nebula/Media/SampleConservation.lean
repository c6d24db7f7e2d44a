import Nebula.Media.JitterOrder
import Nebula.Media.PassThrough

/- The samples that get takes from the queue: none is lost or doubled, a frame is filled with
   silence where the queue ran empty only, and the size of the buffer keeps its bounds. -/
namespace JitterBuffer

section Samples

/-- The samples of a queue, from the lowest number on. -/
def samples (queue : SeqQueue Piece) : Pcm := queue.reverse.flatMap fun entry => entry.1.pcm

/-- The frames that get returned, one after the other. -/
def frames (outputs : List (Option Packet × Option Pcm)) : Pcm :=
  outputs.flatMap fun output => output.2.getD []

theorem samples_concat (queue : SeqQueue Piece) (piece : Piece) (seq : Nat) :
    samples (queue ++ [(piece, seq)]) = piece.pcm ++ samples queue := by
  rw [samples, List.reverse_append, List.flatMap_append]
  simp [samples]

/-- What is pushed back under the lowest number comes out next. -/
theorem push_back {queue : SeqQueue Piece} {piece : Piece} {seq : Nat}
    (sorted : SeqQueue.Sorted (queue ++ [(piece, seq)])) (rest : Piece) :
    queue.push rest seq = queue ++ [(rest, seq)] := by
  have below : ∀ entry ∈ queue, seq ≤ entry.2 := fun entry member =>
    (List.pairwise_append.mp sorted).2.2 entry member (piece, seq) List.mem_cons_self
  have shape := @push_append _ queue [] rest seq below
  rwa [List.append_nil] at shape

end Samples

section Gathering

/-- One turn of the loop, by the entry that comes out. -/
theorem gather_concat (pcmLen fuel : Nat) (queue : SeqQueue Piece) (piece : Piece) (seq : Nat)
    (pcm : Pcm) : gather pcmLen (fuel + 1) (queue ++ [(piece, seq)]) pcm =
      if piece.pcm.length + pcm.length = pcmLen then (pcm ++ piece.pcm, queue)
      else if pcmLen < piece.pcm.length + pcm.length then
        (pcm ++ piece.pcm.take (pcmLen - pcm.length),
          queue.push { piece with pcm := piece.pcm.drop (pcmLen - pcm.length) } seq)
      else gather pcmLen fuel queue (pcm ++ piece.pcm) := by
  conv_lhs => unfold gather SeqQueue.pop
  rw [List.getLast?_append, List.dropLast_concat]
  rfl

/-- The loop conserves samples: it stops with a full frame, or with none left in the queue. -/
theorem gather_conserves {pcmLen fuel : Nat} {queue : SeqQueue Piece} {pcm : Pcm}
    (enough : queue.length ≤ fuel) (room : pcm.length ≤ pcmLen) (sorted : queue.Sorted) :
    (gather pcmLen fuel queue pcm).1 ++ samples (gather pcmLen fuel queue pcm).2 =
        pcm ++ samples queue ∧
      ((gather pcmLen fuel queue pcm).1.length < pcmLen →
        (gather pcmLen fuel queue pcm).2 = []) := by
  induction fuel generalizing queue pcm with
  | zero =>
    obtain rfl := List.length_eq_zero_iff.mp (Nat.le_zero.mp enough)
    exact ⟨rfl, fun _ => rfl⟩
  | succ fuel ih =>
    rcases List.eq_nil_or_concat queue with rfl | ⟨front, ⟨piece, seq⟩, rfl⟩
    · exact ⟨rfl, fun _ => rfl⟩
    · rw [List.concat_eq_append] at enough sorted ⊢
      rw [List.length_append, List.length_singleton] at enough
      rw [gather_concat, samples_concat]
      split
      · rename_i full
        refine ⟨List.append_assoc .., fun short => ?_⟩
        rw [List.length_append] at short
        omega
      split
      · rename_i longer
        constructor
        · rw [push_back sorted, samples_concat, List.append_assoc]
          dsimp only
          rw [← List.append_assoc (piece.pcm.take _), List.take_append_drop]
        · intro short
          rw [List.length_append, List.length_take] at short
          omega
      · rename_i shorter
        have front_sorted : SeqQueue.Sorted front := (List.pairwise_append.mp sorted).1
        obtain ⟨kept, ends⟩ := @ih front (pcm ++ piece.pcm) (by omega)
          (by rw [List.length_append]; omega) front_sorted
        exact ⟨kept.trans (List.append_assoc ..), ends⟩

theorem gather_length {pcmLen fuel : Nat} {queue : SeqQueue Piece} {pcm : Pcm}
    (room : pcm.length ≤ pcmLen) : (gather pcmLen fuel queue pcm).1.length ≤ pcmLen := by
  induction fuel generalizing queue pcm with
  | zero => exact room
  | succ fuel ih =>
    unfold gather
    cases queue.pop with
    | mk popped rest =>
      cases popped with
      | none => exact room
      | some entry =>
        obtain ⟨piece, seq⟩ := entry
        simp only
        split
        · rw [List.length_append]
          omega
        split
        · rw [List.length_append, List.length_take]
          omega
        · refine ih ?_
          rw [List.length_append]
          omega

end Gathering

section Frames

theorem padded_length {pcmLen : Nat} {pcm frame : Pcm} (room : pcm.length ≤ pcmLen)
    (whole : padded pcmLen pcm = some frame) : frame.length = pcmLen := by
  unfold padded at whole
  split at whole
  · cases whole
  · obtain rfl := Option.some.inj whole
    rw [List.length_append, List.length_replicate]
    omega

theorem get_length {state : RtpBufferState} {pcm : Pcm} (returned : (get state).2.2 = some pcm) :
    pcm.length = state.pcmLen := by
  unfold get at returned
  split at returned
  · cases returned
  · exact padded_length (gather_length (Nat.zero_le _)) returned

/-- What a frame adds to the samples gathered: nothing, or silence that fills it. -/
theorem padded_eq (pcmLen : Nat) (pcm : Pcm) : ∃ missing,
    (padded pcmLen pcm).getD [] = pcm ++ List.replicate missing 0 ∧
      (0 < missing → pcm ≠ [] ∧ pcm.length < pcmLen) := by
  unfold padded
  split
  · rename_i empty
    obtain rfl := List.isEmpty_iff.mp empty
    exact ⟨0, rfl, fun more => absurd more (Nat.lt_irrefl 0)⟩
  · rename_i some_
    refine ⟨pcmLen - pcm.length, rfl, fun more => ⟨?_, by omega⟩⟩
    rintro rfl
    exact some_ rfl

/-- Get conserves samples, and adds silence where it leaves the queue empty only. -/
theorem get_conserves {state : RtpBufferState} (sorted : state.pcms.Sorted) : ∃ missing,
    (get state).2.2.getD [] ++ samples (get state).1.pcms =
        samples state.pcms ++ List.replicate missing 0 ∧
      (0 < missing → state.pcms ≠ [] ∧ (get state).1.pcms = []) ∧
      (get state).1.pcms.Sorted ∧ (state.pcms = [] → (get state).1.pcms = []) := by
  unfold get
  split
  · exact ⟨0, by simp, fun more => absurd more (Nat.lt_irrefl 0), sorted, id⟩
  · obtain ⟨kept, ends⟩ := @gather_conserves state.pcmLen _ state.pcms [] (Nat.le_refl _)
      (Nat.zero_le _) sorted
    have sorted := @gather_sorted state.pcmLen state.pcms.length _ [] sorted
    have queue := (adjust_queues
      { state with pcms := (gather state.pcmLen state.pcms.length state.pcms []).2 }).1
    generalize found : gather state.pcmLen state.pcms.length state.pcms [] = gathered at *
    obtain ⟨missing, filled, short⟩ := padded_eq state.pcmLen gathered.1
    dsimp only
    rw [queue, filled]
    dsimp only
    refine ⟨missing, ?_, fun more => ?_, sorted, fun empty => ?_⟩
    · rcases Nat.eq_zero_or_pos missing with rfl | more
      · rw [List.replicate_zero, List.append_nil, List.append_nil]
        exact kept
      · rw [ends (short more).2] at kept ⊢
        have whole : gathered.1 = samples state.pcms := (List.append_nil _).symm.trans kept
        rw [whole]
        exact List.append_nil _
    · obtain ⟨some_, less⟩ := short more
      refine ⟨fun empty => some_ ?_, ends less⟩
      rw [empty] at kept
      exact (List.append_eq_nil_iff.mp kept).1
    · rw [empty] at found
      rw [← found]
      rfl

end Frames

section Draining

/-- Any number of calls of get, with nothing added between them. -/
theorem drain_conserves (mode : Arithmetic) (count : Nat) {state : RtpBufferState}
    (sorted : state.pcms.Sorted) : ∃ after outputs missing,
    runIn mode state (List.replicate count .get) = some (after, outputs) ∧
      frames outputs ++ samples after.pcms = samples state.pcms ++ List.replicate missing 0 ∧
      (0 < missing → state.pcms ≠ [] ∧ after.pcms = []) ∧
      (state.pcms = [] → after.pcms = []) := by
  induction count generalizing state with
  | zero =>
    have nothing : frames [] ++ samples state.pcms = samples state.pcms ++ [] := by simp [frames]
    exact ⟨state, [], 0, rfl, nothing, fun more => absurd more (Nat.lt_irrefl 0), id⟩
  | succ count ih =>
    obtain ⟨missing, kept, silence, sorted, empty⟩ := get_conserves sorted
    obtain ⟨after, outputs, later, ran, rest, ends, still⟩ := ih sorted
    refine ⟨after, (get state).2 :: outputs, missing + later, ?_, ?_, fun more => ?_,
      fun none_ => still (empty none_)⟩
    · rw [List.replicate_succ, runIn, ran]
      rfl
    · calc frames ((get state).2 :: outputs) ++ samples after.pcms
        _ = (get state).2.2.getD [] ++ (frames outputs ++ samples after.pcms) :=
          List.append_assoc ..
        _ = ((get state).2.2.getD [] ++ samples (get state).1.pcms) ++ List.replicate later 0 := by
          rw [rest, List.append_assoc]
        _ = samples state.pcms ++ List.replicate (missing + later) 0 := by
          rw [kept, List.append_assoc, List.replicate_append_replicate]
    · rcases Nat.eq_zero_or_pos missing with none_ | first
      · have more : 0 < later := by omega
        exact ⟨fun none_ => (ends more).1 (empty none_), (ends more).2⟩
      · exact ⟨(silence first).1, still (silence first).2⟩

end Draining

section Bounds

/-- Numbers ascend in the queue, and the size of the buffer is within its bounds. -/
structure Bounded (state : RtpBufferState) : Prop where
  sorted : state.pcms.Sorted
  lower : MIN_JITTER_BUFFER_SIZE ≤ state.jitterBufferSize
  upper : state.jitterBufferSize ≤ MAX_JITTER_BUFFER_SIZE

theorem adjust_bounded {state : RtpBufferState} (bounded : Bounded state) :
    Bounded (adjust state) := by
  obtain ⟨sorted, lower, upper⟩ := bounded
  unfold adjust
  split
  · refine ⟨sorted, ?_, ?_⟩
    · dsimp only
      split
      · omega
      · exact lower
    · dsimp only
      split
      · omega
      · exact upper
  split
  · split
    · split
      · exact ⟨sorted, by dsimp only; omega, by dsimp only; omega⟩
      · exact ⟨sorted, lower, upper⟩
    · exact ⟨sorted, lower, upper⟩
  · exact ⟨sorted, lower, upper⟩

theorem get_bounded {state : RtpBufferState} (bounded : Bounded state) : Bounded (get state).1 := by
  unfold get
  split
  · exact bounded
  · have left := @adjust_bounded
      { state with pcms := (gather state.pcmLen state.pcms.length state.pcms []).2 }
      ⟨gather_sorted bounded.sorted, bounded.lower, bounded.upper⟩
    exact ⟨left.sorted, left.lower, left.upper⟩

theorem addIn_bounded {mode : Arithmetic} {state after : RtpBufferState} {packet : Packet}
    (bounded : Bounded state) (added : addIn mode state packet = some after) : Bounded after := by
  obtain ⟨middle, known, rfl⟩ := Option.map_eq_some_iff.mp added
  obtain ⟨roc, rfl⟩ := countedIn_counts known
  cases packet.samples with
  | none => exact ⟨bounded.sorted, bounded.lower, bounded.upper⟩
  | some pcm =>
    unfold queuePcm
    dsimp only
    split
    · exact ⟨bounded.sorted, bounded.lower, bounded.upper⟩
    · exact ⟨push_sorted _ _ bounded.sorted, bounded.lower, bounded.upper⟩

theorem run_bounded {mode : Arithmetic} {state after : RtpBufferState} {events : List Event}
    {outputs : List (Option Packet × Option Pcm)} (bounded : Bounded state)
    (ran : runIn mode state events = some (after, outputs)) : Bounded after := by
  induction events generalizing state outputs with
  | nil =>
    obtain ⟨rfl, _⟩ := Prod.mk.inj (Option.some.inj ran)
    exact bounded
  | cons event rest ih =>
    cases event with
    | add packet =>
      obtain ⟨next, added, ran⟩ := Option.bind_eq_some_iff.mp ran
      exact ih (addIn_bounded bounded added) ran
    | get =>
      obtain ⟨last, rested, same⟩ := Option.map_eq_some_iff.mp ran
      obtain ⟨rfl, _⟩ := Prod.mk.inj same
      exact ih (get_bounded bounded) rested

/-- A frame has the samples that it should; calls of get return what was queued in ascending
    order, with silence at the end where nothing is left; and the buffer stays in its bounds. -/
theorem samples_conserved (mode : Arithmetic) :
    (∀ state pcm, (get state).2.2 = some pcm → pcm.length = state.pcmLen) ∧
    (∀ (state : RtpBufferState) (count : Nat), state.pcms.Sorted → ∃ after outputs missing,
      runIn mode state (List.replicate count .get) = some (after, outputs) ∧
        frames outputs ++ samples after.pcms = samples state.pcms ++ List.replicate missing 0 ∧
        (0 < missing → state.pcms ≠ [] ∧ after.pcms = [])) ∧
    ∀ pcmLen transcode events after outputs,
      runIn mode (new pcmLen transcode) events = some (after, outputs) →
        after.pcms.Sorted ∧ 2 ≤ after.jitterBufferSize ∧ after.jitterBufferSize ≤ 10 := by
  refine ⟨fun state pcm returned => get_length returned, fun state count sorted => ?_, ?_⟩
  · obtain ⟨after, outputs, missing, ran, kept, ends, _⟩ := drain_conserves mode count sorted
    exact ⟨after, outputs, missing, ran, kept, ends⟩
  · intro pcmLen transcode events after outputs ran
    have start : Bounded (new pcmLen transcode) :=
      ⟨List.Pairwise.nil, Nat.le_refl 2, Nat.le_add_right 2 8⟩
    obtain ⟨sorted, lower, upper⟩ := run_bounded start ran
    exact ⟨sorted, lower, upper⟩

theorem samples_conserved_drained :
    let state : RtpBufferState :=
      { pcms := [(⟨1, [3]⟩, 1), (⟨0, [1, 2]⟩, 0)], jitterBufferFilled := true, pcmLen := 2,
        transcode := true }
    ∃ after outputs missing,
      runIn .checked state (List.replicate 2 .get) = some (after, outputs) ∧
        frames outputs ++ samples after.pcms = [1, 2, 3] ++ List.replicate missing 0 ∧
        (0 < missing → state.pcms ≠ [] ∧ after.pcms = []) :=
  (samples_conserved .checked).2.1 _ 2 (by simp [SeqQueue.Sorted])

end Bounds

end JitterBuffer
