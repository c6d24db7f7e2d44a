import Nebula.Media.JitterBuffer
import Mathlib.Data.List.Chain

/- The order in which queued packets come out, by the indices that their sequence numbers
   are the low bits of. -/
namespace JitterBuffer

section Indices

def addedPackets (events : List Event) : List Packet :=
  events.filterMap fun event => match event with
    | .add packet => some packet
    | .get => none

/-- Each packet is within a hundred of the one before it. -/
def NearOrder (events : List Event) : Prop :=
  ((addedPackets events).map Packet.index).IsChain fun a b => a - 100 ≤ b ∧ b ≤ a + 100

/-- The number for an index, with the rollovers counted from the cycle that a stream
    starts in: the source counts 65535 for each, one too few. -/
def numberFor (cycle index : Int) : Int := index % 65536 + 65535 * (index / 65536 - cycle)

theorem sequence_toInt (packet : Packet) : (packet.sequence : Int) = packet.index % 65536 := by
  unfold Packet.sequence
  omega

/-- Numbers do not descend; they are equal on the two sides of a rollover only. -/
theorem numberFor_lt {cycle a b : Int} (before : a < b) :
    numberFor cycle a < numberFor cycle b ∨
      (numberFor cycle a = numberFor cycle b ∧ a % 65536 = 65535 ∧ b = a + 1) := by
  unfold numberFor
  omega

theorem numberFor_rollover {cycle a : Int} (last : a % 65536 = 65535) :
    numberFor cycle a = numberFor cycle (a + 1) := by
  unfold numberFor
  omega

end Indices

section Tracking

/-- The rollovers counted are those since the first cycle, and the last packet is known. -/
def Tracks (cycle : Int) (state : RtpBufferState) : Option Int → Prop
  | none => state.rocHasProcessed = false ∧ state.roc = 0
  | some index => state.rocHasProcessed = true ∧ (state.lastSeq : Int) = index % 65536 ∧
      (state.roc : Int) = index / 65536 - cycle

/-- A packet is in the first cycle if it is the first, and near the last one otherwise. -/
def Close (cycle : Int) (last : Option Int) (index : Int) : Prop :=
  match last with
  | none => index / 65536 = cycle
  | some before => before - 100 ≤ index ∧ index ≤ before + 100

/-- What update_roc makes of a close packet: it is right, or the packet is below the first
    cycle and there is nothing. -/
theorem updateRoc_close {cycle : Int} {last : Option Int} {state : RtpBufferState}
    {packet : Packet} (tracks : Tracks cycle state last) (close : Close cycle last packet.index) :
    (packet.index / 65536 < cycle ∧ updateRoc state packet.sequence = none) ∨
      (cycle ≤ packet.index / 65536 ∧ updateRoc state packet.sequence =
        some (counted state packet.sequence (packet.index / 65536 - cycle).toNat)) := by
  have sequence := sequence_toInt packet
  have disorder : MAX_ROCDISORDER = 100 := rfl
  have largest : MAX_SEQUENCE_NUMBER = 65535 := rfl
  have right : ∀ value : Nat, (value : Int) = packet.index / 65536 - cycle →
      cycle ≤ packet.index / 65536 ∧ some (counted state packet.sequence value) =
        some (counted state packet.sequence (packet.index / 65536 - cycle).toNat) := by
    intro value same
    have number : value = (packet.index / 65536 - cycle).toNat := by omega
    exact ⟨by omega, by rw [number]⟩
  unfold updateRoc
  cases last with
  | none =>
    obtain ⟨fresh, zero⟩ := tracks
    have first : packet.index / 65536 = cycle := close
    rw [if_pos (by rw [fresh]; rfl)]
    exact Or.inr (right _ (by omega))
  | some index =>
    obtain ⟨processed, lastSeq, roc⟩ := tracks
    obtain ⟨low, high⟩ : index - 100 ≤ packet.index ∧ packet.index ≤ index + 100 := close
    rw [if_neg (by rw [processed]; decide)]
    split
    · refine Or.inr (right _ ?_)
      split
      · omega
      · omega
    split
    · split
      · exact Or.inl ⟨by omega, rfl⟩
      · exact Or.inr (right _ (by omega))
    split
    · exact Or.inr (right _ (by omega))
    · exact Or.inr (right _ (by omega))

theorem queuePcm_counters (state : RtpBufferState) (packet : Packet) (pcm : Pcm) (seq : Nat) :
    (queuePcm state packet pcm seq).roc = state.roc ∧
      (queuePcm state packet pcm seq).lastSeq = state.lastSeq ∧
        (queuePcm state packet pcm seq).rocHasProcessed = state.rocHasProcessed := by
  unfold queuePcm
  split
  · exact ⟨rfl, rfl, rfl⟩
  · exact ⟨rfl, rfl, rfl⟩

theorem adjust_counters (state : RtpBufferState) :
    (adjust state).roc = state.roc ∧ (adjust state).lastSeq = state.lastSeq ∧
      (adjust state).rocHasProcessed = state.rocHasProcessed ∧ (adjust state).pcms = state.pcms := by
  obtain ⟨filled, size, times, adjusted⟩ := adjust_changes state
  rw [adjusted]
  exact ⟨rfl, rfl, rfl, rfl⟩

theorem get_tracks {cycle : Int} {last : Option Int} {state : RtpBufferState}
    (tracks : Tracks cycle state last) : Tracks cycle (get state).1 last := by
  have same : (get state).1.roc = state.roc ∧ (get state).1.lastSeq = state.lastSeq ∧
      (get state).1.rocHasProcessed = state.rocHasProcessed := by
    unfold get
    split
    · exact ⟨rfl, rfl, rfl⟩
    · obtain ⟨roc, lastSeq, processed, _⟩ := adjust_counters
        { state with pcms := (gather state.pcmLen state.pcms.length state.pcms []).2 }
      exact ⟨roc, lastSeq, processed⟩
  obtain ⟨roc, lastSeq, processed⟩ := same
  cases last with
  | none => exact ⟨processed.trans tracks.1, roc.trans tracks.2⟩
  | some index =>
    obtain ⟨known, before, count⟩ := tracks
    exact ⟨processed.trans known, by rw [lastSeq]; exact before, by rw [roc]; exact count⟩

/-- The state that add leaves, and the number it gives, for a close packet. -/
theorem add_close {cycle : Int} {last : Option Int} {state : RtpBufferState} {packet : Packet}
    (tracks : Tracks cycle state last) (close : Close cycle last packet.index) :
    (packet.index / 65536 < cycle ∧ add state packet = none) ∨
      (cycle ≤ packet.index / 65536 ∧ ∃ after, add state packet = some after ∧
        Tracks cycle after (some packet.index) ∧
          (extendedSeq after packet : Int) = numberFor cycle packet.index ∧
            (after = counted state packet.sequence (packet.index / 65536 - cycle).toNat ∨
              ∃ pcm, packet.samples = some pcm ∧ after = queuePcm
                (counted state packet.sequence (packet.index / 65536 - cycle).toNat) packet pcm
                  (extendedSeq after packet))) := by
  rcases updateRoc_close tracks close with ⟨below, none⟩ | ⟨within, some⟩
  · refine Or.inl ⟨below, ?_⟩
    unfold add
    rw [none]
    rfl
  · refine Or.inr ⟨within, ?_⟩
    have sequence := sequence_toInt packet
    have largest : MAX_SEQUENCE_NUMBER = 65535 := rfl
    have follows : ∀ after : RtpBufferState,
        after.roc = (packet.index / 65536 - cycle).toNat → after.lastSeq = packet.sequence →
        after.rocHasProcessed = true → Tracks cycle after (Option.some packet.index) ∧
          (extendedSeq after packet : Int) = numberFor cycle packet.index := by
      intro after roc lastSeq processed
      refine ⟨⟨processed, by rw [lastSeq]; exact sequence, by rw [roc]; omega⟩, ?_⟩
      unfold extendedSeq numberFor
      rw [roc, largest]
      omega
    cases samples : packet.samples with
    | none =>
      obtain ⟨tracked, number⟩ := follows
        (counted state packet.sequence (packet.index / 65536 - cycle).toNat) rfl rfl rfl
      exact ⟨_, by unfold add; rw [some, samples]; rfl, tracked, number, Or.inl rfl⟩
    | some pcm =>
      have given : add state packet = Option.some (queuePcm
          (counted state packet.sequence (packet.index / 65536 - cycle).toNat) packet pcm
            (extendedSeq (counted state packet.sequence (packet.index / 65536 - cycle).toNat)
              packet)) := by
        unfold add
        rw [some, samples]
        rfl
      obtain ⟨roc, lastSeq, processed⟩ := queuePcm_counters
        (counted state packet.sequence (packet.index / 65536 - cycle).toNat) packet pcm
          (extendedSeq (counted state packet.sequence (packet.index / 65536 - cycle).toNat) packet)
      obtain ⟨tracked, number⟩ := follows _ roc lastSeq processed
      have same := congrArg (packet.sequence + MAX_SEQUENCE_NUMBER * ·) roc
      exact ⟨_, given, tracked, number, Or.inr ⟨pcm, rfl,
        congrArg (queuePcm _ packet pcm) same.symm⟩⟩

end Tracking

section Queues

/-- What is queued has its number, comes from a packet that was numbered, and is sorted. -/
structure Queued (cycle : Int) (seen : Int → Prop) (state : RtpBufferState) : Prop where
  payloads : ∀ entry ∈ state.payloads,
    (entry.2 : Int) = numberFor cycle entry.1.index ∧ seen entry.1.index
  pcms : ∀ entry ∈ state.pcms,
    (entry.2 : Int) = numberFor cycle entry.1.index ∧ seen entry.1.index
  payloadsSorted : state.payloads.Sorted
  pcmsSorted : state.pcms.Sorted

theorem queued_counted {cycle : Int} {seen : Int → Prop} {state : RtpBufferState}
    (queued : Queued cycle seen state) (seq roc : Nat) :
    Queued cycle seen (counted state seq roc) :=
  ⟨queued.payloads, queued.pcms, queued.payloadsSorted, queued.pcmsSorted⟩

theorem queued_queuePcm {cycle : Int} {seen : Int → Prop} {state : RtpBufferState}
    (queued : Queued cycle seen state) {packet : Packet} (pcm : Pcm) {seq : Nat}
    (number : (seq : Int) = numberFor cycle packet.index)
    (known : seen packet.index) : Queued cycle seen (queuePcm state packet pcm seq) := by
  unfold queuePcm
  split
  · exact queued
  · refine ⟨?_, ?_, ?_, push_sorted _ _ queued.pcmsSorted⟩
    · intro entry member
      simp only at member
      split at member
      · rcases mem_push.mp member with rfl | before
        · exact ⟨number, known⟩
        · exact queued.payloads entry before
      · exact queued.payloads entry member
    · intro entry member
      rcases mem_push.mp member with rfl | before
      · exact ⟨number, known⟩
      · exact queued.pcms entry before
    · simp only
      split
      · exact push_sorted _ _ queued.payloadsSorted
      · exact queued.payloadsSorted

/-- What get leaves of the queue was there before, perhaps as a longer piece. -/
theorem mem_gather {pcmLen fuel : Nat} {queue : SeqQueue Piece} {pcm : Pcm} :
    ∀ entry ∈ (gather pcmLen fuel queue pcm).2,
      ∃ before ∈ queue, before.2 = entry.2 ∧ before.1.index = entry.1.index := by
  induction fuel generalizing queue pcm with
  | zero => exact fun entry member => ⟨entry, member, rfl, rfl⟩
  | succ fuel ih =>
    intro entry member
    unfold gather SeqQueue.pop at member
    cases last : queue.getLast? with
    | none =>
      rw [last] at member
      exact ⟨entry, member, rfl, rfl⟩
    | some found =>
      obtain ⟨piece, seq⟩ := found
      have there : (piece, seq) ∈ queue := List.mem_of_getLast? last
      rw [last] at member
      simp only at member
      split at member
      · exact ⟨entry, List.dropLast_subset _ member, rfl, rfl⟩
      split at member
      · rcases mem_push.mp member with rfl | before
        · exact ⟨(piece, seq), there, rfl, rfl⟩
        · exact ⟨entry, List.dropLast_subset _ before, rfl, rfl⟩
      · obtain ⟨before, inside, same⟩ := ih entry member
        exact ⟨before, List.dropLast_subset _ inside, same⟩

theorem gather_sorted {pcmLen fuel : Nat} {queue : SeqQueue Piece} {pcm : Pcm}
    (sorted : queue.Sorted) : (gather pcmLen fuel queue pcm).2.Sorted := by
  induction fuel generalizing queue pcm with
  | zero => exact sorted
  | succ fuel ih =>
    unfold gather SeqQueue.pop
    cases queue.getLast? with
    | none => exact sorted
    | some found =>
      obtain ⟨piece, seq⟩ := found
      simp only
      split
      · exact dropLast_sorted sorted
      split
      · exact push_sorted _ _ (dropLast_sorted sorted)
      · exact ih (dropLast_sorted sorted)

theorem queued_get {cycle : Int} {seen : Int → Prop} {state : RtpBufferState}
    (queued : Queued cycle seen state) : Queued cycle seen (get state).1 := by
  unfold get
  split
  · exact queued
  · have pcms := (adjust_counters
      { state with pcms := (gather state.pcmLen state.pcms.length state.pcms []).2 }).2.2.2
    refine ⟨?_, ?_, dropLast_sorted queued.payloadsSorted, ?_⟩
    · exact fun entry member => queued.payloads entry (List.dropLast_subset _ member)
    · intro entry member
      simp only [pcms] at member
      obtain ⟨before, inside, seq, index⟩ := mem_gather entry member
      rw [← seq, ← index]
      exact queued.pcms before inside
    · simp only [pcms]
      exact gather_sorted queued.pcmsSorted

end Queues

section Order

def Closes (cycle : Int) : Option Int → List Int → Prop
  | _, [] => True
  | last, index :: rest => Close cycle last index ∧ Closes cycle (some index) rest

theorem closes_of_chain {cycle : Int} {last : Option Int} {index : Int} {rest : List Int}
    (first : Close cycle last index)
    (chain : (index :: rest).IsChain fun a b => a - 100 ≤ b ∧ b ≤ a + 100) :
    Closes cycle last (index :: rest) := by
  induction rest generalizing last index with
  | nil => exact ⟨first, trivial⟩
  | cons next rest ih =>
    obtain ⟨near, later⟩ := List.isChain_cons_cons.mp chain
    exact ⟨first, ih near later⟩

theorem numbered_shown {state : RtpBufferState} {packet other : Packet} {number : Nat} :
    Output.numbered other number = shown state packet ↔
      other = packet ∧ packet.samples.isSome ∧ number = extendedSeq state packet := by
  unfold shown
  split
  · rename_i samples
    rw [Output.numbered.injEq, and_iff_right samples]
  · rename_i silent
    exact iff_of_false nofun fun both => silent both.2.1

/-- A run of close packets goes on as long as none is below the first cycle; then each
    number is the one for its index and the queues hold what was numbered. -/
theorem run_close {cycle : Int} (events : List Event) {last : Option Int} {state : RtpBufferState}
    (tracks : Tracks cycle state last)
    (closes : Closes cycle last ((addedPackets events).map Packet.index)) :
    ((∃ packet ∈ addedPackets events, packet.index / 65536 < cycle) ∧ run state events = none) ∨
      ((∀ packet ∈ addedPackets events, cycle ≤ packet.index / 65536) ∧
        ∃ after outputs, run state events = some (after, outputs) ∧
          (∀ packet number, Output.numbered packet number ∈ outputs ↔
            packet ∈ addedPackets events ∧ packet.samples.isSome ∧
              (number : Int) = numberFor cycle packet.index) ∧
          ∀ seen : Int → Prop,
            (∀ packet ∈ addedPackets events, packet.samples.isSome → seen packet.index) →
              Queued cycle seen state → Queued cycle seen after) := by
  induction events generalizing last state with
  | nil => exact Or.inr ⟨by simp [addedPackets], state, [], rfl, by simp [addedPackets],
      fun seen _ queued => queued⟩
  | cons event events ih =>
    cases event with
    | get =>
      have same : addedPackets (.get :: events) = addedPackets events := rfl
      rw [same] at closes ⊢
      have stepped : run state (.get :: events) = (run (get state).1 events).map fun done =>
          (done.1, .frame (get state).2.1 (get state).2.2 :: done.2) := rfl
      rcases ih (get_tracks tracks) closes with ⟨below, none⟩ |
        ⟨within, after, outputs, ran, numbers, kept⟩
      · exact Or.inl ⟨below, by rw [stepped, none]; rfl⟩
      · refine Or.inr ⟨within, after, _, by rw [stepped, ran]; rfl, ?_, ?_⟩
        · intro packet number
          rw [← numbers]
          simp
        · exact fun seen known queued => kept seen known (queued_get queued)
    | add packet =>
      have split : addedPackets (.add packet :: events) = packet :: addedPackets events := rfl
      rw [split] at closes ⊢
      obtain ⟨close, later⟩ := closes
      have stepped : run state (.add packet :: events) = (add state packet).bind fun next =>
          (run next events).map fun done => (done.1, shown next packet :: done.2) := by
        show ((add state packet).map _).bind _ = _
        cases add state packet with
        | none => rfl
        | some next => rfl
      rcases add_close tracks close with ⟨below, none⟩ |
        ⟨within, next, added, tracked, number, made⟩
      · refine Or.inl ⟨⟨packet, List.mem_cons_self, below⟩, ?_⟩
        rw [stepped, none]
        rfl
      · rw [stepped, added, Option.bind_some]
        rcases ih tracked later with ⟨⟨other, inside, below⟩, none⟩ |
          ⟨others, after, outputs, ran, numbers, kept⟩
        · refine Or.inl ⟨⟨other, List.mem_cons_of_mem _ inside, below⟩, ?_⟩
          rw [none]
          rfl
        · refine Or.inr ⟨List.forall_mem_cons.mpr ⟨within, others⟩, after, _,
            by rw [ran]; rfl, ?_, ?_⟩
          · intro shownPacket shownNumber
            rw [List.mem_cons, List.mem_cons, numbers, numbered_shown]
            constructor
            · rintro (⟨rfl, samples, same⟩ | ⟨inside, rest⟩)
              · exact ⟨Or.inl rfl, samples, by rw [same, number]⟩
              · exact ⟨Or.inr inside, rest⟩
            · rintro ⟨rfl | inside, samples, value⟩
              · exact Or.inl ⟨rfl, samples, by omega⟩
              · exact Or.inr ⟨inside, samples, value⟩
          · intro seen known queued
            refine kept seen (fun other inside => known other (List.mem_cons_of_mem _ inside)) ?_
            rcases made with same | ⟨pcm, samples, same⟩
            · rw [same]
              exact queued_counted queued _ _
            · rw [same]
              exact queued_queuePcm (queued_counted queued _ _) pcm number
                (known packet List.mem_cons_self (by rw [samples]; rfl))

/-- Whichever two packets are queued, the one with the lower index comes out first. -/
structure PopsInOrder (state : RtpBufferState) : Prop where
  payloads : state.payloads.Pairwise fun a b => b.1.index ≤ a.1.index
  pcms : state.pcms.Pairwise fun a b => b.1.index ≤ a.1.index

/-- The rollover counter is never decremented below zero, numbers ascend with the indices,
    and in every state reached the queues pop in the order of the indices. -/
structure InOrder (pcmLen : Nat) (transcode : Bool) (events : List Event) : Prop where
  ran : (run (new pcmLen transcode) events).isSome
  ascending : ∀ state outputs, run (new pcmLen transcode) events = some (state, outputs) →
    ∀ packet number other otherNumber, .numbered packet number ∈ outputs →
      .numbered other otherNumber ∈ outputs → packet.index < other.index → number < otherNumber
  popped : ∀ front, front <+: events → ∀ state outputs,
    run (new pcmLen transcode) front = some (state, outputs) → PopsInOrder state

/-- No packet is below the cycle of the first, and no two that are numbered stand on the
    two sides of a rollover. -/
structure WithoutRollover (events : List Event) : Prop where
  above : ∀ first ∈ (addedPackets events).head?, ∀ packet ∈ addedPackets events,
    first.index / 65536 ≤ packet.index / 65536
  apart : ∀ packet ∈ addedPackets events, ∀ other ∈ addedPackets events,
    packet.samples.isSome → other.samples.isSome → packet.index % 65536 = 65535 →
      other.index ≠ packet.index + 1

theorem closes_start {events : List Event} (near : NearOrder events) {cycle : Int}
    (start : ∀ first ∈ (addedPackets events).head?, first.index / 65536 = cycle) :
    Closes cycle none ((addedPackets events).map Packet.index) := by
  unfold NearOrder at near
  cases shape : addedPackets events with
  | nil => trivial
  | cons first rest =>
    rw [shape] at near start
    exact closes_of_chain (start first rfl) near

theorem numberFor_ascends {events : List Event} (apart : WithoutRollover events) {cycle : Int}
    {packet other : Packet} (inside : packet ∈ addedPackets events)
    (alsoInside : other ∈ addedPackets events) (samples : packet.samples.isSome)
    (otherSamples : other.samples.isSome) (before : packet.index < other.index) :
    numberFor cycle packet.index < numberFor cycle other.index := by
  rcases @numberFor_lt cycle _ _ before with lower | ⟨_, last, next⟩
  · exact lower
  · exact absurd next (apart.apart packet inside other alsoInside samples otherSamples last)

theorem queued_new (cycle : Int) (seen : Int → Prop) (pcmLen : Nat) (transcode : Bool) :
    Queued cycle seen (new pcmLen transcode) :=
  ⟨by simp [new], by simp [new], List.Pairwise.nil, List.Pairwise.nil⟩

/-- The queues of a run without a rollover pop in the order of the indices. -/
theorem queued_pops {events : List Event} (apart : WithoutRollover events) {cycle : Int}
    {state : RtpBufferState} (queued : Queued cycle (fun index => ∃ packet ∈ addedPackets events,
      packet.samples.isSome ∧ packet.index = index) state) : PopsInOrder state := by
  have order : ∀ a b : Int, ∀ m n : Nat, (m : Int) = numberFor cycle a →
      (n : Int) = numberFor cycle b →
      (∃ packet ∈ addedPackets events, packet.samples.isSome ∧ packet.index = a) →
      (∃ packet ∈ addedPackets events, packet.samples.isSome ∧ packet.index = b) →
      n ≤ m → b ≤ a := by
    rintro a b m n first second ⟨packet, inside, samples, rfl⟩ ⟨other, also, otherSamples, rfl⟩ below
    by_contra above
    have lower := @numberFor_ascends _ apart cycle _ _ inside also samples otherSamples
      (Int.not_le.mp above)
    omega
  refine ⟨?_, ?_⟩
  · refine queued.payloadsSorted.imp_of_mem fun {a b} left right below => ?_
    obtain ⟨first, seen⟩ := queued.payloads a left
    obtain ⟨second, also⟩ := queued.payloads b right
    exact order _ _ _ _ first second seen also below
  · refine queued.pcmsSorted.imp_of_mem fun {a b} left right below => ?_
    obtain ⟨first, seen⟩ := queued.pcms a left
    obtain ⟨second, also⟩ := queued.pcms b right
    exact order _ _ _ _ first second seen also below

theorem addedPackets_append (front rest : List Event) :
    addedPackets (front ++ rest) = addedPackets front ++ addedPackets rest :=
  List.filterMap_append

/-- A beginning of a run is near in order too, and starts in the same cycle. -/
theorem closes_front {front rest : List Event} {cycle : Int} (near : NearOrder (front ++ rest))
    (start : ∀ first ∈ (addedPackets (front ++ rest)).head?, first.index / 65536 = cycle) :
    Closes cycle none ((addedPackets front).map Packet.index) := by
  refine closes_start ?_ ?_
  · unfold NearOrder at near ⊢
    rw [addedPackets_append, List.map_append] at near
    exact near.left_of_append
  · intro first head
    refine start first ?_
    rw [addedPackets_append, List.head?_append, Option.mem_def.mp head]
    rfl

/-- The cycle of the first packet. -/
def firstCycle (events : List Event) : Int :=
  ((addedPackets events).head?.map fun first => first.index / 65536).getD 0

theorem firstCycle_eq {events : List Event} {first : Packet}
    (head : first ∈ (addedPackets events).head?) : first.index / 65536 = firstCycle events := by
  unfold firstCycle
  rw [Option.mem_def.mp head]
  rfl

/-- Where packets were added, one of them is the first. -/
theorem exists_first {events : List Event} {packet : Packet} (inside : packet ∈ addedPackets events) :
    ∃ first, first ∈ (addedPackets events).head? := by
  cases shape : addedPackets events with
  | nil => rw [shape] at inside; cases inside
  | cons first rest => exact ⟨first, rfl⟩

theorem inOrder_of_apart {pcmLen : Nat} {transcode : Bool} {events : List Event}
    (near : NearOrder events) (apart : WithoutRollover events) :
    InOrder pcmLen transcode events := by
  have fresh : Tracks (firstCycle events) (new pcmLen transcode) none := ⟨rfl, rfl⟩
  have closes := closes_start near fun first head => firstCycle_eq head
  have within : ¬ ∃ packet ∈ addedPackets events, packet.index / 65536 < firstCycle events := by
    rintro ⟨packet, inside, below⟩
    obtain ⟨first, head⟩ := exists_first inside
    have above := apart.above first head packet inside
    rw [firstCycle_eq head] at above
    omega
  rcases run_close events fresh closes with ⟨below, _⟩ | ⟨_, last, outputs, ran, numbers, _⟩
  · exact absurd below within
  refine ⟨by rw [ran]; rfl, ?_, ?_⟩
  · intro state shown also packet number other otherNumber first second before
    obtain ⟨rfl, rfl⟩ := Prod.mk.inj (Option.some.inj (also.symm.trans ran))
    obtain ⟨inside, samples, value⟩ := (numbers packet number).mp first
    obtain ⟨otherInside, otherSamples, otherValue⟩ := (numbers other otherNumber).mp second
    have lower := @numberFor_ascends _ apart (firstCycle events) _ _ inside otherInside samples
      otherSamples before
    omega
  · rintro front ⟨rest, rfl⟩ state shown also
    have frontCloses := closes_front near fun first head => firstCycle_eq head
    rcases run_close front fresh frontCloses with ⟨_, none⟩ | ⟨_, after, made, frontRan, _, kept⟩
    · rw [none] at also
      cases also
    · obtain ⟨rfl, rfl⟩ := Prod.mk.inj (Option.some.inj (also.symm.trans frontRan))
      refine queued_pops apart (kept _ ?_ (queued_new _ _ _ _))
      intro packet inside samples
      rw [addedPackets_append]
      exact ⟨packet, List.mem_append_left _ inside, samples, rfl⟩

theorem apart_of_inOrder {pcmLen : Nat} {transcode : Bool} {events : List Event}
    (near : NearOrder events) (order : InOrder pcmLen transcode events) :
    WithoutRollover events := by
  have fresh : Tracks (firstCycle events) (new pcmLen transcode) none := ⟨rfl, rfl⟩
  have closes := closes_start near fun first head => firstCycle_eq head
  rcases run_close events fresh closes with ⟨_, none⟩ | ⟨within, last, outputs, ran, numbers, _⟩
  · have ran := order.ran
    rw [none] at ran
    cases ran
  refine ⟨?_, ?_⟩
  · intro first head packet inside
    rw [firstCycle_eq head]
    exact within packet inside
  · intro packet inside other otherInside samples otherSamples last next
    have numbered : ∀ packet ∈ addedPackets events, packet.samples.isSome →
        Output.numbered packet (numberFor (firstCycle events) packet.index).toNat ∈ outputs := by
      intro packet inside samples
      have cycle := within packet inside
      refine (numbers packet _).mpr ⟨inside, samples, Int.toNat_of_nonneg ?_⟩
      unfold numberFor
      omega
    have ascends := order.ascending _ outputs ran packet _ other _ (numbered packet inside samples)
      (numbered other otherInside otherSamples) (by omega)
    rw [next, ← numberFor_rollover last] at ascends
    exact Nat.lt_irrefl _ ascends

/-- For packets that are each within a hundred of the one before, the order of a run is
    that of the true indices exactly if it holds no rollover, up or down. -/
theorem order_kept_iff (pcmLen : Nat) (transcode : Bool) (events : List Event)
    (near : NearOrder events) :
    InOrder pcmLen transcode events ↔ WithoutRollover events :=
  ⟨apart_of_inOrder near, inOrder_of_apart near⟩

/-- A packet whose samples are one of silence. -/
def silent (index : Int) : Packet := ⟨index, [], some [0], false⟩

theorem order_kept_of_near :
    NearOrder [.add (silent 6), .add (silent 5)] ∧
      InOrder 1 false [.add (silent 6), .add (silent 5)] := by
  have near : NearOrder [.add (silent 6), .add (silent 5)] :=
    List.isChain_cons_cons.mpr ⟨by decide, List.isChain_singleton _⟩
  exact ⟨near, (order_kept_iff 1 false _ near).mpr ⟨by decide, by decide⟩⟩

/-- The first packet of a new cycle has the number of the last one before it. -/
theorem rollover_numbers_equal :
    ∃ events, NearOrder events ∧ ¬ InOrder 1 false events := by
  refine ⟨[.add (silent 65535), .add (silent 65536)],
    List.isChain_cons_cons.mpr ⟨by decide, List.isChain_singleton _⟩, fun order => ?_⟩
  have before := order.ascending _ _ rfl (silent 65535) 65535 (silent 65536) 65535
    List.mem_cons_self (List.mem_cons_of_mem _ List.mem_cons_self) (by decide)
  exact Nat.lt_irrefl _ before

end Order

end JitterBuffer
