import Mathlib.Algebra.GroupWithZero.Nat
import Mathlib.Data.List.Basic
import Mathlib.Tactic.Common

/- The buffer between the network and a local stream: two queues, one of payloads that may
   pass through as they are and one of the samples decoded from all payloads. -/
namespace JitterBuffer

def MAX_ROCDISORDER : Nat := 100
def MAX_SEQUENCE_NUMBER : Nat := 65535
def MIN_JITTER_BUFFER_SIZE : Nat := 2
def ABUNDANT_JITTER_BUFFER_SIZE : Nat := 2
def ABUNDANT_JITTER_BUFFER_TIMES : Nat := 500
def MAX_JITTER_BUFFER_SIZE : Nat := 10

section Queue
variable {Item : Type}

/-- The highest number stands first; the last item is the next to come out. -/
abbrev SeqQueue (Item : Type) := List (Item × Nat)

def SeqQueue.push : SeqQueue Item → Item → Nat → SeqQueue Item
  | [], item, seq => [(item, seq)]
  | (other, s) :: rest, item, seq =>
    if s < seq then (item, seq) :: (other, s) :: rest else (other, s) :: SeqQueue.push rest item seq

def SeqQueue.pop (queue : SeqQueue Item) : Option (Item × Nat) × SeqQueue Item :=
  (queue.getLast?, queue.dropLast)

/-- Numbers come out in ascending order. -/
def SeqQueue.Sorted (queue : SeqQueue Item) : Prop := queue.Pairwise fun a b => b.2 ≤ a.2

theorem mem_push {queue : SeqQueue Item} {item : Item} {seq : Nat} {entry : Item × Nat} :
    entry ∈ queue.push item seq ↔ entry = (item, seq) ∨ entry ∈ queue := by
  induction queue with
  | nil => simp [SeqQueue.push]
  | cons head rest ih =>
    obtain ⟨other, s⟩ := head
    unfold SeqQueue.push
    split
    · simp
    · rw [List.mem_cons, ih, List.mem_cons]
      tauto

theorem push_sorted {queue : SeqQueue Item} (item : Item) (seq : Nat) (sorted : queue.Sorted) :
    (queue.push item seq).Sorted := by
  unfold SeqQueue.Sorted at sorted ⊢
  induction queue with
  | nil => simp [SeqQueue.push]
  | cons head rest ih =>
    obtain ⟨other, s⟩ := head
    obtain ⟨first, later⟩ := List.pairwise_cons.mp sorted
    unfold SeqQueue.push
    split
    · rename_i higher
      refine List.pairwise_cons.mpr ⟨fun entry member => ?_, sorted⟩
      rcases List.mem_cons.mp member with rfl | inside
      · exact Nat.le_of_lt higher
      · exact Nat.le_trans (first entry inside) (Nat.le_of_lt higher)
    · rename_i lower
      refine List.pairwise_cons.mpr ⟨fun entry member => ?_, ih later⟩
      rcases mem_push.mp member with rfl | inside
      · exact Nat.not_lt.mp lower
      · exact first entry inside

theorem dropLast_sorted {queue : SeqQueue Item} (sorted : queue.Sorted) :
    SeqQueue.Sorted queue.dropLast :=
  sorted.sublist (List.dropLast_sublist queue)

/-- An item that is not above any of the first entries goes behind them. -/
theorem push_append {front : SeqQueue Item} (back : SeqQueue Item) {item : Item} {seq : Nat}
    (below : ∀ entry ∈ front, seq ≤ entry.2) :
    SeqQueue.push (front ++ back) item seq = front ++ SeqQueue.push back item seq := by
  induction front with
  | nil => rfl
  | cons head front ih =>
    obtain ⟨other, s⟩ := head
    have first : seq ≤ s := below (other, s) List.mem_cons_self
    have later := ih fun entry member => below entry (List.mem_cons_of_mem _ member)
    rw [List.cons_append, List.cons_append]
    conv_lhs => unfold SeqQueue.push
    rw [if_neg (Nat.not_lt.mpr first), later]

/-- An item above all of the last entries goes before them. -/
theorem push_before (front : SeqQueue Item) {back : SeqQueue Item} {item : Item} {seq : Nat}
    (above : ∀ entry ∈ back, entry.2 < seq) :
    ∃ start, SeqQueue.push (front ++ back) item seq = start ++ back := by
  induction front with
  | nil =>
    cases back with
    | nil => exact ⟨[(item, seq)], rfl⟩
    | cons head back =>
      obtain ⟨other, s⟩ := head
      refine ⟨[(item, seq)], ?_⟩
      rw [List.nil_append]
      unfold SeqQueue.push
      rw [if_pos (above (other, s) List.mem_cons_self)]
      rfl
  | cons head front ih =>
    obtain ⟨other, s⟩ := head
    obtain ⟨start, shape⟩ := ih
    rw [List.cons_append]
    unfold SeqQueue.push
    split
    · exact ⟨(item, seq) :: (other, s) :: front, rfl⟩
    · exact ⟨(other, s) :: start, by rw [shape, List.cons_append]⟩

end Queue

section Buffer

abbrev Pcm := List Int16

/-- A packet with what the parts outside the buffer make of it: what its codec and the
    resampler give, if anything, and whether the denoiser hears sound. The sequence number
    is the low 16 bits of its index, which no one sees. -/
structure Packet where
  index : Int
  payload : List UInt8
  decoded : Option Pcm
  hadSound : Bool
  deriving DecidableEq

def Packet.sequence (packet : Packet) : Nat := (packet.index % 65536).toNat

/-- Samples with the index of the packet they come from. -/
structure Piece where
  index : Int
  pcm : Pcm
  deriving DecidableEq

/-- A payload is kept with the packet that it is of. -/
structure RtpBufferState where
  payloads : SeqQueue Packet := []
  pcms : SeqQueue Piece := []
  jitterBufferSize : Nat := MIN_JITTER_BUFFER_SIZE
  jitterBufferFilled : Bool := false
  jitterBufferAbundantTimes : Nat := 0
  lastSeq : Nat := 0
  roc : Nat := 0
  rocHasProcessed : Bool := false
  pcmLen : Nat
  transcode : Bool

variable (state : RtpBufferState)

def counted (seq roc : Nat) : RtpBufferState :=
  { state with roc, rocHasProcessed := true, lastSeq := seq }

/-- There is nothing where roc is decremented below zero: with overflow checks that panics,
    without them roc wraps. -/
def updateRoc (seq : Nat) : Option RtpBufferState :=
  if !state.rocHasProcessed then some (counted state seq state.roc)
  else if seq = 0 then
    some (counted state seq (if MAX_ROCDISORDER < state.lastSeq then state.roc + 1 else state.roc))
  else if state.lastSeq < MAX_ROCDISORDER ∧ MAX_SEQUENCE_NUMBER - MAX_ROCDISORDER < seq then
    if state.roc = 0 then none else some (counted state seq (state.roc - 1))
  else if seq < MAX_ROCDISORDER ∧ MAX_SEQUENCE_NUMBER - MAX_ROCDISORDER < state.lastSeq then
    some (counted state seq (state.roc + 1))
  else some (counted state seq state.roc)

/-- The number that a packet is queued under. -/
def extendedSeq (packet : Packet) : Nat := packet.sequence + MAX_SEQUENCE_NUMBER * state.roc

/-- The samples of a packet go into the queue, unless it is silent and the queue is long. -/
def queuePcm (packet : Packet) (pcm : Pcm) (seq : Nat) : RtpBufferState :=
  if (10 < state.pcms.length ∨ state.jitterBufferSize + 1 < state.pcms.length) ∧
      packet.hadSound = false then state
  else
    let payloads := if state.transcode = false ∧ pcm.length = state.pcmLen then
      state.payloads.push packet seq else state.payloads
    let pcms := state.pcms.push ⟨packet.index, pcm⟩ seq
    { state with
      payloads, pcms
      jitterBufferFilled := state.jitterBufferFilled || decide (state.jitterBufferSize ≤ pcms.length) }

/-- The samples of a packet, where add goes on to number them. -/
def Packet.samples (packet : Packet) : Option Pcm :=
  packet.decoded.filter fun pcm => !pcm.isEmpty

def add (packet : Packet) : Option RtpBufferState :=
  (updateRoc state packet.sequence).map fun state =>
    match packet.samples with
    | none => state
    | some pcm => queuePcm state packet pcm (extendedSeq state packet)

/-- The loop of get over the queue, at most once for each entry. -/
def gather (pcmLen : Nat) : Nat → SeqQueue Piece → Pcm → Pcm × SeqQueue Piece
  | 0, queue, pcm => (pcm, queue)
  | fuel + 1, queue, pcm =>
    match queue.pop with
    | (none, _) => (pcm, queue)
    | (some (piece, seq), queue) =>
      if piece.pcm.length + pcm.length = pcmLen then (pcm ++ piece.pcm, queue)
      else if pcmLen < piece.pcm.length + pcm.length then
        (pcm ++ piece.pcm.take (pcmLen - pcm.length),
          queue.push { piece with pcm := piece.pcm.drop (pcmLen - pcm.length) } seq)
      else gather pcmLen fuel queue (pcm ++ piece.pcm)

/-- What is missing of a frame is silence. -/
def padded (pcmLen : Nat) (pcm : Pcm) : Option Pcm :=
  if pcm.isEmpty then none
  else some (pcm ++ List.replicate (pcmLen - pcm.length) 0)

/-- How the size of the buffer follows what is left in it. -/
def adjust : RtpBufferState :=
  if state.pcms.length = 0 then
    { state with
      jitterBufferFilled := false
      jitterBufferSize := if state.jitterBufferSize < MAX_JITTER_BUFFER_SIZE then
        state.jitterBufferSize + 1 else state.jitterBufferSize }
  else if ABUNDANT_JITTER_BUFFER_SIZE ≤ state.pcms.length then
    if MIN_JITTER_BUFFER_SIZE < state.jitterBufferSize then
      if ABUNDANT_JITTER_BUFFER_TIMES < state.jitterBufferAbundantTimes + 1 then
        { state with
          jitterBufferSize := state.jitterBufferSize - 1, jitterBufferAbundantTimes := 0 }
      else { state with jitterBufferAbundantTimes := state.jitterBufferAbundantTimes + 1 }
    else state
  else { state with jitterBufferAbundantTimes := 0 }

/-- Nothing but the size, its counter and the mark that the buffer is filled is adjusted. -/
theorem adjust_changes : ∃ filled size times, adjust state =
    { state with
      jitterBufferFilled := filled, jitterBufferSize := size
      jitterBufferAbundantTimes := times } := by
  unfold adjust
  split
  · exact ⟨_, _, _, rfl⟩
  split
  · split
    · split
      · exact ⟨_, _, _, rfl⟩
      · exact ⟨_, _, _, rfl⟩
    · exact ⟨_, _, _, rfl⟩
  · exact ⟨_, _, _, rfl⟩

/-- A payload and a frame of samples, each from its own queue. -/
def get : RtpBufferState × Option Packet × Option Pcm :=
  if state.jitterBufferFilled = false then (state, none, none)
  else
    let gathered := gather state.pcmLen state.pcms.length state.pcms []
    let popped := state.payloads.pop
    ({ adjust { state with pcms := gathered.2 } with payloads := popped.2 },
      popped.1.map Prod.fst, padded state.pcmLen gathered.1)

end Buffer

section Runs

inductive Event where
  | add (packet : Packet)
  | get

/-- What an event shows: the number an added packet is given, or what get returns. -/
inductive Output where
  | numbered (packet : Packet) (number : Nat)
  | unnumbered
  | frame (payload : Option Packet) (pcm : Option Pcm)

def shown (state : RtpBufferState) (packet : Packet) : Output :=
  if packet.samples.isSome then .numbered packet (extendedSeq state packet) else .unnumbered

def step (state : RtpBufferState) : Event → Option (RtpBufferState × Output)
  | .add packet => (add state packet).map fun after => (after, shown after packet)
  | .get => some ((get state).1, .frame (get state).2.1 (get state).2.2)

def run (state : RtpBufferState) : List Event → Option (RtpBufferState × List Output)
  | [] => some (state, [])
  | event :: rest =>
    (step state event).bind fun next =>
      (run next.1 rest).map fun last => (last.1, next.2 :: last.2)

/-- The buffer as RtpBuffer::new makes it. -/
def new (pcmLen : Nat) (transcode : Bool) : RtpBufferState := { pcmLen, transcode }

end Runs

end JitterBuffer
