import Nebula.Lib.BoundedQueue
import Nebula.Lib.ByteStrings

/- The circular buffer of audio packets: slots that are reused, the index of the oldest one, and
   the index after the newest one, which is absent in an empty buffer. -/
namespace CircularBuffer
open ByteStrings BoundedQueue

structure FixedDqueue where
  start : Nat
  n : Option Nat
  size : Nat
  elements : List Bytes
  deriving DecidableEq, Repr

def new (size : Nat) : FixedDqueue :=
  { size, elements := List.replicate size [], n := none, start := 0 }

def nextIndex (queue : FixedDqueue) (i : Nat) : Nat :=
  if queue.size - 1 ≤ i then 0 else i + 1

def elementAt (elements : List Bytes) (i : Nat) : Outcome Bytes :=
  match elements[i]? with
  | some element => .ok element
  | none => .error .panic

/-- The bytes of a slot after an element of the same or of another length was written to it. -/
def refill (old element : Bytes) : Bytes :=
  if element.length = old.length then element else [] ++ element

def push (queue : FixedDqueue) (element : Bytes) : Outcome FixedDqueue := do
  let n := queue.n.getD queue.start
  let old ← elementAt queue.elements n
  let elements := queue.elements.set n (refill old element)
  if queue.n = some queue.start then
    pure { queue with start := nextIndex queue queue.start, n := some (nextIndex queue n), elements }
  else pure { queue with n := some (nextIndex queue n), elements }

def pop (queue : FixedDqueue) : Outcome (FixedDqueue × Option Bytes) :=
  match queue.n with
  | none => pure (queue, none)
  | some n => do
    let element ← elementAt queue.elements queue.start
    let start := nextIndex queue queue.start
    pure ({ queue with start, n := if start = n then none else some n }, some element)

def distance (queue : FixedDqueue) : Nat :=
  match queue.n with
  | none => 0
  | some n => if n ≤ queue.start then n + queue.size - queue.start else n - queue.start

/-- One call on the buffer, with what it returns if it is a pop. -/
def call (queue : FixedDqueue) : Op Bytes → Outcome (FixedDqueue × Option (Option Bytes))
  | .push element => do
    let after ← push queue element
    pure (after, none)
  | .pop => do
    let (after, element) ← pop queue
    pure (after, some element)

/-- The buffer after all calls, and the values popped. -/
def calls (queue : FixedDqueue) : List (Op Bytes) → Outcome (FixedDqueue × List (Option Bytes))
  | [] => pure (queue, [])
  | op :: rest => do
    let (after, answer) ← call queue op
    let (last, later) ← calls after rest
    pure (last, answer.toList ++ later)

/-- The buffer holds these elements, oldest first. An absent index after the newest element
    tells an empty buffer from a full one. -/
structure Holds (queue : FixedDqueue) (contents : List Bytes) : Prop where
  sized : queue.elements.length = queue.size
  ring : InRing queue.elements queue.start contents
  after : queue.n =
    if contents = [] then none else some (slot queue.size (queue.start + contents.length))

section Simulation
variable {queue : FixedDqueue} {contents : List Bytes}

theorem holds_inside (holds : Holds queue contents) : queue.start < queue.size := by
  rw [← holds.sized]
  exact holds.ring.inside

theorem holds_fits (holds : Holds queue contents) : contents.length ≤ queue.size := by
  rw [← holds.sized]
  exact holds.ring.fits

theorem refill_eq (old element : Bytes) : refill old element = element := by
  unfold refill
  split <;> rfl

theorem nextIndex_eq {i : Nat} (inside : i < queue.size) :
    nextIndex queue i = slot queue.size (i + 1) := by
  unfold nextIndex slot
  split <;> split <;> omega

theorem elementAt_eq {elements : List Bytes} {i : Nat} {element : Bytes}
    (found : elements[i]? = some element) : elementAt elements i = .ok element := by
  unfold elementAt
  rw [found]

theorem elementAt_inside {elements : List Bytes} {i : Nat} (inside : i < elements.length) :
    ∃ element, elementAt elements i = .ok element :=
  ⟨elements[i], elementAt_eq (List.getElem?_eq_getElem inside)⟩

theorem holds_new {size : Nat} (positive : 0 < size) : Holds (new size) [] := by
  refine ⟨List.length_replicate, inRing_nil ?_, rfl⟩
  rw [show (new size).elements = List.replicate size [] from rfl, List.length_replicate]
  exact positive

/-- The slot that a push writes is the one after the newest element. -/
theorem written (holds : Holds queue contents) :
    queue.n.getD queue.start = slot queue.size (queue.start + contents.length) := by
  rw [holds.after]
  by_cases empty : contents = []
  · rw [if_pos empty, empty]
    exact (slot_self (holds_inside holds)).symm
  · rw [if_neg empty]
    rfl

theorem full_iff (holds : Holds queue contents) :
    queue.n = some queue.start ↔ contents.length = queue.size := by
  have inside := holds_inside holds
  have fits := holds_fits holds
  rw [holds.after]
  constructor
  · intro full
    by_cases empty : contents = []
    · rw [if_pos empty] at full
      cases full
    · rw [if_neg empty] at full
      have some_length := List.length_pos_iff.mpr empty
      have same := Option.some.inj full
      unfold slot at same
      split at same <;> omega
  · intro full
    have nonempty : contents ≠ [] := by
      rintro rfl
      rw [List.length_nil] at full
      omega
    rw [if_neg nonempty, full, slot_round]

/-- What a push writes and where it leaves the end, whether or not it moves the start. -/
def pushed (queue : FixedDqueue) (start last : Nat) (element : Bytes) : FixedDqueue :=
  { queue with
    elements := queue.elements.set last element
    start := start
    n := some (nextIndex queue last) }

theorem push_full (holds : Holds queue contents) (element : Bytes)
    (full : contents.length = queue.size) :
    Holds (pushed queue (nextIndex queue queue.start)
      (slot queue.size (queue.start + contents.length)) element) (contents.tail ++ [element]) := by
  have inside := holds_inside holds
  have sized := holds.sized
  have tail_length : contents.tail.length + 1 = queue.size := by
    rw [List.length_tail]
    omega
  have round : slot queue.size (slot queue.size (queue.start + 1) + contents.tail.length) =
      slot queue.size (queue.start + contents.length) := by
    rw [slot_succ inside (by omega), tail_length, full]
  have filled := inRing_append (inRing_tail holds.ring) (by omega) element
  rw [sized, round, ← nextIndex_eq inside] at filled
  refine ⟨(List.length_set ..).trans sized, filled, ?_⟩
  rw [if_neg (List.append_ne_nil_of_right_ne_nil _ (List.cons_ne_nil _ _))]
  show some (nextIndex queue (slot queue.size (queue.start + contents.length))) =
    some (slot queue.size (nextIndex queue queue.start + (contents.tail ++ [element]).length))
  rw [nextIndex_eq inside, List.length_append, List.length_singleton, tail_length, full,
    slot_round, slot_round, nextIndex_eq inside]

theorem push_room (holds : Holds queue contents) (element : Bytes)
    (room : contents.length < queue.size) :
    Holds (pushed queue queue.start (slot queue.size (queue.start + contents.length)) element)
      (contents ++ [element]) := by
  have inside := holds_inside holds
  have sized := holds.sized
  have filled := inRing_append holds.ring (sized.symm ▸ room) element
  rw [sized] at filled
  refine ⟨(List.length_set ..).trans sized, filled, ?_⟩
  rw [if_neg (List.append_ne_nil_of_right_ne_nil _ (List.cons_ne_nil _ _)), List.length_append,
    List.length_singleton]
  show some (nextIndex queue (slot queue.size (queue.start + contents.length))) =
    some (slot queue.size (queue.start + (contents.length + 1)))
  rw [nextIndex_eq (slot_lt (by omega)), slot_next inside room]

theorem push_holds (holds : Holds queue contents) (element : Bytes) :
    ∃ after, CircularBuffer.push queue element = .ok after ∧
      Holds after (BoundedQueue.push queue.size contents element) ∧ after.size = queue.size := by
  have inside := holds_inside holds
  have fits := holds_fits holds
  have spot : slot queue.size (queue.start + contents.length) < queue.elements.length := by
    rw [holds.sized]
    exact slot_lt (by omega)
  obtain ⟨old, found⟩ := elementAt_inside spot
  unfold CircularBuffer.push
  simp only [written holds, found, ok_bind, refill_eq]
  by_cases full : contents.length = queue.size
  · rw [if_pos ((full_iff holds).mpr full)]
    have dropped : BoundedQueue.push queue.size contents element = contents.tail ++ [element] :=
      if_neg (by omega)
    rw [dropped]
    exact ⟨_, rfl, push_full holds element full, rfl⟩
  · rw [if_neg (fun same => full ((full_iff holds).mp same))]
    have room : contents.length < queue.size := Nat.lt_of_le_of_ne fits full
    have kept : BoundedQueue.push queue.size contents element = contents ++ [element] := if_pos room
    rw [kept]
    exact ⟨_, rfl, push_room holds element room, rfl⟩

theorem pop_holds (holds : Holds queue contents) :
    ∃ after, CircularBuffer.pop queue = .ok (after, contents.head?) ∧ Holds after contents.tail ∧
      after.size = queue.size := by
  have inside := holds_inside holds
  have fits := holds_fits holds
  have ended := holds.after
  unfold CircularBuffer.pop
  cases contents with
  | nil =>
    rw [if_pos rfl] at ended
    rw [ended]
    exact ⟨queue, rfl, holds, rfl⟩
  | cons oldest rest =>
    rw [if_neg (List.cons_ne_nil _ _)] at ended
    rw [ended]
    rw [List.length_cons] at fits
    have front := elementAt_eq (inRing_head holds.ring rfl)
    have shorter := inRing_tail holds.ring
    rw [List.tail_cons, holds.sized, ← nextIndex_eq inside] at shorter
    simp only [front, ok_bind, pure_eq_ok, List.head?_cons, List.tail_cons]
    refine ⟨_, rfl, ⟨holds.sized, shorter, ?_⟩, rfl⟩
    show (if _ then none else some _) = if _ then none else some (slot queue.size (nextIndex queue _ + _))
    rw [nextIndex_eq inside, slot_succ inside (by omega), List.length_cons]
    have emptied : slot queue.size (queue.start + 1) = slot queue.size (queue.start + (rest.length + 1)) ↔
        rest = [] := by
      constructor
      · intro met
        rcases Nat.lt_or_ge (rest.length + 1) queue.size with short | whole
        · exact List.length_eq_zero_iff.mp (by
            have := slot_inj (by omega) short met
            omega)
        · rw [show rest.length + 1 = queue.size by omega, slot_round] at met
          unfold slot at met
          exact List.length_eq_zero_iff.mp (by split at met <;> omega)
      · rintro rfl
        rfl
    by_cases empty : rest = []
    · rw [if_pos (emptied.mpr empty), if_pos empty]
    · rw [if_neg (fun met => empty (emptied.mp met)), if_neg empty]

theorem distance_eq (holds : Holds queue contents) : distance queue = contents.length := by
  have inside := holds_inside holds
  have fits := holds_fits holds
  unfold distance
  rw [holds.after]
  by_cases empty : contents = []
  · rw [if_pos empty, empty]
    rfl
  · rw [if_neg empty]
    have some_length := List.length_pos_iff.mpr empty
    dsimp only
    unfold slot
    split <;> split <;> omega

theorem empty_iff (holds : Holds queue contents) : queue.n = none ↔ contents = [] := by
  rw [holds.after]
  by_cases empty : contents = []
  · simp [empty]
  · simp [empty]

theorem call_holds (holds : Holds queue contents) (op : Op Bytes) :
    ∃ after, call queue op = .ok (after, (step queue.size contents op).2) ∧
      Holds after (step queue.size contents op).1 ∧ after.size = queue.size := by
  cases op with
  | push element =>
    obtain ⟨after, pushed, held, same⟩ := push_holds holds element
    refine ⟨after, ?_, held, same⟩
    simp only [call, pushed, ok_bind, pure_eq_ok, step]
  | pop =>
    obtain ⟨after, popped, held, same⟩ := pop_holds holds
    refine ⟨after, ?_, held, same⟩
    simp only [call, popped, ok_bind, pure_eq_ok, step]

theorem calls_holds (ops : List (Op Bytes)) : ∀ {queue : FixedDqueue} {contents : List Bytes},
    Holds queue contents →
      ∃ last, calls queue ops = .ok (last, Transducer.outputs (step queue.size) contents ops) ∧
        Holds last (Transducer.final (step queue.size) contents ops) := by
  induction ops with
  | nil => exact fun {queue} {_} holds => ⟨queue, rfl, holds⟩
  | cons op rest ih =>
    intro queue contents holds
    obtain ⟨after, called, held, same⟩ := call_holds holds op
    obtain ⟨last, ran, final⟩ := ih held
    rw [same] at ran final
    refine ⟨last, ?_, final⟩
    simp only [calls, called, ran, ok_bind, pure_eq_ok, Transducer.outputs_cons]

end Simulation

/-- The buffer is a queue of that capacity which drops its oldest element for a push that finds
    it full: no call panics, and the values popped, the emptiness and the distance agree. -/
theorem refines_bounded_queue (size : Nat) (positive : 0 < size) (ops : List (Op Bytes)) :
    ∃ last, calls (new size) ops = .ok (last, Transducer.outputs (step size) [] ops) ∧
      (last.n = none ↔ Transducer.final (step size) [] ops = []) ∧
      distance last = (Transducer.final (step size) [] ops).length := by
  obtain ⟨last, ran, held⟩ := calls_holds ops (holds_new positive)
  exact ⟨last, ran, empty_iff held, distance_eq held⟩

/-- A buffer of one slot, pushed twice and popped twice. -/
theorem single_slot_queue :
    0 < 1 ∧ ∃ last, calls (new 1) [.push [1], .push [2], .pop, .pop] = .ok (last, [some [2], none]) ∧
      (last.n = none ↔ ([] : List Bytes) = []) ∧ distance last = 0 :=
  ⟨Nat.one_pos, refines_bounded_queue 1 Nat.one_pos [.push [1], .push [2], .pop, .pop]⟩

end CircularBuffer
