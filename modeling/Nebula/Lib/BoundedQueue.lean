import Mathlib.Data.List.Basic
import Mathlib.Tactic.Common
import Nebula.Lib.Transducer

/- A queue of bounded length that drops its oldest element to make room, and how its elements
   lie in the cells of a ring, oldest first from a start that moves with every removal. -/
namespace BoundedQueue
variable {Element : Type}

inductive Op (Element : Type) where
  | push (element : Element)
  | pop
  deriving DecidableEq, Repr

/-- The oldest element stands first. -/
def push (capacity : Nat) (queue : List Element) (element : Element) : List Element :=
  if queue.length < capacity then queue ++ [element] else queue.tail ++ [element]

/-- Only a pop answers, with the oldest element if there is one. -/
def step (capacity : Nat) : Transducer.Step (List Element) (Op Element) (Option Element)
  | queue, .push element => (push capacity queue element, none)
  | queue, .pop => (queue.tail, some queue.head?)

section Ring

/-- A position less than one round past the end, brought back to the cells. -/
def slot (size position : Nat) : Nat :=
  if position < size then position else position - size

/-- The queue occupies the cells from the start on, round the end. -/
structure InRing (cells : List Element) (start : Nat) (queue : List Element) : Prop where
  inside : start < cells.length
  fits : queue.length ≤ cells.length
  held : ∀ i element, queue[i]? = some element →
    cells[slot cells.length (start + i)]? = some element

variable {cells queue : List Element} {start : Nat}

theorem slot_lt {size position : Nat} (near : position < size + size) : slot size position < size := by
  unfold slot
  split <;> omega

theorem slot_self {size position : Nat} (inside : position < size) : slot size position = position :=
  if_pos inside

theorem slot_succ {size first i : Nat} (inside : first < size) (within : i < size) :
    slot size (slot size (first + 1) + i) = slot size (first + (i + 1)) := by
  unfold slot
  split <;> split <;> split <;> omega

theorem slot_next {size first i : Nat} (inside : first < size) (within : i < size) :
    slot size (slot size (first + i) + 1) = slot size (first + (i + 1)) := by
  unfold slot
  split <;> split <;> split <;> omega

/-- A whole round leads back to the first cell. -/
theorem slot_round (size first : Nat) : slot size (first + size) = first := by
  unfold slot
  rw [if_neg (by omega), Nat.add_sub_cancel]

theorem slot_inj {size first i j : Nat} (hi : i < size) (hj : j < size)
    (same : slot size (first + i) = slot size (first + j)) : i = j := by
  unfold slot at same
  split at same <;> split at same <;> omega

theorem inRing_nil (inside : start < cells.length) : InRing cells start [] := by
  refine ⟨inside, Nat.zero_le _, fun i element present => ?_⟩
  rw [List.getElem?_nil] at present
  cases present

theorem inRing_head (ring : InRing cells start queue) {oldest : Element} {rest : List Element}
    (same : queue = oldest :: rest) : cells[start]? = some oldest := by
  have found := ring.held 0 oldest (by rw [same, List.getElem?_cons_zero])
  rwa [Nat.add_zero, slot_self ring.inside] at found

theorem inRing_tail (ring : InRing cells start queue) :
    InRing cells (slot cells.length (start + 1)) queue.tail := by
  have inside := ring.inside
  refine ⟨slot_lt (by omega), ?_, fun i element present => ?_⟩
  · rw [List.length_tail]
    exact Nat.le_trans (Nat.sub_le _ _) ring.fits
  · rw [List.getElem?_tail] at present
    have short := (List.getElem?_eq_some_iff.mp present).1
    have fits := ring.fits
    rw [slot_succ inside (by omega)]
    exact ring.held (i + 1) element present

/-- The cell after the last of the queue takes one element more. -/
theorem inRing_append (ring : InRing cells start queue) (room : queue.length < cells.length)
    (element : Element) :
    InRing (cells.set (slot cells.length (start + queue.length)) element) start
      (queue ++ [element]) := by
  have inside := ring.inside
  refine ⟨by rwa [List.length_set], ?_, fun i other present => ?_⟩
  · rw [List.length_append, List.length_set, List.length_singleton]
    exact room
  · rw [List.length_set]
    rcases Nat.lt_or_ge i queue.length with before | last
    · rw [List.getElem?_append_left before] at present
      have apart : slot cells.length (start + queue.length) ≠ slot cells.length (start + i) := by
        intro same
        have := slot_inj room (by omega) same
        omega
      rw [List.getElem?_set_ne apart]
      exact ring.held i other present
    · have only : i = queue.length := by
        have short := (List.getElem?_eq_some_iff.mp present).1
        rw [List.length_append, List.length_singleton] at short
        omega
      subst only
      rw [List.getElem?_concat_length] at present
      cases present
      exact List.getElem?_set_self (slot_lt (by omega))

end Ring

end BoundedQueue
