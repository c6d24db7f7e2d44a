import Mathlib.Data.List.Basic
import Mathlib.Logic.Function.Basic
import Nebula.Lib.Runs

/- Copies of a value that are brought up to date one operation at a time, in an order of
   their own. What is stored may hold more than the value that is read off it. -/
namespace Replication
open Runs
variable {Op Stored Value : Type}

section
variable (apply : Op → Value → Value)

/-- The operations one after another. -/
def replay (value : Value) (ops : List Op) : Value :=
  ops.foldl (fun value op => apply op value) value

end

section
variable {apply : Op → Value → Value}

theorem replay_append (value : Value) (ops : List Op) (op : Op) :
    replay apply value (ops ++ [op]) = apply op (replay apply value ops) := by
  unfold replay
  rw [List.foldl_append]
  rfl

end

/-- What each of the copies has stored, and the operations that it has yet to take. -/
structure Copies (Op Stored : Type) where
  stored : Nat → Stored
  pending : Nat → List Op

namespace Copies

def push (copies : Copies Op Stored) (op : Op) : Copies Op Stored :=
  { copies with pending := fun copy => copies.pending copy ++ [op] }

/-- One copy takes one of its operations. -/
def take (step : Op → Stored → Stored) (copies : Copies Op Stored) (copy i : Nat) :
    Option (Copies Op Stored) :=
  match (copies.pending copy)[i]? with
  | some op => some {
      stored := Function.update copies.stored copy (step op (copies.stored copy))
      pending := Function.update copies.pending copy ((copies.pending copy).eraseIdx i) }
  | none => none

/-- Every copy takes what it has left, in order. -/
def settled (step : Op → Stored → Stored) (count : Nat) (copies : Copies Op Stored) :
    Copies Op Stored where
  stored copy := if copy < count then replay step (copies.stored copy) (copies.pending copy)
    else copies.stored copy
  pending copy := if copy < count then [] else copies.pending copy

/-- What every copy has left, in order, brings it to the target. -/
def Leads (view : Stored → Value) (apply : Op → Value → Value) (count : Nat)
    (copies : Copies Op Stored) (target : Value) : Prop :=
  ∀ copy < count, replay apply (view (copies.stored copy)) (copies.pending copy) = target

def Agrees (view : Stored → Value) (count : Nat) (copies : Copies Op Stored) (target : Value) :
    Prop :=
  ∀ copy < count, view (copies.stored copy) = target

section
variable {view : Stored → Value} {apply : Op → Value → Value} {step : Op → Stored → Stored}
  {count : Nat} {copies after : Copies Op Stored} {target : Value}

theorem agrees_of_leads (leads : Leads view apply count copies target)
    (idle : ∀ copy < count, copies.pending copy = []) : Agrees view count copies target := by
  intro copy inside
  have led := leads copy inside
  rwa [idle copy inside] at led

/-- Copies that lead to one value lead to no other. -/
theorem leads_same (leads : Leads view apply count copies target) (target' : Value) :
    Leads view apply count copies target' ↔ count = 0 ∨ target' = target := by
  constructor
  · intro other
    rcases Nat.eq_zero_or_pos count with none | some
    · exact Or.inl none
    · right
      rw [← leads 0 some, ← other 0 some]
  · rintro (rfl | rfl)
    · exact fun copy inside => absurd inside (Nat.not_lt_zero copy)
    · exact leads

theorem leads_push (leads : Leads view apply count copies target) (op : Op) :
    Leads view apply count (copies.push op) (apply op target) := by
  intro copy inside
  dsimp only [push]
  rw [replay_append, leads copy inside]

/-- An operation taken out of turn has to leave what it would have left in turn. -/
theorem leads_take (leads : Leads view apply count copies target)
    (refines : ∀ op stored, view (step op stored) = apply op (view stored)) {copy i : Nat} {op : Op}
    (inside : copy < count) (isOp : (copies.pending copy)[i]? = some op)
    (taken : copies.take step copy i = some after) :
    Leads view apply count after target ↔
      replay apply (apply op (view (copies.stored copy))) ((copies.pending copy).eraseIdx i) =
        replay apply (view (copies.stored copy)) (copies.pending copy) := by
  unfold take at taken
  rw [isOp] at taken
  cases taken
  rw [leads copy inside]
  constructor
  · intro later
    have here := later copy inside
    dsimp only at here
    rwa [Function.update_self, Function.update_self, refines] at here
  · intro here other within
    dsimp only
    by_cases same : other = copy
    · subst same
      rwa [Function.update_self, Function.update_self, refines]
    · rw [Function.update_of_ne same, Function.update_of_ne same]
      exact leads other within

theorem view_replay (refines : ∀ op stored, view (step op stored) = apply op (view stored))
    (ops : List Op) (stored : Stored) :
    view (replay step stored ops) = replay apply (view stored) ops := by
  induction ops generalizing stored with
  | nil => rfl
  | cons op rest ih =>
    have led := ih (step op stored)
    rw [refines] at led
    exact led

/-- Copies lead to a value exactly if they agree on it once they are settled. -/
theorem leads_iff_settled (refines : ∀ op stored, view (step op stored) = apply op (view stored)) :
    Leads view apply count copies target ↔ Agrees view count (copies.settled step count) target := by
  constructor
  · intro leads copy inside
    dsimp only [settled]
    rw [if_pos inside, view_replay refines]
    exact leads copy inside
  · intro agrees copy inside
    have agreed := agrees copy inside
    dsimp only [settled] at agreed
    rwa [if_pos inside, view_replay refines] at agreed

/-- The copies as a machine, with the copy and the operation to take as its event. -/
def takes (step : Op → Stored → Stored) (count : Nat) : Machine (Copies Op Stored) (Nat × Nat) :=
  fun copies event => if event.1 < count then copies.take step event.1 event.2 else none

/-- One copy takes all that it has left. -/
def settle (step : Op → Stored → Stored) (copies : Copies Op Stored) (copy : Nat) :
    Copies Op Stored where
  stored := Function.update copies.stored copy
    (replay step (copies.stored copy) (copies.pending copy))
  pending := Function.update copies.pending copy []

theorem settle_reached {copy : Nat} (inside : copy < count) :
    Reaches (takes step count) copies (copies.settle step copy) := by
  generalize left : copies.pending copy = ops
  induction ops generalizing copies with
  | nil =>
    have same : copies.settle step copy = copies := by
      unfold settle
      rw [left, ← left, Function.update_eq_self]
      unfold replay
      rw [left, List.foldl_nil, Function.update_eq_self]
    rw [same]
    exact Run.start
  | cons op rest ih =>
    have isOp : (copies.pending copy)[0]? = some op := by
      rw [left]
      rfl
    have taken : takes step count copies (copy, 0) = some {
        stored := Function.update copies.stored copy (step op (copies.stored copy))
        pending := Function.update copies.pending copy rest } := by
      dsimp only [takes, take]
      rw [if_pos inside, isOp, left]
      rfl
    let next : Copies Op Stored := {
      stored := Function.update copies.stored copy (step op (copies.stored copy))
      pending := Function.update copies.pending copy rest }
    have later : Reaches (takes step count) next (next.settle step copy) :=
      ih (show Function.update copies.pending copy rest copy = rest from Function.update_self ..)
    have same : next.settle step copy = copies.settle step copy := by
      dsimp only [settle, next]
      rw [Function.update_self, Function.update_self, Function.update_idem, Function.update_idem,
        left]
      rfl
    rw [← same]
    exact run_trans (Run.next Run.start trivial taken) later

theorem settled_succ (settledCount : Nat) :
    copies.settled step (settledCount + 1) =
      (copies.settled step settledCount).settle step settledCount := by
  have outside : ¬ settledCount < settledCount := Nat.lt_irrefl _
  unfold settled settle
  congr 1 <;> funext copy
  · by_cases same : copy = settledCount
    · subst same
      dsimp only
      rw [Function.update_self, if_pos (Nat.lt_succ_self _), if_neg outside, if_neg outside]
    · have still : copy < settledCount + 1 ↔ copy < settledCount := by omega
      rw [Function.update_of_ne same]
      simp only [still]
  · by_cases same : copy = settledCount
    · subst same
      rw [Function.update_self, if_pos (Nat.lt_succ_self _)]
    · have still : copy < settledCount + 1 ↔ copy < settledCount := by omega
      rw [Function.update_of_ne same]
      simp only [still]

/-- The copies can be settled, one operation after another. -/
theorem settled_reached (count : Nat) (copies : Copies Op Stored) :
    Reaches (takes step count) copies (copies.settled step count) := by
  have each : ∀ settledCount, settledCount ≤ count →
      Reaches (takes step count) copies (copies.settled step settledCount) := by
    intro settledCount
    induction settledCount with
    | zero => exact fun _ => Run.start
    | succ settledCount ih =>
      intro inside
      rw [settled_succ]
      exact run_trans (ih (by omega)) (settle_reached (by omega))
  exact each count (Nat.le_refl count)

end

end Copies

end Replication
