import Mathlib.Data.List.Chain
import Mathlib.Data.Nat.ModEq
import Mathlib.Tactic.Common

/- Counters that step by one modulo m. A list of consecutive values determines
   every value from the first one, so values less than a cycle apart differ. -/
namespace CyclicCounter

variable {α : Type} {m : Nat}

def succ (m value : Nat) : Nat := (value + 1) % m

theorem add_mod_ne {m a d : Nat} (pos : 0 < d) (within : d < m) : (a + d) % m ≠ a % m := by
  intro same
  have divides := (Nat.modEq_iff_dvd' (Nat.le_add_right a d)).mp same.symm
  rw [Nat.add_sub_cancel_left] at divides
  exact absurd (Nat.le_of_dvd pos divides) (Nat.not_le.mpr within)

theorem offset_of_chain {values : List Nat}
    (consecutive : List.IsChain (fun a b => b = succ m a) values) {i d : Nat} {a b : Nat}
    (first : values[i]? = some a) (second : values[i + d]? = some b) :
    b % m = (a + d) % m := by
  induction d generalizing b with
  | zero =>
    rw [Nat.add_zero, first] at second
    cases second
    rfl
  | succ d ih =>
    obtain ⟨inside, last⟩ := List.getElem?_eq_some_iff.mp second
    have before : i + d < values.length := by omega
    have step := List.isChain_iff_getElem.mp consecutive (i + d) inside
    have earlier := ih (List.getElem?_eq_getElem before)
    have value : b = succ m values[i + d] := last.symm.trans step
    rw [value, succ, Nat.mod_mod, Nat.add_mod, earlier, ← Nat.add_mod, Nat.add_assoc]

theorem distinct_of_chain {values : List Nat}
    (consecutive : List.IsChain (fun a b => b = succ m a) values) {i j a b : Nat}
    (before : i < j) (within : j < i + m) (first : values[i]? = some a)
    (second : values[j]? = some b) : a ≠ b := by
  intro same
  subst same
  have split : i + (j - i) = j := by omega
  rw [← split] at second
  have offset := offset_of_chain consecutive first second
  exact add_mod_ne (by omega) (by omega) offset.symm

end CyclicCounter
