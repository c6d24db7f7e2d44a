import Nebula.Lib.Interleaving

/- When one process comes to an end among others. Its own steps on the way are counted apart from
   what all others do, which is not bounded. -/
namespace Completion
open Interleaving
variable {Shared Proc Choice Outside : Type} {system : System Shared Proc Choice Outside}
  {guard : Guard Shared Proc Choice Outside} {pid : Nat} {first world after : World Shared Proc}

/-- How a run goes on, with the number of steps of one process and that of all others. -/
inductive Path (system : System Shared Proc Choice Outside)
    (guard : Guard Shared Proc Choice Outside) (pid : Nat) (first : World Shared Proc) :
    Nat → Nat → World Shared Proc → Prop where
  | start : Path system guard pid first 0 0 first
  | own {own others : Nat} {world after : World Shared Proc} {choice : Choice} :
    Path system guard pid first own others world → guard world (.proc pid choice) →
      act system world (.proc pid choice) = some after →
      Path system guard pid first (own + 1) others after
  | other {own others : Nat} {world after : World Shared Proc} {action : Action Choice Outside} :
    Path system guard pid first own others world → guard world action →
      (∀ choice, action ≠ .proc pid choice) → act system world action = some after →
      Path system guard pid first own (others + 1) after

/-- The process always has a step to take until it is done, and takes no more steps than there are
    for what the others do. -/
def Completes (system : System Shared Proc Choice Outside)
    (guard : Guard Shared Proc Choice Outside) (pid : Nat) (done : Proc → Prop)
    (world : World Shared Proc) : Prop :=
  ∃ bound rate, ∀ own others after, Path system guard pid world own others after →
    own ≤ bound + rate * others ∧
      (done (after.procs pid) ∨ ∃ choice next, act system after (.proc pid choice) = some next)

/-- A potential that each step of the process lowers and each step of another raises by no more
    than a rate. -/
theorem completes_of_potential {done : Proc → Prop} (Holds : World Shared Proc → Prop)
    (potential : World Shared Proc → Nat) (rate : Nat) (atFirst : Holds world)
    (kept : ∀ before action after, Holds before → guard before action →
      act system before action = some after → Holds after)
    (lowers : ∀ before choice after, Holds before → guard before (.proc pid choice) →
      act system before (.proc pid choice) = some after → potential after < potential before)
    (raises : ∀ before action after, Holds before → guard before action →
      (∀ choice, action ≠ .proc pid choice) → act system before action = some after →
      potential after ≤ potential before + rate)
    (going : ∀ before, Holds before → done (before.procs pid) ∨
      ∃ choice next, act system before (.proc pid choice) = some next) :
    Completes system guard pid done world := by
  refine ⟨potential world, rate, fun own others after path => ?_⟩
  have paid : Holds after ∧ own + potential after ≤ potential world + rate * others := by
    induction path with
    | start => exact ⟨atFirst, by omega⟩
    | own _ allowed acted ih =>
      obtain ⟨holds, paid⟩ := ih
      have lower := lowers _ _ _ holds allowed acted
      exact ⟨kept _ _ _ holds allowed acted, by omega⟩
    | other _ allowed another acted ih =>
      obtain ⟨holds, paid⟩ := ih
      have raise := raises _ _ _ holds allowed another acted
      refine ⟨kept _ _ _ holds allowed acted, ?_⟩
      rw [Nat.mul_succ]
      omega
  exact ⟨by omega, going after paid.1⟩

/-- A process that can take a step for ever without a change does not complete. -/
theorem not_completes_of_spin {done : Proc → Prop} {choice : Choice}
    (allowed : guard world (.proc pid choice))
    (spins : system.step pid choice world.shared (world.procs pid) =
      some (world.shared, world.procs pid)) : ¬Completes system guard pid done world := by
  have same : world.moved pid world.shared (world.procs pid) = world := by
    rw [World.moved, Function.update_eq_self]
  have acted := act_proc spins
  rw [same] at acted
  rintro ⟨bound, rate, bounded⟩
  have path : ∀ count, Path system guard pid world count 0 world := by
    intro count
    induction count with
    | zero => exact Path.start
    | succ count ih => exact Path.own ih allowed acted
  have few := (bounded _ _ _ (path (bound + 1))).1
  omega

end Completion
