import Mathlib.Tactic.Common

/- Keys that are gone from a moment on: a value with the moment at which it ends, if any, read and
   edited at a time. -/
namespace Expiring
variable {Value : Type}

structure Entry (Value : Type) where
  value : Value
  ends : Option ℕ

abbrev Cell (Value : Type) := Option (Entry Value)

section Commands
variable (now : ℕ)

/-- What is left at a time. -/
def live (cell : Cell Value) : Cell Value :=
  cell.filter fun entry => entry.ends.all fun ends => decide (now < ends)

def read (cell : Cell Value) : Option Value := (live now cell).map Entry.value

def writeUntil (ends : ℕ) (value : Value) : Cell Value := some ⟨value, some ends⟩

/-- An edit leaves the end as it is; what it makes of nothing has none. -/
def edit (f : Option Value → Value) (cell : Cell Value) : Cell Value :=
  some ⟨f (read now cell), (live now cell).bind Entry.ends⟩

def expireAt (ends : ℕ) (cell : Cell Value) : Cell Value :=
  (live now cell).map fun entry => { entry with ends := some ends }

end Commands

@[simp] theorem read_none (now : ℕ) : read now (none : Cell Value) = none := rfl

@[simp] theorem read_writeUntil (now ends : ℕ) (value : Value) :
    read now (writeUntil ends value) = if now < ends then some value else none := by
  by_cases inTime : now < ends <;> simp [read, live, writeUntil, Option.filter, inTime]

theorem live_ends {now ends : ℕ} {cell : Cell Value} {entry : Entry Value}
    (left : live now cell = some entry) (found : entry.ends = some ends) : now < ends := by
  obtain ⟨_, inTime⟩ := Option.filter_eq_some_iff.mp left
  simpa [found] using inTime

/-- What is left later is there before. -/
theorem live_earlier {now later : ℕ} (before : now ≤ later) {cell : Cell Value}
    {entry : Entry Value} (left : live later cell = some entry) : live now cell = some entry := by
  obtain ⟨found, _⟩ := Option.filter_eq_some_iff.mp left
  refine Option.filter_eq_some_iff.mpr ⟨found, ?_⟩
  simp only [Option.all_eq_true, decide_eq_true_eq]
  exact fun ends same => Nat.lt_of_le_of_lt before (live_ends left same)

theorem read_expireAt (earlier now ends : ℕ) (cell : Cell Value) :
    read now (expireAt earlier ends cell) = if now < ends then read earlier cell else none := by
  unfold read expireAt
  cases live earlier cell with
  | none => simp [live]
  | some entry => by_cases inTime : now < ends <;> simp [live, Option.filter, inTime]

theorem live_edit_now (now : ℕ) (f : Option Value → Value) (cell : Cell Value) :
    live now (edit now f cell) = edit now f cell := by
  unfold edit
  cases before : live now cell with
  | none => rfl
  | some entry =>
    refine Option.filter_eq_some_iff.mpr ⟨rfl, ?_⟩
    simp only [Option.bind_some, Option.all_eq_true, decide_eq_true_eq]
    exact fun ends found => live_ends before found

theorem read_edit_now (now : ℕ) (f : Option Value → Value) (cell : Cell Value) :
    read now (edit now f cell) = some (f (read now cell)) := by
  rw [read, live_edit_now]
  rfl

end Expiring
