import Mathlib.Data.List.Sort
import Mathlib.Order.Defs.LinearOrder
import Nebula.Lib.IndexMap

/- Sets whose members have scores. They stand in the order of their scores, and where two scores
   are equal in the order of the members. -/
namespace ScoredSet
variable {Member Score : Type} [LinearOrder Member] [LinearOrder Score]

def precedes (first second : Member × Score) : Bool :=
  decide (first.2 < second.2 ∨ first.2 = second.2 ∧ first.1 < second.1)

/-- How many stand before a member. -/
def rank (set : IndexMap Member Score) (member : Member) : Option ℕ :=
  (set.entries.lookup member).map fun score => set.entries.countP (precedes · (member, score))

def range (set : IndexMap Member Score) : List Member :=
  (set.entries.insertionSort fun first second => precedes second first = false).map Prod.fst

theorem score_le_of_first {set : IndexMap Member Score} {member : Member} {score : Score}
    (found : set.entries.lookup member = some score) (first : rank set member = some 0)
    {entry : Member × Score} (among : entry ∈ set.entries) : score ≤ entry.2 := by
  rw [rank, found, Option.map_some, Option.some.injEq, List.countP_eq_zero] at first
  have behind := first entry among
  simp only [precedes, decide_eq_true_eq, not_or, not_lt] at behind
  exact behind.1

/-- Those with a lesser score stand before. -/
theorem count_le_rank {set : IndexMap Member Score} {member : Member} {score : Score}
    (found : set.entries.lookup member = some score) {position : ℕ}
    (ranked : rank set member = some position) (earlier : Member × Score → Bool)
    (less : ∀ entry, earlier entry = true → entry.2 < score) :
    set.entries.countP earlier ≤ position := by
  rw [rank, found, Option.map_some, Option.some.injEq] at ranked
  subst ranked
  apply List.countP_mono_left
  intro entry _ before
  simp only [precedes, decide_eq_true_eq]
  exact Or.inl (less entry before)

theorem mem_range {set : IndexMap Member Score} {member : Member} :
    member ∈ range set ↔ ∃ score, set.entries.lookup member = some score := by
  rw [range, List.mem_map]
  constructor
  · rintro ⟨⟨other, score⟩, among, rfl⟩
    refine ⟨score, (set.mem_iff_lookup other score).mp ?_⟩
    exact (List.perm_insertionSort _ _).subset among
  · rintro ⟨score, found⟩
    refine ⟨(member, score), ?_, rfl⟩
    exact (List.perm_insertionSort _ _).symm.subset ((set.mem_iff_lookup member score).mpr found)

end ScoredSet
