import Mathlib.Order.Lattice
import Mathlib.Data.List.Basic

/- Entries with ascending ids, read one after the other by the id of the last. -/
namespace EntryStream
variable {Id Entry : Type}

/-- Whether an id is that of an entry. -/
def Known (id : Entry → Id) (entries : List Entry) (last : Id) : Prop :=
  ∃ entry ∈ entries, id entry = last

theorem known_append {id : Entry → Id} {entries : List Entry} {last : Id}
    (known : Known id entries last) (later : List Entry) : Known id (entries ++ later) last := by
  obtain ⟨own, member, same⟩ := known
  exact ⟨own, List.mem_append_left _ member, same⟩

variable [LinearOrder Id] (id : Entry → Id)

def after (entries : List Entry) (last : Id) : List Entry :=
  entries.filter fun entry => last < id entry

def firstAfter (entries : List Entry) (last : Id) : Option Entry :=
  entries.find? fun entry => last < id entry

def Ascending (entries : List Entry) : Prop :=
  entries.Pairwise fun entry later => id entry < id later

variable {id} {entries : List Entry} {entry : Entry} {last : Id}

theorem firstAfter_mem (found : firstAfter id entries last = some entry) :
    entry ∈ entries ∧ last < id entry := by
  have reached := List.find?_some found
  exact ⟨List.mem_of_find?_eq_some found, by simpa using reached⟩

theorem after_cons_of_lt (reached : last < id entry) (rest : List Entry) :
    after id (entry :: rest) last = entry :: after id rest last :=
  List.filter_cons_of_pos (by simpa using reached)

theorem after_cons_of_le (passed : id entry ≤ last) (rest : List Entry) :
    after id (entry :: rest) last = after id rest last :=
  List.filter_cons_of_neg (by simpa using passed)

/-- What is left to read is the entry that is read next and what is left after it. -/
theorem after_firstAfter (ascending : Ascending id entries)
    (found : firstAfter id entries last = some entry) :
    after id entries last = entry :: after id entries (id entry) := by
  induction entries with
  | nil => cases found
  | cons head rest ih =>
    obtain ⟨first, later⟩ := List.pairwise_cons.mp ascending
    unfold firstAfter at found
    by_cases reached : last < id head
    · rw [List.find?_cons_of_pos (by simpa using reached)] at found
      obtain rfl := Option.some.inj found
      have whole (bound : Id) (low : bound ≤ id head) : after id rest bound = rest := by
        refine List.filter_eq_self.mpr fun other member => ?_
        simpa using lt_of_le_of_lt low (first other member)
      rw [after_cons_of_lt reached, after_cons_of_le (le_refl _), whole last (le_of_lt reached),
        whole (id head) (le_refl _)]
    · rw [List.find?_cons_of_neg (by simpa using reached)] at found
      have passed := le_of_lt (first entry (List.mem_of_find?_eq_some found))
      rw [after_cons_of_le (not_lt.mp reached), after_cons_of_le passed]
      exact ih later found

theorem after_append (entries later : List Entry) :
    after id (entries ++ later) last = after id entries last ++ after id later last :=
  List.filter_append _ _

theorem ascending_append_one (ascending : Ascending id entries)
    (newest : ∀ other ∈ entries, id other < id entry) : Ascending id (entries ++ [entry]) := by
  refine List.pairwise_append.mpr ⟨ascending, List.pairwise_singleton _ _, ?_⟩
  intro other member own last
  rw [List.mem_singleton.mp last]
  exact newest other member

end EntryStream
