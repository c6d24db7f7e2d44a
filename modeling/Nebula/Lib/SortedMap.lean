import Mathlib.Data.List.DropRight
import Mathlib.Data.List.Nodup
import Mathlib.Order.Lattice

/- Maps that keep their entries in the order of their keys. -/

structure SortedMap (Key Value : Type) [LinearOrder Key] where
  entries : List (Key × Value)
  sorted : entries.Pairwise fun earlier later => earlier.1 < later.1

namespace SortedMap
variable {Key Value : Type} [LinearOrder Key]

@[ext] theorem ext {left right : SortedMap Key Value} (same : left.entries = right.entries) :
    left = right := by
  cases left
  cases right
  cases same
  rfl

def empty : SortedMap Key Value := ⟨[], List.Pairwise.nil⟩

def keys (map : SortedMap Key Value) : List Key := map.entries.map Prod.fst

theorem keys_nodup (map : SortedMap Key Value) : map.keys.Nodup :=
  (List.pairwise_map.mpr map.sorted).imp fun {_ _} before => ne_of_lt before

/-- A key has one value. -/
theorem value_unique (map : SortedMap Key Value) {key : Key} {one other : Value}
    (first : (key, one) ∈ map.entries) (second : (key, other) ∈ map.entries) : one = other :=
  congrArg Prod.snd (List.inj_on_of_nodup_map map.keys_nodup first second rfl)

def place (key : Key) (value : Value) : List (Key × Value) → List (Key × Value)
  | [] => [(key, value)]
  | entry :: rest =>
    if key < entry.1 then (key, value) :: entry :: rest
    else if key = entry.1 then (key, value) :: rest
    else entry :: place key value rest

theorem mem_place {key : Key} {value : Value} {entries : List (Key × Value)} {entry : Key × Value}
    (member : entry ∈ place key value entries) : entry = (key, value) ∨ entry ∈ entries := by
  induction entries with
  | nil => exact Or.inl (List.mem_singleton.mp member)
  | cons head rest ih =>
    unfold place at member
    split at member
    · exact List.mem_cons.mp member
    · split at member
      · exact (List.mem_cons.mp member).imp_right (List.mem_cons_of_mem _)
      · rcases List.mem_cons.mp member with rfl | later
        · exact Or.inr List.mem_cons_self
        · exact (ih later).imp_right (List.mem_cons_of_mem _)

theorem place_sorted (key : Key) (value : Value) {entries : List (Key × Value)}
    (sorted : entries.Pairwise fun earlier later => earlier.1 < later.1) :
    (place key value entries).Pairwise fun earlier later => earlier.1 < later.1 := by
  induction entries with
  | nil => exact List.pairwise_singleton _ _
  | cons head rest ih =>
    obtain ⟨before, later⟩ := List.pairwise_cons.mp sorted
    unfold place
    split
    · rename_i smaller
      refine List.pairwise_cons.mpr ⟨fun entry member => ?_, sorted⟩
      rcases List.mem_cons.mp member with rfl | member
      · exact smaller
      · exact lt_trans smaller (before entry member)
    · rename_i notSmaller
      split
      · rename_i same
        subst same
        exact List.pairwise_cons.mpr ⟨before, later⟩
      · rename_i different
        refine List.pairwise_cons.mpr ⟨fun entry member => ?_, ih later⟩
        rcases mem_place member with rfl | member
        · exact lt_of_le_of_ne (not_lt.mp notSmaller) (Ne.symm different)
        · exact before entry member

theorem place_length (key : Key) (value : Value) (entries : List (Key × Value)) :
    (place key value entries).length ≤ entries.length + 1 := by
  induction entries with
  | nil => exact Nat.le_refl 1
  | cons head rest ih =>
    unfold place
    split
    · exact Nat.le_refl _
    · split
      · exact Nat.le_succ _
      · exact Nat.succ_le_succ ih

def insert (map : SortedMap Key Value) (key : Key) (value : Value) : SortedMap Key Value :=
  ⟨place key value map.entries, place_sorted key value map.sorted⟩

/-- A key above all others goes to the end. -/
theorem insert_last (map : SortedMap Key Value) (key : Key) (value : Value)
    (above : ∀ entry ∈ map.entries, entry.1 < key) :
    (map.insert key value).entries = map.entries ++ [(key, value)] := by
  show place key value map.entries = _
  revert above
  generalize map.entries = entries
  induction entries with
  | nil =>
    intro _
    rfl
  | cons head rest ih =>
    intro above
    have smaller := above head List.mem_cons_self
    unfold place
    rw [if_neg (lt_asymm smaller), if_neg (ne_of_gt smaller),
      ih fun entry member => above entry (List.mem_cons_of_mem _ member)]
    rfl

/-- Keeps the entries for which there is a value, with that value. -/
def retain (map : SortedMap Key Value) (kept : Key → Value → Option Value) :
    SortedMap Key Value where
  entries := map.entries.filterMap fun entry => (kept entry.1 entry.2).map (Prod.mk entry.1)
  sorted := map.sorted.filterMap _ (by
    intro one other before first left second right
    obtain ⟨_, _, rfl⟩ := Option.map_eq_some_iff.mp left
    obtain ⟨_, _, rfl⟩ := Option.map_eq_some_iff.mp right
    exact before)

theorem mem_retain {map : SortedMap Key Value} {kept : Key → Value → Option Value} {key : Key}
    {value : Value} : (key, value) ∈ (map.retain kept).entries ↔
      ∃ before, (key, before) ∈ map.entries ∧ kept key before = some value := by
  show (key, value) ∈ map.entries.filterMap _ ↔ _
  rw [List.mem_filterMap]
  constructor
  · rintro ⟨⟨own, before⟩, member, is⟩
    obtain ⟨after, keeps, same⟩ := Option.map_eq_some_iff.mp is
    cases same
    exact ⟨before, member, keeps⟩
  · rintro ⟨before, member, keeps⟩
    exact ⟨(key, before), member, by rw [keeps]; rfl⟩

theorem retain_length (map : SortedMap Key Value) (kept : Key → Value → Option Value) :
    (map.retain kept).entries.length ≤ map.entries.length :=
  List.length_filterMap_le _ _

def erase (map : SortedMap Key Value) (key : Key) : SortedMap Key Value where
  entries := map.entries.filter fun entry => entry.1 ≠ key
  sorted := map.sorted.filter _

theorem mem_erase {map : SortedMap Key Value} {key : Key} {entry : Key × Value} :
    entry ∈ (map.erase key).entries ↔ entry ∈ map.entries ∧ entry.1 ≠ key := by
  show entry ∈ map.entries.filter _ ↔ _
  rw [List.mem_filter, decide_eq_true_eq]

theorem erase_length (map : SortedMap Key Value) (key : Key) :
    (map.erase key).entries.length ≤ map.entries.length :=
  List.length_filter_le _ _

theorem erase_first (map : SortedMap Key Value) {first : Key × Value} {rest : List (Key × Value)}
    (starts : map.entries = first :: rest) : (map.erase first.1).entries = rest := by
  have sorted := map.sorted
  rw [starts] at sorted
  show map.entries.filter _ = rest
  rw [starts, List.filter_cons_of_neg (by simp)]
  exact List.filter_eq_self.mpr fun entry member =>
    decide_eq_true (ne_of_gt ((List.pairwise_cons.mp sorted).1 entry member))

end SortedMap
