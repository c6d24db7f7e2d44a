import Mathlib.Data.List.Nodup
import Mathlib.Algebra.Order.BigOperators.Group.List
import Mathlib.Algebra.GroupWithZero.Nat

/- Maps that keep their keys in the order in which they came in; a new value for a
   known key takes the old one's place. -/

structure IndexMap (Key Value : Type) where
  entries : List (Key × Value)
  nodup : (entries.map Prod.fst).Nodup

namespace IndexMap

variable {Key Value : Type}

@[ext] theorem ext {left right : IndexMap Key Value} (same : left.entries = right.entries) :
    left = right := by
  cases left
  cases right
  cases same
  rfl

def empty : IndexMap Key Value := ⟨[], List.nodup_nil⟩

@[simp] theorem entries_empty : (empty : IndexMap Key Value).entries = [] := rfl

instance decidableEq [DecidableEq Key] [DecidableEq Value] : DecidableEq (IndexMap Key Value) :=
  fun left right => decidable_of_iff (left.entries = right.entries)
    ⟨ext, fun same => congrArg entries same⟩

section Put
variable [DecidableEq Key]

/-- A map holds what it finds. -/
theorem mem_iff_lookup (map : IndexMap Key Value) (key : Key) (value : Value) :
    (key, value) ∈ map.entries ↔ map.entries.lookup key = some value := by
  obtain ⟨entries, nodup⟩ := map
  induction entries with
  | nil => simp
  | cons head rest ih =>
    obtain ⟨first, held⟩ := head
    rw [List.map_cons, List.nodup_cons] at nodup
    rw [List.mem_cons, List.lookup_cons]
    by_cases same : key = first
    · subst same
      have later : (key, value) ∉ rest := by
        intro member
        exact nodup.1 (List.mem_map.mpr ⟨(key, value), member, rfl⟩)
      simp [later, eq_comm]
    · rw [beq_false_of_ne same, ← ih nodup.2]
      simp [same]

def put (key : Key) (value : Value) : List (Key × Value) → List (Key × Value)
  | [] => [(key, value)]
  | entry :: rest =>
    if entry.1 = key then (key, value) :: rest else entry :: put key value rest

theorem put_new (key : Key) (value : Value) (entries : List (Key × Value))
    (absent : key ∉ entries.map Prod.fst) : put key value entries = entries ++ [(key, value)] := by
  induction entries with
  | nil => rfl
  | cons entry rest ih =>
    rw [List.map_cons, List.mem_cons, not_or] at absent
    have other : entry.1 ≠ key := fun same => absent.1 same.symm
    simp [put, other, ih absent.2]

theorem keys_put_known (key : Key) (value : Value) (entries : List (Key × Value))
    (known : key ∈ entries.map Prod.fst) :
    (put key value entries).map Prod.fst = entries.map Prod.fst := by
  induction entries with
  | nil => cases known
  | cons entry rest ih =>
    by_cases same : entry.1 = key
    · simp [put, same]
    · have later : key ∈ rest.map Prod.fst := by
        rcases List.mem_cons.mp known with first | later
        · exact absurd first.symm same
        · exact later
      simp [put, same, ih later]

theorem mem_put (key : Key) (value : Value) (entries : List (Key × Value)) :
    ∀ entry ∈ put key value entries, entry = (key, value) ∨ entry ∈ entries := by
  induction entries with
  | nil => simp [put]
  | cons head rest ih =>
    intro entry member
    unfold put at member
    split at member
    · rcases List.mem_cons.mp member with new | old
      · exact Or.inl new
      · exact Or.inr (List.mem_cons_of_mem _ old)
    · rcases List.mem_cons.mp member with rfl | later
      · exact Or.inr List.mem_cons_self
      · exact (ih entry later).imp_right (List.mem_cons_of_mem _)

theorem sum_put (weight : Key × Value → Nat) (key : Key) (value : Value)
    (entries : List (Key × Value)) :
    ((put key value entries).map weight).sum ≤ (entries.map weight).sum + weight (key, value) := by
  induction entries with
  | nil => simp [put]
  | cons head rest ih =>
    unfold put
    split
    · simp only [List.map_cons, List.sum_cons]
      omega
    · simp only [List.map_cons, List.sum_cons]
      omega

/-- What a put adds to a sum and what it takes away. -/
theorem sum_put_old (weight : Key × Value → Nat) (key : Key) (value : Value)
    (entries : List (Key × Value)) :
    ((put key value entries).map weight).sum +
        ((entries.lookup key).map fun old => weight (key, old)).getD 0 =
      (entries.map weight).sum + weight (key, value) := by
  induction entries with
  | nil => simp [put]
  | cons head rest ih =>
    obtain ⟨other, old⟩ := head
    unfold put
    by_cases same : other = key
    · subst same
      rw [if_pos rfl, List.lookup_cons, beq_self_eq_true]
      simp only [List.map_cons, List.sum_cons, Option.map_some, Option.getD_some]
      omega
    · have differs : (key == other) = false := beq_false_of_ne fun equal => same equal.symm
      rw [if_neg same, List.lookup_cons, differs]
      simp only [List.map_cons, List.sum_cons]
      omega

theorem lookup_put (key : Key) (value : Value) (other : Key) (entries : List (Key × Value)) :
    (put key value entries).lookup other =
      if other = key then some value else entries.lookup other := by
  induction entries with
  | nil =>
    by_cases same : other = key
    · simp [put, same]
    · simp [put, List.lookup_cons, same, beq_false_of_ne same]
  | cons head rest ih =>
    obtain ⟨first, old⟩ := head
    unfold put
    by_cases held : first = key
    · subst held
      by_cases same : other = first
      · simp [same]
      · simp [List.lookup_cons, same, beq_false_of_ne same]
    · rw [if_neg held, List.lookup_cons, ih, List.lookup_cons]
      by_cases same : other = first
      · subst same
        simp [held]
      · simp [beq_false_of_ne same]

def insert (key : Key) (value : Value) (map : IndexMap Key Value) : IndexMap Key Value where
  entries := put key value map.entries
  nodup := by
    by_cases known : key ∈ map.entries.map Prod.fst
    · rw [keys_put_known key value map.entries known]
      exact map.nodup
    · rw [put_new key value map.entries known, List.map_append]
      exact List.Nodup.append map.nodup (by simp) (by simpa using known)

theorem mem_insert {key : Key} {value : Value} {map : IndexMap Key Value} {entry : Key × Value}
    (member : entry ∈ (map.insert key value).entries) :
    entry = (key, value) ∨ entry ∈ map.entries :=
  mem_put key value map.entries entry member

theorem mem_keys_insert {key : Key} {value : Value} {other : Key} {map : IndexMap Key Value} :
    other ∈ (map.insert key value).entries.map Prod.fst ↔
      other = key ∨ other ∈ map.entries.map Prod.fst := by
  show other ∈ (put key value map.entries).map Prod.fst ↔ _
  by_cases known : key ∈ map.entries.map Prod.fst
  · rw [keys_put_known key value map.entries known]
    constructor
    · exact Or.inr
    · rintro (rfl | member)
      · exact known
      · exact member
  · rw [put_new key value map.entries known, List.map_append, List.mem_append, or_comm]
    simp

theorem lookup_insert (key : Key) (value : Value) (other : Key) (map : IndexMap Key Value) :
    (map.insert key value).entries.lookup other =
      if other = key then some value else map.entries.lookup other :=
  lookup_put key value other map.entries

theorem sum_insert_old (weight : Key × Value → Nat) (key : Key) (value : Value)
    (map : IndexMap Key Value) :
    ((map.insert key value).entries.map weight).sum +
        ((map.entries.lookup key).map fun old => weight (key, old)).getD 0 =
      (map.entries.map weight).sum + weight (key, value) :=
  sum_put_old weight key value map.entries

theorem sum_insert (weight : Key × Value → Nat) (key : Key) (value : Value)
    (map : IndexMap Key Value) :
    ((map.insert key value).entries.map weight).sum ≤
      (map.entries.map weight).sum + weight (key, value) :=
  sum_put weight key value map.entries

theorem countP_put_le (holds : Key × Value → Bool) (key : Key) (value : Value)
    (entries : List (Key × Value)) (not : ¬holds (key, value) = true) :
    (put key value entries).countP holds ≤ entries.countP holds := by
  induction entries with
  | nil => simp [put, not]
  | cons head rest ih =>
    unfold put
    split
    · rw [List.countP_cons_of_neg not]
      exact (List.sublist_cons_self head rest).countP_le
    · simp only [List.countP_cons]
      omega

theorem countP_insert_le {holds : Key × Value → Bool} {key : Key} {value : Value}
    (map : IndexMap Key Value) (not : ¬holds (key, value) = true) :
    (map.insert key value).entries.countP holds ≤ map.entries.countP holds :=
  countP_put_le holds key value map.entries not

def erase (key : Key) (map : IndexMap Key Value) : IndexMap Key Value where
  entries := map.entries.filter fun entry => entry.1 ≠ key
  nodup := map.nodup.sublist (List.filter_sublist.map Prod.fst)

theorem lookup_erase (key other : Key) (map : IndexMap Key Value) :
    (map.erase key).entries.lookup other =
      if other = key then none else map.entries.lookup other := by
  show (map.entries.filter fun entry => entry.1 ≠ key).lookup other = _
  generalize map.entries = entries
  induction entries with
  | nil => simp
  | cons head rest ih =>
    obtain ⟨first, old⟩ := head
    rw [List.filter_cons]
    by_cases gone : first = key
    · subst gone
      rw [if_neg (by simp), ih, List.lookup_cons]
      by_cases same : other = first
      · simp [same]
      · simp [same, beq_false_of_ne same]
    · rw [if_pos (by simpa using gone), List.lookup_cons, List.lookup_cons, ih]
      by_cases same : other = first
      · subst same
        simp [gone]
      · simp [beq_false_of_ne same]

/-- A map with one more entry at its end. -/
theorem insert_next {map : IndexMap Key Value} {key : Key} {value : Value}
    {before after : List (Key × Value)} (whole : map.entries = before ++ (key, value) :: after)
    (partly : IndexMap Key Value) (start : partly.entries = before) :
    (partly.insert key value).entries = before ++ [(key, value)] := by
  have distinct := map.nodup
  rw [whole, List.map_append, List.map_cons] at distinct
  have absent : key ∉ before.map Prod.fst := by
    intro known
    exact List.disjoint_of_nodup_append distinct known List.mem_cons_self
  show put key value partly.entries = _
  rw [start, put_new key value before absent]

/-- Inserting the entries of a map in their order builds the map again. -/
theorem rebuild (map : IndexMap Key Value) :
    map.entries.foldl (fun partly entry => partly.insert entry.1 entry.2) empty = map := by
  have step : ∀ (after before : List (Key × Value)) (partly : IndexMap Key Value),
      map.entries = before ++ after → partly.entries = before →
      after.foldl (fun partly entry => partly.insert entry.1 entry.2) partly = map := by
    intro after
    induction after with
    | nil =>
      intro before partly whole start
      rw [List.append_nil] at whole
      exact ext (start.trans whole.symm)
    | cons entry after ih =>
      intro before partly whole start
      refine ih (before ++ [entry]) (partly.insert entry.1 entry.2) (by simpa using whole) ?_
      exact insert_next whole partly start
  exact step map.entries [] empty rfl rfl

end Put

end IndexMap
