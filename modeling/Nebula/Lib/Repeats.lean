import Mathlib.Data.List.Basic
import Mathlib.Logic.ExistsUnique
import Mathlib.Tactic.Common

/- A stream of items of which one is dropped when its key is that of the item just before. -/
namespace Repeats
variable {Item Key : Type} (key : Item → Key)

/-- The key of the item before a place, the first of which comes after an item with that key, if
    any. -/
def keyBefore (last : Option Key) (items : List Item) : Nat → Option Key
  | 0 => last
  | i + 1 => items[i]?.map key

/-- The item at a place is not preceded by one with its key. -/
def Opens (last : Option Key) (items : List Item) (i : Nat) (item : Item) : Prop :=
  items[i]? = some item ∧ keyBefore key last items i ≠ some (key item)

theorem opens_zero_iff {last : Option Key} {head item : Item} {rest : List Item} :
    Opens key last (head :: rest) 0 item ↔ item = head ∧ last ≠ some (key head) := by
  unfold Opens
  rw [List.getElem?_cons_zero, Option.some.injEq]
  constructor
  · rintro ⟨rfl, other⟩
    exact ⟨rfl, other⟩
  · rintro ⟨rfl, other⟩
    exact ⟨rfl, other⟩

theorem opens_succ_iff {last : Option Key} {head item : Item} {rest : List Item} {i : Nat} :
    Opens key last (head :: rest) (i + 1) item ↔ Opens key (some (key head)) rest i item := by
  cases i with
  | zero => rfl
  | succ i => rfl

theorem not_opens_nil {last : Option Key} {i : Nat} {item : Item} : ¬ Opens key last [] i item := by
  rintro ⟨found, _⟩
  rw [List.getElem?_nil] at found
  cases found

/-- Places with a property, of which the first is told apart. -/
theorem existsUnique_succ_iff {Q : Nat → Prop} :
    (∃! i, Q i) ↔ (Q 0 ∧ ∀ i, ¬ Q (i + 1)) ∨ (¬ Q 0 ∧ ∃! i, Q (i + 1)) := by
  constructor
  · rintro ⟨i, holds, only⟩
    cases i with
    | zero =>
      refine Or.inl ⟨holds, fun j other => ?_⟩
      have := only (j + 1) other
      omega
    | succ i =>
      refine Or.inr ⟨fun first => ?_, i, holds, fun j other => ?_⟩
      · have := only 0 first
        omega
      · have := only (j + 1) other
        omega
  · rintro (⟨first, others⟩ | ⟨first, i, holds, only⟩)
    · refine ⟨0, first, fun j other => ?_⟩
      cases j with
      | zero => rfl
      | succ j => exact absurd other (others j)
    · refine ⟨i + 1, holds, fun j other => ?_⟩
      cases j with
      | zero => exact absurd other first
      | succ j => rw [only j other]

variable [DecidableEq Key]

/-- The items that are not dropped. -/
def firsts : Option Key → List Item → List Item
  | _, [] => []
  | last, item :: rest =>
    if last = some (key item) then firsts last rest else item :: firsts (some (key item)) rest

theorem firsts_cons (last : Option Key) (item : Item) (rest : List Item) :
    firsts key last (item :: rest) =
      (if last = some (key item) then [] else [item]) ++ firsts key (some (key item)) rest := by
  rw [firsts]
  by_cases same : last = some (key item)
  · rw [if_pos same, if_pos same, same, List.nil_append]
  · rw [if_neg same, if_neg same, List.singleton_append]

theorem firsts_append_alike {last : Option Key} {item : Item} {same rest : List Item}
    (alike : ∀ other ∈ same, key other = key item) :
    firsts key last (item :: same ++ rest) =
      (if last = some (key item) then [] else [item]) ++ firsts key (some (key item)) rest := by
  rw [List.cons_append, firsts_cons]
  congr 1
  induction same with
  | nil => rfl
  | cons other same ih =>
    rw [List.cons_append, firsts_cons, alike other List.mem_cons_self, if_pos rfl, List.nil_append]
    exact ih fun later listed => alike later (List.mem_cons_of_mem _ listed)

/-- Blocks of items with one key each, of which some are lost, but no block whole: one item of
    each block is kept. -/
theorem firsts_blocks {Value : Type} (value : Item → Value) (blocks : List (List Item)) :
    ∀ (last : Option Key) (items : List Item), items.Sublist blocks.flatten →
      (∀ block ∈ blocks, ∀ item ∈ block, ∀ other ∈ block,
        key item = key other ∧ value item = value other) →
      blocks.Pairwise (fun block later => ∀ item ∈ block, ∀ other ∈ later, key item ≠ key other) →
      (∀ block ∈ blocks, ∃ item ∈ block, ∃ got ∈ items, key got = key item) →
      (∀ block ∈ blocks, ∀ item ∈ block, last ≠ some (key item)) →
      (firsts key last items).map value = blocks.filterMap (fun block => block.head?.map value) := by
  induction blocks with
  | nil =>
    intro last items kept _ _ _ _
    rw [List.flatten_nil, List.sublist_nil] at kept
    subst kept
    rfl
  | cons block blocks ih =>
    intro last items kept alike apart heard new
    rw [List.flatten_cons] at kept
    obtain ⟨here, later, rfl, keptHere, keptLater⟩ := List.sublist_append_iff.mp kept
    obtain ⟨apartHere, apartLater⟩ := List.pairwise_cons.mp apart
    have laterKey : ∀ got ∈ later, ∀ item ∈ block, key item ≠ key got := by
      intro got listed item inside
      obtain ⟨other, among, within⟩ := List.mem_flatten.mp (keptLater.subset listed)
      exact apartHere other among item inside got within
    have hereNot : ∀ other ∈ blocks, ∀ item ∈ other, ∀ got ∈ here, key got ≠ key item :=
      fun other among item inside got listed =>
        apartHere other among got (keptHere.subset listed) item inside
    cases here with
    | nil =>
      obtain ⟨item, inside, got, listed, same⟩ := heard block List.mem_cons_self
      exact absurd same.symm (laterKey got listed item inside)
    | cons item more =>
      have inside : item ∈ block := keptHere.subset List.mem_cons_self
      have moreAlike : ∀ other ∈ more, key other = key item := fun other listed =>
        (alike block List.mem_cons_self other (keptHere.subset (List.mem_cons_of_mem _ listed))
          item inside).1
      obtain ⟨head, tail, rfl⟩ : ∃ head tail, block = head :: tail := by
        cases block with
        | nil => cases inside
        | cons head tail => exact ⟨head, tail, rfl⟩
      rw [firsts_append_alike key moreAlike, if_neg (new _ List.mem_cons_self item inside),
        List.singleton_append, List.map_cons,
        (alike _ List.mem_cons_self item inside head List.mem_cons_self).2]
      simp only [List.filterMap_cons, List.head?_cons, Option.map_some]
      congr 1
      apply ih (some (key item)) later keptLater
      · exact fun other among => alike other (List.mem_cons_of_mem _ among)
      · exact apartLater
      · intro other among
        obtain ⟨wanted, within, got, listed, same⟩ := heard other (List.mem_cons_of_mem _ among)
        refine ⟨wanted, within, got, ?_, same⟩
        rcases List.mem_append.mp listed with early | late
        · exact absurd same (hereNot other among wanted within got early)
        · exact late
      · intro other among wanted within same
        exact apartHere other among item inside wanted within (Option.some.inj same)

variable (p : Item → Bool)

theorem none_opens_iff (items : List Item) : ∀ last : Option Key,
    (firsts key last items).countP p = 0 ↔ ∀ i, ¬ ∃ item, Opens key last items i item ∧ p item = true := by
  induction items with
  | nil =>
    intro last
    refine iff_of_true rfl fun i => ?_
    rintro ⟨item, opens, _⟩
    exact not_opens_nil key opens
  | cons head rest ih =>
    intro last
    rw [firsts_cons, List.countP_append, Nat.add_eq_zero_iff, ih]
    have here : List.countP p (if last = some (key head) then [] else [head]) = 0 ↔
        ¬ ∃ item, Opens key last (head :: rest) 0 item ∧ p item = true := by
      by_cases same : last = some (key head)
      · simp [opens_zero_iff, same]
      · simp [opens_zero_iff, same]
    rw [here]
    constructor
    · rintro ⟨first, later⟩ i
      cases i with
      | zero => exact first
      | succ i =>
        simp only [opens_succ_iff]
        exact later i
    · intro none
      refine ⟨none 0, fun i => ?_⟩
      have later := none (i + 1)
      simpa only [opens_succ_iff] using later

/-- Exactly one of the items that are not dropped is of a kind, exactly if there is one place
    where such an item opens. -/
theorem one_opens_iff (items : List Item) : ∀ last : Option Key,
    (firsts key last items).countP p = 1 ↔ ∃! i, ∃ item, Opens key last items i item ∧ p item = true := by
  induction items with
  | nil =>
    intro last
    refine iff_of_false (by simp [firsts]) ?_
    rintro ⟨i, ⟨item, opens, _⟩, _⟩
    exact not_opens_nil key opens
  | cons head rest ih =>
    intro last
    rw [firsts_cons, List.countP_append, existsUnique_succ_iff]
    simp only [opens_succ_iff, opens_zero_iff]
    rw [← ih, ← none_opens_iff]
    by_cases same : last = some (key head)
    · simp [same]
    · by_cases kind : p head = true
      · simp [same, kind]
      · simp [same, kind]

end Repeats
