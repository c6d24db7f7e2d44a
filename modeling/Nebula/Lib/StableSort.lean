import Mathlib.Data.List.Sort
import Mathlib.Data.List.TakeWhile

/- Stable sorting by a key, and what a search from the end of the sorted list finds: of the
   items that are looked for, one with the greatest key, and the last of those. -/
namespace StableSort
variable {Item Key : Type} [LinearOrder Key]

def byKey (key : Item → Key) (items : List Item) : List Item :=
  items.insertionSort fun one two => key one ≤ key two

/-- Of the items that are kept, the last of those with the greatest key. -/
def Chosen (key : Item → Key) (keep : Item → Bool) (items : List Item) (item : Item) : Prop :=
  ∃ before after, items = before ++ item :: after ∧ keep item = true ∧
    (∀ other ∈ before, keep other = true → key other ≤ key item) ∧
    (∀ other ∈ after, keep other = true → key other < key item)

/-- Two keys put two items in the same order. -/
def SameOrder {Other : Type} [LinearOrder Other] (key : Item → Key) (rank : Item → Other)
    (one two : Item) : Prop :=
  key one ≤ key two ↔ rank one ≤ rank two

theorem perm_byKey (key : Item → Key) (items : List Item) : (byKey key items).Perm items :=
  List.perm_insertionSort _ items

theorem byKey_sorted (key : Item → Key) (items : List Item) :
    (byKey key items).Pairwise fun one two => key one ≤ key two := by
  have total : Std.Total fun one two : Item => key one ≤ key two := ⟨fun _ _ => le_total _ _⟩
  have trans : IsTrans Item fun one two => key one ≤ key two := ⟨fun _ _ _ => le_trans⟩
  exact List.pairwise_insertionSort _ items

theorem Chosen.mem {key : Item → Key} {keep : Item → Bool} {items : List Item} {item : Item}
    (chosen : Chosen key keep items item) : item ∈ items := by
  obtain ⟨before, after, rfl, _⟩ := chosen
  exact List.mem_append_right _ List.mem_cons_self

theorem Chosen.greatest {key : Item → Key} {keep : Item → Bool} {items : List Item} {item : Item}
    (chosen : Chosen key keep items item) {other : Item} (member : other ∈ items)
    (kept : keep other = true) : key other ≤ key item := by
  obtain ⟨before, after, rfl, _, early, late⟩ := chosen
  rcases List.mem_append.mp member with left | rest
  · exact early other left kept
  · rcases List.mem_cons.mp rest with rfl | right
    · exact le_refl _
    · exact le_of_lt (late other right kept)

/-- Only the order of the keys of the kept items counts. -/
theorem Chosen.of_order {Other : Type} [LinearOrder Other] {key : Item → Key} {rank : Item → Other}
    {keep : Item → Bool} {items : List Item} {item : Item}
    (same : ∀ one ∈ items, ∀ two ∈ items, keep one = true → keep two = true →
      SameOrder key rank one two) (chosen : Chosen key keep items item) :
    Chosen rank keep items item := by
  have own := chosen.mem
  obtain ⟨before, after, shape, kept, early, late⟩ := chosen
  refine ⟨before, after, shape, kept, ?_, ?_⟩
  · intro other left held
    have member : other ∈ items := shape ▸ List.mem_append_left _ left
    exact (same other member item own held kept).mp (early other left held)
  · intro other right held
    have member : other ∈ items :=
      shape ▸ List.mem_append_right _ (List.mem_cons_of_mem _ right)
    have above := late other right held
    rw [← not_le] at above ⊢
    exact fun less => above ((same item own other member kept held).mpr less)

theorem Chosen.of_keep {key : Item → Key} {keep alike : Item → Bool} {items : List Item}
    {item : Item} (same : ∀ item ∈ items, keep item = alike item)
    (chosen : Chosen key keep items item) : Chosen key alike items item := by
  have own := chosen.mem
  obtain ⟨before, after, shape, kept, early, late⟩ := chosen
  refine ⟨before, after, shape, same item own ▸ kept, ?_, ?_⟩
  · intro other left held
    have member : other ∈ items := shape ▸ List.mem_append_left _ left
    exact early other left (by rw [same other member]; exact held)
  · intro other right held
    have member : other ∈ items :=
      shape ▸ List.mem_append_right _ (List.mem_cons_of_mem _ right)
    exact late other right (by rw [same other member]; exact held)

/-- What a search from the end finds once an item has been put into a sorted list. -/
theorem find_insert {key : Item → Key} {keep : Item → Bool} {sorted : List Item}
    (order : sorted.Pairwise fun one two => key one ≤ key two) (item : Item) :
    (∃ found, sorted.reverse.find? keep = some found ∧ key item ≤ key found ∧
      (sorted.orderedInsert (fun one two => key one ≤ key two) item).reverse.find? keep =
        some found) ∨
    ((∀ found, sorted.reverse.find? keep = some found → key found < key item) ∧
      (sorted.orderedInsert (fun one two => key one ≤ key two) item).reverse.find? keep =
        if keep item then some item else sorted.reverse.find? keep) := by
  rw [List.orderedInsert_eq_take_drop]
  have parts := @List.takeWhile_append_dropWhile _
    (fun other => decide ¬ key item ≤ key other) sorted
  have below : ∀ other ∈ sorted.takeWhile (fun other => decide ¬ key item ≤ key other),
      key other < key item := by
    intro other member
    have early := List.mem_takeWhile_imp member
    exact not_le.mp (of_decide_eq_true early)
  have above : ∀ other ∈ sorted.dropWhile (fun other => decide ¬ key item ≤ key other),
      key item ≤ key other := by
    have heads := List.head?_dropWhile_not (fun other => decide ¬ key item ≤ key other) sorted
    have rest := order.sublist (List.dropWhile_sublist fun other => decide ¬ key item ≤ key other)
    cases shape : sorted.dropWhile (fun other => decide ¬ key item ≤ key other) with
    | nil => exact fun _ member => absurd member List.not_mem_nil
    | cons head tail =>
      rw [shape] at heads rest
      have low : key item ≤ key head := not_not.mp (of_decide_eq_false heads)
      intro other member
      rcases List.mem_cons.mp member with rfl | later
      · exact low
      · exact le_trans low (List.rel_of_pairwise_cons rest later)
  generalize sorted.takeWhile (fun other => decide ¬ key item ≤ key other) = low at parts below ⊢
  generalize sorted.dropWhile (fun other => decide ¬ key item ≤ key other) = high at parts above ⊢
  subst parts
  have whole : (low ++ item :: high).reverse = high.reverse ++ ([item] ++ low.reverse) := by
    rw [List.reverse_append, List.reverse_cons, List.append_assoc]
  rw [whole, List.reverse_append, List.find?_append, List.find?_append, List.find?_append]
  cases late : high.reverse.find? keep with
  | some found =>
    have member := List.mem_reverse.mp (List.mem_of_find?_eq_some late)
    exact Or.inl ⟨found, rfl, above found member, rfl⟩
  | none =>
    refine Or.inr ⟨?_, ?_⟩
    · intro found early
      exact below found (List.mem_reverse.mp (List.mem_of_find?_eq_some early))
    · rw [Option.none_or, Option.none_or, List.find?_singleton]
      split <;> rfl

/-- A search from the end of the sorted list finds the chosen item, or there is none to find. -/
theorem find_byKey (key : Item → Key) (keep : Item → Bool) (items : List Item) :
    (∀ found, (byKey key items).reverse.find? keep = some found → Chosen key keep items found) ∧
    ((byKey key items).reverse.find? keep = none → ∀ item ∈ items, keep item = false) := by
  induction items with
  | nil => exact ⟨fun _ shape => (nomatch shape), fun _ _ member => absurd member List.not_mem_nil⟩
  | cons item rest ih =>
    have put : byKey key (item :: rest) =
        (byKey key rest).orderedInsert (fun one two => key one ≤ key two) item := rfl
    rw [put]
    rcases @find_insert _ _ _ key keep _ (byKey_sorted key rest) item with
      ⟨found, old, least, result⟩ | ⟨below, result⟩
    · -- what was found before the item came is at least as great and stands after it
      rw [result]
      obtain ⟨before, after, shape, kept, early, late⟩ := ih.1 found old
      refine ⟨?_, fun absent => nomatch absent⟩
      intro other same
      cases same
      refine ⟨item :: before, after, by rw [shape]; rfl, kept, ?_, late⟩
      intro other member held
      rcases List.mem_cons.mp member with rfl | earlier
      · exact least
      · exact early other earlier held
    · rw [result]
      cases kept : keep item with
      | true =>
        refine ⟨?_, fun absent => nomatch absent⟩
        intro found same
        cases same
        refine ⟨[], rest, rfl, kept, fun _ member => absurd member List.not_mem_nil, ?_⟩
        intro other member held
        cases old : (byKey key rest).reverse.find? keep with
        | none => exact absurd held (Bool.eq_false_iff.mp (ih.2 old other member))
        | some found =>
          exact lt_of_le_of_lt ((ih.1 found old).greatest member held) (below found old)
      | false =>
        refine ⟨?_, ?_⟩
        · intro found old
          obtain ⟨before, after, shape, held, early, late⟩ := ih.1 found old
          refine ⟨item :: before, after, by rw [shape]; rfl, held, ?_, late⟩
          intro other member other_kept
          rcases List.mem_cons.mp member with rfl | earlier
          · exact absurd other_kept (Bool.eq_false_iff.mp kept)
          · exact early other earlier other_kept
        · intro absent other member
          rcases List.mem_cons.mp member with rfl | later
          · exact kept
          · exact ih.2 absent other later

/-- An item that nothing but itself may stand before is the first. -/
theorem head_of_first {order : Item → Item → Prop} {items : List Item}
    (sorted : items.Pairwise order) {item : Item} (member : item ∈ items)
    (only : ∀ other ∈ items, order other item → other = item) : items.head? = some item := by
  cases items with
  | nil => exact absurd member List.not_mem_nil
  | cons head tail =>
    rcases List.mem_cons.mp member with rfl | later
    · rfl
    · have before := List.rel_of_pairwise_cons sorted later
      rw [List.head?_cons, only head List.mem_cons_self before]

end StableSort
