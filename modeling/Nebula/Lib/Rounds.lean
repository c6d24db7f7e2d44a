import Mathlib.Data.Finset.Insert
import Mathlib.Data.List.MinMax

/- Serving a pool in rounds: who is served once is passed over until all have been, and the next
   is found in one scan for the least rank. -/
namespace Rounds
variable {Item : Type}

section Scanning
variable (rank : Item → Option ℕ)

/-- The least rank so far is 0 as long as there is none; an item without a rank ends the scan. -/
def scan : ℕ → Option Item → List Item → Option Item
  | _, selected, [] => selected
  | least, selected, item :: rest =>
    match rank item with
    | none => some item
    | some found =>
      if least = 0 ∨ found < least then scan found (some item) rest
      else scan least selected rest

/-- Ranks in order, with no rank before all of them. -/
def order (item : Item) : WithBot ℕ := rank item

abbrev better (selected : Option Item) (item : Item) : Option Item :=
  List.argAux (fun first second => order rank first < order rank second) selected item

theorem better_some (first item : Item) : better rank (some first) item =
    if order rank item < order rank first then some item else some first :=
  rfl

theorem better_bottom {first : Item} (none_ : rank first = none) (rest : List Item) :
    rest.foldl (better rank) (some first) = some first := by
  induction rest with
  | nil => rfl
  | cons item rest ih =>
    have bottom : order rank first = ⊥ := none_
    rw [List.foldl_cons, better_some, if_neg (by rw [bottom]; exact not_lt_bot), ih]

theorem scan_better {first : Item} {least : ℕ} {items : List Item}
    (found : rank first = some least) (some_ : least ≠ 0)
    (marked : ∀ item ∈ items, rank item ≠ some 0) :
    scan rank least (some first) items = items.foldl (better rank) (some first) := by
  induction items generalizing first least with
  | nil => rfl
  | cons item rest ih =>
    obtain ⟨own, later⟩ := List.forall_mem_cons.mp marked
    have first_ : order rank first = WithBot.some least := found
    rw [List.foldl_cons, scan, better_some, first_]
    cases rank_ : rank item with
    | none =>
      have bottom : order rank item = ⊥ := rank_
      rw [bottom, if_pos (WithBot.bot_lt_coe least), better_bottom rank rank_]
    | some next =>
      have item_ : order rank item = WithBot.some next := rank_
      have nonzero : next ≠ 0 := fun zero => own (zero ▸ rank_)
      rw [item_]
      by_cases less : next < least
      · rw [if_pos (WithBot.coe_lt_coe.mpr less), ← ih rank_ nonzero later]
        exact if_pos (Or.inr less)
      · rw [if_neg (fun lt => less (WithBot.coe_lt_coe.mp lt)), ← ih found some_ later]
        exact if_neg fun either => either.elim some_ less

/-- Where no rank is the marker, the scan finds the first item of the least rank. -/
theorem scan_argmin {items : List Item} (marked : ∀ item ∈ items, rank item ≠ some 0) :
    scan rank 0 none items = items.argmin (order rank) := by
  cases items with
  | nil => rfl
  | cons item rest =>
    obtain ⟨own, later⟩ := List.forall_mem_cons.mp marked
    have folded : (item :: rest).argmin (order rank) =
        rest.foldl (better rank) (some item) := rfl
    rw [folded, scan]
    cases rank_ : rank item with
    | none => exact (better_bottom rank rank_ rest).symm
    | some least => exact scan_better rank rank_ (fun zero => own (zero ▸ rank_)) later

theorem scan_least {items : List Item} {chosen : Item}
    (marked : ∀ item ∈ items, rank item ≠ some 0) (found : scan rank 0 none items = some chosen) :
    ∀ other ∈ items, order rank chosen ≤ order rank other := by
  intro other member
  rw [scan_argmin rank marked] at found
  exact List.le_of_mem_argmin member found

theorem scan_some (least : ℕ) (first : Item) (items : List Item) :
    ∃ chosen ∈ first :: items, scan rank least (some first) items = some chosen := by
  induction items generalizing least first with
  | nil => exact ⟨first, List.mem_cons_self, rfl⟩
  | cons item rest ih =>
    rw [scan]
    cases rank item with
    | none => exact ⟨item, by simp, rfl⟩
    | some next =>
      by_cases less : least = 0 ∨ next < least
      · obtain ⟨chosen, member, run⟩ := ih next item
        exact ⟨chosen, .tail _ member, (if_pos less).trans run⟩
      · obtain ⟨chosen, member, run⟩ := ih least first
        refine ⟨chosen, ?_, (if_neg less).trans run⟩
        exact (List.sublist_cons_self item rest).cons_cons first |>.subset member

/-- Marker or not, one of the items is found where there are any. -/
theorem scan_found {items : List Item} (some_ : items ≠ []) :
    ∃ chosen ∈ items, scan rank 0 none items = some chosen := by
  cases items with
  | nil => exact absurd rfl some_
  | cons item rest =>
    rw [scan]
    cases rank item with
    | none => exact ⟨item, List.mem_cons_self, rfl⟩
    | some least =>
      obtain ⟨chosen, member, run⟩ := scan_some rank least item rest
      exact ⟨chosen, member, (if_pos (Or.inl rfl)).trans run⟩

end Scanning

section Turns
variable (pool : Item → Prop)

/-- A turn serves one of the pool that was not served in this round, or, where all were, starts
    the next round. -/
inductive Turn [DecidableEq Item] : Finset Item → List Item → Finset Item → Prop where
  | serve {tried : Finset Item} {item : Item} : pool item → item ∉ tried →
      Turn tried [item] (insert item tried)
  | clear {tried : Finset Item} : (∀ item, pool item → item ∈ tried) → Turn tried [] ∅
  | idle {tried : Finset Item} : (∀ item, ¬ pool item) → Turn tried [] tried

inductive Turns [DecidableEq Item] : Finset Item → List (List Item) → Finset Item → Prop where
  | done {tried : Finset Item} : Turns tried [] tried
  | next {tried after last : Finset Item} {served : List Item} {rest : List (List Item)} :
      Turn pool tried served after → Turns after rest last → Turns tried (served :: rest) last

def single (item : Item) : List Item := [item]

/-- Each of the pool once in every round, and then an empty turn; at most once in the round that
    is not yet done. -/
def InRounds (served : List (List Item)) : Prop :=
  ∃ (rounds : List (List Item)) (current : List Item),
    served = rounds.flatMap (fun round => round.map single ++ [[]]) ++ current.map single ∧
    (∀ round ∈ rounds, round.Nodup ∧ ∀ item, item ∈ round ↔ pool item) ∧
    current.Nodup ∧ ∀ item ∈ current, pool item

theorem InRounds.after_round {round : List Item} {served : List (List Item)}
    (nodup : round.Nodup) (whole : ∀ item, item ∈ round ↔ pool item)
    (later : InRounds pool served) : InRounds pool (round.map single ++ [] :: served) := by
  obtain ⟨rounds, current, rfl, full, last⟩ := later
  refine ⟨round :: rounds, current, ?_, ?_, last⟩
  · rw [List.flatMap_cons, List.append_assoc, List.append_assoc]
    rfl
  · rw [List.forall_mem_cons]
    exact ⟨⟨nodup, whole⟩, full⟩

theorem turns_in_rounds [DecidableEq Item] {tried last : Finset Item} {served : List (List Item)}
    (turns : Turns pool tried served last) {current : List Item}
    (same : ∀ item, item ∈ current ↔ item ∈ tried) (nodup : current.Nodup)
    (inside : ∀ item ∈ current, pool item) : InRounds pool (current.map single ++ served) := by
  induction turns generalizing current with
  | done => exact ⟨[], current, by simp, by simp, nodup, inside⟩
  | @next tried after last served rest turn _ ih =>
    cases turn with
    | @serve item member fresh =>
      have more := @ih (current ++ [item])
        (by intro other; simp [same, or_comm])
        (by
          rw [List.nodup_append]
          refine ⟨nodup, List.nodup_singleton item, ?_⟩
          rintro other held own shown rfl
          rw [List.mem_singleton.mp shown, same] at held
          exact fresh held)
        (by
          intro other held
          rcases List.mem_append.mp held with before | own
          · exact inside other before
          · exact List.mem_singleton.mp own ▸ member)
      rw [List.map_append, List.append_assoc] at more
      exact more
    | clear all =>
      have whole : ∀ item, item ∈ current ↔ pool item := fun item =>
        ⟨inside item, fun member => (same item).mpr (all item member)⟩
      exact (@ih [] (by simp) List.nodup_nil (by simp)).after_round pool nodup whole
    | idle nobody =>
      obtain rfl : current = [] := List.eq_nil_iff_forall_not_mem.mpr fun item held =>
        nobody item (inside item held)
      exact (@ih [] same nodup inside).after_round pool nodup fun item => by simp [nobody item]

end Turns

end Rounds
