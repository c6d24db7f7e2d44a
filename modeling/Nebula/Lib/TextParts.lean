import Nebula.Lib.TextScan
import Mathlib.Data.List.Infix

/- Texts cut at a pair of items, such as a line break, and texts cut into a bounded number
   of parts. -/
namespace TextParts
open TextScan

variable {Item : Type}

section Pairs
variable {first second : Item}

/-- The pair stands nowhere in the text. -/
def Unbroken (first second : Item) (text : List Item) : Prop := ¬ [first, second] <:+: text

theorem unbroken_nil : Unbroken first second [] := by
  rintro ⟨before, after, shape⟩
  simp at shape

theorem Unbroken.tail {item : Item} {text : List Item}
    (whole : Unbroken first second (item :: text)) : Unbroken first second text :=
  fun inside => whole (List.infix_cons inside)

theorem unbroken_cons {item : Item} {text : List Item} (whole : Unbroken first second text)
    (apart : ∀ next ∈ text.head?, ¬ (item = first ∧ next = second)) :
    Unbroken first second (item :: text) := by
  intro inside
  rcases List.infix_cons_iff.mp inside with start | later
  · obtain ⟨after, shape⟩ := start
    simp only [List.cons_append, List.nil_append, List.cons.injEq] at shape
    obtain ⟨same, rest⟩ := shape
    exact apart second (by rw [← rest]; rfl) ⟨same.symm, rfl⟩
  · exact whole later

theorem Unbroken.apart {item : Item} {text : List Item}
    (whole : Unbroken first second (item :: text)) :
    ∀ next ∈ text.head?, ¬ (item = first ∧ next = second) := by
  rintro next start ⟨rfl, rfl⟩
  obtain ⟨rest, rfl⟩ := List.head?_eq_some_iff.mp start
  exact whole ⟨[], rest, rfl⟩

theorem Unbroken.part {part text : List Item} (whole : Unbroken first second text)
    (inside : part <:+: text) : Unbroken first second part :=
  fun pair => whole (pair.trans inside)

/-- Texts around an item that is not of the pair. -/
theorem unbroken_append {left right : List Item} {item : Item}
    (before : Unbroken first second left) (after : Unbroken first second right)
    (notFirst : item ≠ first) (notSecond : item ≠ second) :
    Unbroken first second (left ++ item :: right) := by
  induction left with
  | nil => exact unbroken_cons after fun _ _ same => notFirst same.1
  | cons head left ih =>
    refine unbroken_cons (ih before.tail) ?_
    cases left with
    | nil =>
      rintro next start ⟨_, rfl⟩
      exact notSecond (Option.some.inj start)
    | cons inner left => exact before.apart

theorem unbroken_of_not_mem {text : List Item} (absent : first ∉ text) :
    Unbroken first second text :=
  fun pair => absent (pair.subset List.mem_cons_self)

variable [DecidableEq Item]

instance decidableUnbroken (text : List Item) : Decidable (Unbroken first second text) :=
  inferInstanceAs (Decidable (¬ _))

/-- The parts between the pairs, found from the left. -/
def splitPair (first second : Item) : List Item → List (List Item)
  | [] => [[]]
  | [item] => [[item]]
  | item :: next :: rest =>
    if item = first ∧ next = second then [] :: splitPair first second rest
    else
      match splitPair first second (next :: rest) with
      | [] => [[item]]
      | part :: others => (item :: part) :: others

theorem splitPair_ne_nil (text : List Item) : splitPair first second text ≠ [] := by
  fun_induction splitPair first second text <;> simp

theorem splitPair_cons {item : Item} {text : List Item}
    (apart : ∀ next ∈ text.head?, ¬ (item = first ∧ next = second)) :
    splitPair first second (item :: text) =
      (splitPair first second text).modifyHead (item :: ·) := by
  cases text with
  | nil => rfl
  | cons next rest =>
    rw [splitPair, if_neg (apart next rfl)]
    cases shape : splitPair first second (next :: rest) with
    | nil => exact absurd shape (splitPair_ne_nil _)
    | cons part others => rfl

theorem splitPair_start {text part : List Item} {others : List (List Item)}
    (split : splitPair first second text = part :: others) : part <+: text := by
  induction text generalizing part others with
  | nil =>
    obtain ⟨rfl, _⟩ := List.cons.inj split
    exact List.nil_prefix
  | cons item text ih =>
    by_cases apart : ∀ next ∈ text.head?, ¬ (item = first ∧ next = second)
    · rw [splitPair_cons apart] at split
      cases shape : splitPair first second text with
      | nil => exact absurd shape (splitPair_ne_nil _)
      | cons inner rest =>
        rw [shape, List.modifyHead_cons] at split
        obtain ⟨rfl, _⟩ := List.cons.inj split
        exact List.prefix_cons_inj item |>.mpr (ih shape)
    · push Not at apart
      obtain ⟨next, start, found⟩ := apart
      obtain ⟨rest, rfl⟩ := List.head?_eq_some_iff.mp start
      rw [splitPair, if_pos found] at split
      obtain ⟨rfl, _⟩ := List.cons.inj split
      exact List.nil_prefix

/-- No part holds the pair. -/
theorem splitPair_unbroken (text : List Item) :
    ∀ part ∈ splitPair first second text, Unbroken first second part := by
  fun_induction splitPair first second text with
  | case1 => simpa using unbroken_nil
  | case2 item => simpa using unbroken_cons unbroken_nil (by simp)
  | case3 item next rest found ih =>
    intro part member
    rcases List.mem_cons.mp member with rfl | later
    · exact unbroken_nil
    · exact ih part later
  | case4 item next rest apart shape ih => exact absurd shape (splitPair_ne_nil _)
  | case5 item next rest apart inner others shape ih =>
    intro part member
    rcases List.mem_cons.mp member with rfl | later
    · refine unbroken_cons (ih inner (shape ▸ List.mem_cons_self)) fun other start => ?_
      obtain ⟨tail, whole⟩ := splitPair_start shape
      cases inner with
      | nil => cases start
      | cons head inner =>
        obtain rfl := Option.some.inj start
        obtain ⟨rfl, _⟩ := List.cons.inj whole
        exact apart
    · exact ih part (shape ▸ List.mem_cons_of_mem _ later)

theorem splitPair_whole {text : List Item} (whole : Unbroken first second text) :
    splitPair first second text = [text] := by
  induction text with
  | nil => rfl
  | cons item text ih =>
    rw [splitPair_cons whole.apart, ih whole.tail]
    rfl

/-- The part before the first pair. -/
theorem splitPair_append {part : List Item} (rest : List Item)
    (whole : Unbroken first second part) (distinct : first ≠ second) :
    splitPair first second (part ++ first :: second :: rest) =
      part :: splitPair first second rest := by
  induction part with
  | nil => simp [splitPair]
  | cons item part ih =>
    have apart : ∀ next ∈ (part ++ first :: second :: rest).head?,
        ¬ (item = first ∧ next = second) := by
      cases part with
      | nil =>
        rintro next start ⟨_, rfl⟩
        exact distinct (Option.some.inj start)
      | cons head part => exact whole.apart
    rw [List.cons_append, splitPair_cons apart, ih whole.tail]
    rfl

theorem splitPair_lines (parts : List (List Item)) (distinct : first ≠ second)
    (whole : ∀ part ∈ parts, Unbroken first second part) :
    splitPair first second (parts.flatMap fun part => part ++ [first, second]) = parts ++ [[]] := by
  induction parts with
  | nil => rfl
  | cons part parts ih =>
    rw [List.flatMap_cons, List.append_assoc, List.cons_append, List.cons_append, List.nil_append,
      splitPair_append _ (whole part List.mem_cons_self) distinct,
      ih fun other member => whole other (.tail _ member)]
    rfl

end Pairs

section Bounded
variable [DecidableEq Item] {separator : Item}

/-- At most so many parts; the last holds what is left, separators included. -/
def splitN (separator : Item) : Nat → List Item → List (List Item)
  | 0, _ => []
  | 1, text => [text]
  | n + 2, text =>
    match cut separator text with
    | (part, none) => [part]
    | (part, some rest) => part :: splitN separator (n + 1) rest

theorem splitN_append {part rest : List Item} (n : Nat) (absent : separator ∉ part) :
    splitN separator (n + 2) (part ++ separator :: rest) = part :: splitN separator (n + 1) rest := by
  have found := @cut_join _ _ separator part (some rest) absent
  rw [join_some] at found
  rw [splitN, found]

/-- What stands before the last part holds no separator. -/
theorem splitN_succ {n : Nat} {text part next : List Item} {others : List (List Item)}
    (split : splitN separator (n + 2) text = part :: next :: others) :
    ∃ rest, text = part ++ separator :: rest ∧ separator ∉ part ∧
      splitN separator (n + 1) rest = next :: others := by
  rw [splitN] at split
  cases found : cut separator text with
  | mk left right =>
    rw [found] at split
    cases right with
    | none => simp at split
    | some rest =>
      obtain ⟨absent, whole⟩ := cut_eq_some found
      obtain ⟨rfl, later⟩ := List.cons.inj split
      exact ⟨rest, whole, absent, later⟩

theorem splitN_head {n : Nat} {text part : List Item} {others : List (List Item)}
    (split : splitN separator (n + 2) text = part :: others) :
    separator ∉ part ∧ part <+: text := by
  rw [splitN] at split
  have absent := @not_mem_cut _ _ separator text
  have whole := @join_cut _ _ separator text
  cases found : cut separator text with
  | mk left right =>
    rw [found] at split absent whole
    cases right with
    | none =>
      obtain ⟨rfl, _⟩ := List.cons.inj split
      exact ⟨absent, ⟨_, whole⟩⟩
    | some rest =>
      obtain ⟨rfl, _⟩ := List.cons.inj split
      exact ⟨absent, ⟨_, whole⟩⟩

end Bounded

end TextParts
