import Mathlib.Data.List.DropRight
import Mathlib.Algebra.BigOperators.Group.List.Basic
import Mathlib.Algebra.GroupWithZero.Nat

/- Texts read from the left: runs of a kind of item, the first separator, parts
   between separators, lines, and the blanks around a text. -/
namespace TextScan

variable {Item : Type}

section Runs
variable {keep : Item → Bool} {front rest : List Item}

theorem takeWhile_stops (all : ∀ item ∈ front, keep item = true)
    (stops : ∀ item ∈ rest.head?, keep item = false) :
    (front ++ rest).takeWhile keep = front := by
  rw [List.takeWhile_append_of_pos all]
  cases rest with
  | nil => simp
  | cons item rest =>
    have stop := stops item (by simp)
    simp [stop]

theorem dropWhile_stops (all : ∀ item ∈ front, keep item = true)
    (stops : ∀ item ∈ rest.head?, keep item = false) :
    (front ++ rest).dropWhile keep = rest := by
  rw [List.dropWhile_append_of_pos all]
  cases rest with
  | nil => simp
  | cons item rest =>
    have stop := stops item (by simp)
    simp [stop]

theorem head_dropWhile (text : List Item) :
    ∀ item ∈ (text.dropWhile keep).head?, keep item = false := by
  intro item first
  have stop := List.head?_dropWhile_not keep text
  rw [Option.mem_def.mp first] at stop
  exact stop

theorem countP_run (marked : Item → Bool) (text : List Item) :
    (text.takeWhile keep).countP marked + (text.dropWhile keep).countP marked =
      text.countP marked := by
  rw [← List.countP_append, List.takeWhile_append_dropWhile]

end Runs

section Separators
variable [DecidableEq Item] {separator : Item}

/-- The text before the first separator, and what follows it. -/
def cut (separator : Item) (text : List Item) : List Item × Option (List Item) :=
  (text.takeWhile (· != separator), (text.dropWhile (· != separator)).tail?)

def join (separator : Item) (left : List Item) (right : Option (List Item)) : List Item :=
  left ++ right.elim [] (separator :: ·)

omit [DecidableEq Item] in
@[simp] theorem join_none (left : List Item) : join separator left none = left := by
  simp [join]

omit [DecidableEq Item] in
@[simp] theorem join_some (left right : List Item) :
    join separator left (some right) = left ++ separator :: right := rfl

theorem not_mem_cut (text : List Item) : separator ∉ (cut separator text).1 := by
  intro member
  have other := List.mem_takeWhile_imp member
  simp at other

theorem join_cut (text : List Item) :
    join separator (cut separator text).1 (cut separator text).2 = text := by
  have whole := List.takeWhile_append_dropWhile (p := (· != separator)) (l := text)
  have first := @head_dropWhile _ (· != separator) text
  unfold cut join
  cases rest : text.dropWhile (· != separator) with
  | nil => rw [rest] at whole; simpa using whole
  | cons item right =>
    rw [rest] at whole first
    have isSeparator : item = separator := by simpa using first item (by simp)
    subst isSeparator
    simpa using whole

theorem cut_join (left : List Item) (right : Option (List Item)) (absent : separator ∉ left) :
    cut separator (join separator left right) = (left, right) := by
  have before : ∀ item ∈ left, (item != separator) = true := by
    intro item member
    have other : item ≠ separator := fun same => absent (same ▸ member)
    simpa using other
  have stops : ∀ item ∈ (right.elim [] (separator :: ·)).head?, (item != separator) = false := by
    cases right <;> simp
  unfold cut join
  rw [takeWhile_stops before stops, dropWhile_stops before stops]
  cases right <;> rfl

theorem cut_eq_some {text left right : List Item} (found : cut separator text = (left, some right)) :
    separator ∉ left ∧ text = left ++ separator :: right := by
  have whole := @join_cut _ _ separator text
  have absent := @not_mem_cut _ _ separator text
  rw [found] at whole absent
  exact ⟨absent, whole.symm⟩

theorem cut_of_mem {text : List Item} (member : separator ∈ text) :
    ∃ left right, cut separator text = (left, some right) := by
  cases found : (cut separator text).2 with
  | some right => exact ⟨_, right, Prod.ext rfl found⟩
  | none =>
    have whole := @join_cut _ _ separator text
    have absent := @not_mem_cut _ _ separator text
    rw [found, join_none] at whole
    rw [whole] at absent
    exact absurd member absent

theorem splitOn_parts (head : List Item) (tail : List (List Item))
    (absent : ∀ part ∈ head :: tail, separator ∉ part) :
    (head ++ tail.flatMap (separator :: ·)).splitOn separator = head :: tail := by
  induction tail generalizing head with
  | nil => simpa using List.splitOn_eq_singleton (absent head (by simp))
  | cons next tail ih =>
    have first := absent head (by simp)
    rw [List.flatMap_cons, List.cons_append, List.splitOn_append_cons_self_of_not_mem first,
      ih next (fun part member => absent part (List.mem_cons_of_mem _ member))]

/-- Writing the separator before each part gives the text back. -/
theorem flatMap_splitOn (text : List Item) :
    (text.splitOn separator).flatMap (separator :: ·) = separator :: text := by
  induction text with
  | nil => simp
  | cons item text ih =>
    obtain ⟨first, others, parts⟩ :=
      List.exists_cons_of_ne_nil (List.splitOn_ne_nil separator text)
    rw [parts, List.flatMap_cons, List.cons_append, List.cons.injEq] at ih
    rw [List.splitOn_cons_eq_if_modifyHead]
    by_cases same : item = separator
    · simp [same, parts, ih.2]
    · simp [same, parts, ih.2]

theorem not_mem_part (text : List Item) :
    ∀ part ∈ text.splitOn separator, separator ∉ part := by
  induction text with
  | nil => simp
  | cons item text ih =>
    obtain ⟨first, others, parts⟩ :=
      List.exists_cons_of_ne_nil (List.splitOn_ne_nil separator text)
    rw [parts] at ih
    rw [List.splitOn_cons_eq_if_modifyHead, parts]
    by_cases same : item = separator
    · simpa [same] using ih
    · have apart : separator ≠ item := fun reversed => same reversed.symm
      simpa [same, apart] using ih

theorem mem_of_mem_part {text part : List Item} {item : Item}
    (member : part ∈ text.splitOn separator) (inside : item ∈ part) : item ∈ text := by
  have written : item ∈ (text.splitOn separator).flatMap (separator :: ·) :=
    List.mem_flatMap.mpr ⟨part, member, List.mem_cons_of_mem _ inside⟩
  rw [flatMap_splitOn] at written
  rcases List.mem_cons.mp written with rfl | there
  · exact absurd inside (not_mem_part text part member)
  · exact there

/-- The parts together hold no more of a kind of item than the text. -/
theorem countP_parts (marked : Item → Bool) (text : List Item) :
    ((text.splitOn separator).map (List.countP marked)).sum ≤ text.countP marked := by
  induction text with
  | nil => simp
  | cons item text ih =>
    obtain ⟨first, others, parts⟩ :=
      List.exists_cons_of_ne_nil (List.splitOn_ne_nil separator text)
    rw [parts] at ih
    rw [List.splitOn_cons_eq_if_modifyHead, parts]
    simp only [List.map_cons, List.sum_cons] at ih
    by_cases same : item = separator
    · simp only [same, beq_self_eq_true, ↓reduceIte, List.map_cons, List.sum_cons,
        List.countP_nil, List.countP_cons]
      omega
    · have apart : (item == separator) = false := by simpa using same
      simp only [apart, Bool.false_eq_true, ↓reduceIte, List.modifyHead_cons, List.map_cons,
        List.sum_cons, List.countP_cons]
      omega

end Separators

section Blanks
variable {blank : Item → Bool}

def trimEnd (blank : Item → Bool) (text : List Item) : List Item := text.rdropWhile blank

def trim (blank : Item → Bool) (text : List Item) : List Item :=
  trimEnd blank (text.dropWhile blank)

/-- No blank stands at either end. -/
def Bare (blank : Item → Bool) (text : List Item) : Prop :=
  (∀ item ∈ text.head?, blank item = false) ∧ ∀ item ∈ text.getLast?, blank item = false

instance decidableBare (text : List Item) : Decidable (Bare blank text) := by
  unfold Bare
  infer_instance

theorem trimEnd_append (front : List Item) (item : Item) (rest : List Item)
    (solid : blank item = false) :
    trimEnd blank (front ++ item :: rest) = front ++ item :: trimEnd blank rest := by
  have split : (front ++ item :: rest).reverse = rest.reverse ++ item :: front.reverse := by simp
  unfold trimEnd List.rdropWhile
  rw [split, List.dropWhile_append]
  by_cases gone : (rest.reverse.dropWhile blank).isEmpty
  · rw [if_pos gone, List.isEmpty_iff.mp gone]
    simp [solid]
  · rw [if_neg gone]
    simp

theorem trimEnd_blanks (text : List Item) {tail : List Item}
    (blanks : ∀ item ∈ tail, blank item = true) : trimEnd blank (text ++ tail) = trimEnd blank text := by
  have reversed : ∀ item ∈ tail.reverse, blank item = true := by simpa using blanks
  unfold trimEnd List.rdropWhile
  rw [List.reverse_append, List.dropWhile_append_of_pos reversed]

theorem trimEnd_last (text : List Item) :
    ∀ item ∈ (trimEnd blank text).getLast?, blank item = false := by
  intro item last
  unfold trimEnd List.rdropWhile at last
  rw [List.getLast?_reverse] at last
  exact head_dropWhile text.reverse item last

theorem trimEnd_eq_self {text : List Item} (solid : ∀ item ∈ text.getLast?, blank item = false) :
    trimEnd blank text = text := by
  rcases List.eq_nil_or_concat text with rfl | ⟨front, item, split⟩
  · rfl
  · rw [List.concat_eq_append] at split
    subst split
    exact (trimEnd_append front item [] (solid item (by simp))).trans rfl

theorem trimEnd_front (text : List Item) : trimEnd blank text <+: text :=
  List.rdropWhile_prefix blank text

theorem bare_trim (text : List Item) : Bare blank (trim blank text) := by
  refine ⟨?_, trimEnd_last _⟩
  intro item first
  obtain ⟨rest, whole⟩ := @trimEnd_front _ blank (text.dropWhile blank)
  refine head_dropWhile text item ?_
  rw [← whole]
  unfold trim at first
  cases shape : trimEnd blank (text.dropWhile blank) with
  | nil => rw [shape] at first; cases first
  | cons head tail => rw [shape] at first; simpa using first

theorem trim_bare {text : List Item} (bare : Bare blank text) : trim blank text = text := by
  have start : text.dropWhile blank = text := by
    cases text with
    | nil => rfl
    | cons head tail => simp [bare.1 head (by simp)]
  unfold trim
  rw [start, trimEnd_eq_self bare.2]

theorem trim_idem (text : List Item) : trim blank (trim blank text) = trim blank text :=
  trim_bare (bare_trim text)

theorem trim_eq_self_iff (text : List Item) : trim blank text = text ↔ Bare blank text := by
  constructor
  · intro same
    rw [← same]
    exact bare_trim text
  · exact trim_bare

theorem trim_blanks (text : List Item) {tail : List Item}
    (blanks : ∀ item ∈ tail, blank item = true) : trim blank (text ++ tail) = trim blank text := by
  unfold trim
  rw [List.dropWhile_append]
  by_cases gone : (text.dropWhile blank).isEmpty
  · rw [if_pos gone, List.isEmpty_iff.mp gone, List.dropWhile_eq_nil_iff.mpr blanks]
  · rw [if_neg gone, trimEnd_blanks _ blanks]

theorem trim_cons_blank {item : Item} (text : List Item) (white : blank item = true) :
    trim blank (item :: text) = trim blank text := by
  unfold trim
  rw [List.dropWhile_cons_of_pos white]

/-- A text that starts with no blank keeps what stands before its last solid item. -/
theorem trim_solid (front : List Item) (item : Item) (rest : List Item)
    (first : ∀ start ∈ (front ++ [item]).head?, blank start = false)
    (solid : blank item = false) :
    trim blank (front ++ item :: rest) = front ++ item :: trimEnd blank rest := by
  have start : (front ++ item :: rest).dropWhile blank = front ++ item :: rest := by
    cases front with
    | nil => simp [solid]
    | cons head tail => simp [first head (by simp)]
  unfold trim
  rw [start, trimEnd_append front item rest solid]

/-- Something is left where not all is blank. -/
theorem trim_ne_nil {text : List Item} {item : Item} (member : item ∈ text)
    (solid : blank item = false) : trim blank text ≠ [] := by
  have first := @head_dropWhile _ blank text
  unfold trim
  cases shape : text.dropWhile blank with
  | nil =>
    have white := List.dropWhile_eq_nil_iff.mp shape item member
    rw [solid] at white
    cases white
  | cons head rest =>
    have start := first head (by rw [shape]; rfl)
    have kept := trimEnd_append [] head rest start
    rw [List.nil_append] at kept
    rw [kept]
    simp

theorem trim_trimEnd (text : List Item) : trim blank (trimEnd blank text) = trim blank text := by
  obtain ⟨tail, whole⟩ := @trimEnd_front _ blank text
  have blanks : ∀ item ∈ tail, blank item = true := by
    have parts := List.rdropWhile_append_rtakeWhile (p := blank) (l := text)
    have same : tail = text.rtakeWhile blank := List.append_cancel_left (whole.trans parts.symm)
    intro item member
    rw [same] at member
    exact List.mem_rtakeWhile_imp member
  calc trim blank (trimEnd blank text)
    _ = trim blank (trimEnd blank text ++ tail) := (trim_blanks _ blanks).symm
    _ = trim blank text := by rw [whole]

theorem mem_of_mem_trim {text : List Item} {item : Item} (member : item ∈ trim blank text) :
    item ∈ text :=
  (List.dropWhile_suffix blank).subset ((trimEnd_front _).subset member)

/-- A text that trimming leaves no fewer blanks in is not trimmed at all. -/
theorem trim_eq_self_of_count {text : List Item}
    (kept : text.countP blank ≤ (trim blank text).countP blank) : trim blank text = text := by
  refine trim_bare ?_
  have run := @countP_run _ blank blank text
  have start : text.takeWhile blank = [] := by
    by_contra some
    have blanks : (text.takeWhile blank).countP blank = (text.takeWhile blank).length :=
      List.countP_eq_length.mpr fun item member => List.mem_takeWhile_imp member
    have positive := List.length_pos_of_ne_nil some
    have fewer := (@trimEnd_front _ blank (text.dropWhile blank)).sublist.countP_le (p := blank)
    unfold trim at kept
    omega
  have whole : text.dropWhile blank = text := by
    simpa [start] using List.takeWhile_append_dropWhile (p := blank) (l := text)
  refine ⟨fun item first => ?_, fun item last => ?_⟩
  · rw [← whole] at first
    exact head_dropWhile text item first
  · obtain ⟨front, split⟩ := List.getLast?_eq_some_iff.mp last
    cases white : blank item with
    | false => rfl
    | true =>
      have shorter : trim blank text = trimEnd blank front := by
        unfold trim
        rw [whole, split, trimEnd_blanks front (by simpa using white)]
      have fewer := (@trimEnd_front _ blank front).sublist.countP_le (p := blank)
      rw [shorter, split, List.countP_append, List.countP_singleton, if_pos white] at kept
      omega

end Blanks

section TrimmedParts
variable {separator : Item} {blank : Item → Bool}

theorem trim_front {front : List Item} (text : List Item)
    (blanks : ∀ item ∈ front, blank item = true) : trim blank (front ++ text) = trim blank text := by
  unfold trim
  rw [List.dropWhile_append_of_pos blanks]

theorem trimEnd_cons (item : Item) (text : List Item) :
    trimEnd blank (item :: trimEnd blank text) = trimEnd blank (item :: text) := by
  have parts : trimEnd blank text ++ text.rtakeWhile blank = text :=
    List.rdropWhile_append_rtakeWhile
  have blanks : ∀ other ∈ text.rtakeWhile blank, blank other = true :=
    fun other member => List.mem_rtakeWhile_imp member
  have whole := trimEnd_blanks (item :: trimEnd blank text) blanks
  rw [List.cons_append, parts] at whole
  exact whole.symm

theorem not_mem_blanks (solid : blank separator = false) {text : List Item}
    (blanks : ∀ item ∈ text, blank item = true) : separator ∉ text := by
  intro member
  rw [blanks separator member] at solid
  cases solid

variable [DecidableEq Item]

/-- Blanks before a text come before its first part. -/
theorem parts_front (solid : blank separator = false) {front : List Item} (text : List Item)
    (blanks : ∀ item ∈ front, blank item = true) :
    ((front ++ text).splitOn separator).map (trim blank) =
      (text.splitOn separator).map (trim blank) := by
  obtain ⟨first, others, parts⟩ := List.exists_cons_of_ne_nil (List.splitOn_ne_nil separator text)
  have absent := @not_mem_part _ _ separator text
  have whole := @flatMap_splitOn _ _ separator text
  rw [parts] at absent whole
  rw [List.flatMap_cons, List.cons_append, List.cons.injEq] at whole
  have inside : ∀ part ∈ (front ++ first) :: others, separator ∉ part := by
    refine List.forall_mem_cons.mpr ⟨?_, fun part member => absent part (.tail _ member)⟩
    rw [List.mem_append, not_or]
    exact ⟨not_mem_blanks solid blanks, absent first List.mem_cons_self⟩
  rw [parts, ← whole.2, ← List.append_assoc, splitOn_parts _ _ inside, List.map_cons, List.map_cons,
    trim_front first blanks]

/-- Blanks after a text come after its last part. -/
theorem parts_back (solid : blank separator = false) (text : List Item) {back : List Item}
    (blanks : ∀ item ∈ back, blank item = true) :
    ((text ++ back).splitOn separator).map (trimEnd blank) =
      (text.splitOn separator).map (trimEnd blank) := by
  induction text with
  | nil =>
    have none_ := trimEnd_blanks [] blanks
    rw [List.nil_append] at none_
    rw [List.nil_append, List.splitOn_eq_singleton (not_mem_blanks solid blanks)]
    simp [none_]
  | cons item text ih =>
    rw [List.cons_append, List.splitOn_cons_eq_if_modifyHead, List.splitOn_cons_eq_if_modifyHead]
    obtain ⟨first, others, parts⟩ := List.exists_cons_of_ne_nil (List.splitOn_ne_nil separator text)
    obtain ⟨first', others', parts'⟩ :=
      List.exists_cons_of_ne_nil (List.splitOn_ne_nil separator (text ++ back))
    rw [parts, parts', List.map_cons, List.map_cons] at ih
    rw [parts, parts']
    obtain ⟨head, tail⟩ := List.cons.inj ih
    split
    · simp [head, tail]
    · simp only [List.modifyHead_cons, List.map_cons, tail]
      rw [← trimEnd_cons item first', head, trimEnd_cons]

/-- The parts of a trimmed text are those of the text, once they are trimmed. -/
theorem trim_parts (solid : blank separator = false) (text : List Item) :
    ((trim blank text).splitOn separator).map (trim blank) =
      (text.splitOn separator).map (trim blank) := by
  have front := List.takeWhile_append_dropWhile (p := blank) (l := text)
  have back := List.rdropWhile_append_rtakeWhile (p := blank) (l := text.dropWhile blank)
  have first := parts_front solid (text.dropWhile blank) fun item member =>
    List.mem_takeWhile_imp (l := text) member
  have last := parts_back solid (trim blank text) fun item member =>
    List.mem_rtakeWhile_imp (l := text.dropWhile blank) member
  have ends : ∀ parts : List (List Item), parts.map (trim blank) =
      (parts.map (trimEnd blank)).map (trim blank) := by
    intro parts
    rw [List.map_map]
    exact List.map_congr_left fun part _ => (trim_trimEnd part).symm
  rw [trim, trimEnd, back] at last
  rw [front] at first
  rw [first, ends, ends (List.splitOn separator (List.dropWhile blank text)), last]
  rfl

end TrimmedParts

section Lines
variable [DecidableEq Item] {newline : Item}

/-- The lines of a text, each with the newline that ends it. -/
def lines (newline : Item) : List Item → List (List Item)
  | [] => []
  | item :: rest =>
    if item = newline then [item] :: lines newline rest
    else
      match lines newline rest with
      | [] => [[item]]
      | first :: others => (item :: first) :: others

theorem lines_cons (item : Item) (rest : List Item) :
    lines newline (item :: rest) =
      if item = newline then [item] :: lines newline rest
      else
        match lines newline rest with
        | [] => [[item]]
        | first :: others => (item :: first) :: others := rfl

theorem lines_append (line rest : List Item) (absent : newline ∉ line) :
    lines newline (line ++ newline :: rest) = (line ++ [newline]) :: lines newline rest := by
  induction line with
  | nil => simp [lines]
  | cons item line ih =>
    have other : item ≠ newline := fun same => absent (same ▸ List.mem_cons_self)
    have inner := ih fun member => absent (List.mem_cons_of_mem _ member)
    simp [lines, other, inner]

theorem lines_flatten (text : List Item) : (lines newline text).flatten = text := by
  induction text with
  | nil => rfl
  | cons item rest ih =>
    unfold lines
    by_cases same : item = newline
    · simp [same, ih]
    · cases shape : lines newline rest with
      | nil => rw [shape] at ih; simp [same, ← ih]
      | cons first others => rw [shape] at ih; simp [same, ← ih]

/-- Lines that are all ended stand before the lines of what follows. -/
theorem lines_ended {front : List Item} (rest : List Item)
    (ended : ∀ item ∈ front.getLast?, item = newline) :
    lines newline (front ++ rest) = lines newline front ++ lines newline rest := by
  induction front with
  | nil => rfl
  | cons item front ih =>
    cases front with
    | nil =>
      obtain rfl := ended item rfl
      simp [lines]
    | cons next front =>
      have inner := ih fun last final => ended last (by simpa using final)
      rw [List.cons_append, lines_cons, lines_cons item, inner]
      by_cases same : item = newline
      · simp [same]
      · simp only [if_neg same]
        cases shape : lines newline (next :: front) with
        | nil =>
          have whole := @lines_flatten _ _ newline (next :: front)
          rw [shape] at whole
          cases whole
        | cons first others => rfl

/-- Only the end of a line is a newline. -/
theorem line_shape (text : List Item) : ∀ line ∈ lines newline text,
    ∃ content, newline ∉ content ∧ (line = content ∨ line = content ++ [newline]) := by
  induction text with
  | nil => simp [lines]
  | cons item rest ih =>
    unfold lines
    by_cases same : item = newline
    · intro line member
      rw [if_pos same, List.mem_cons] at member
      rcases member with rfl | later
      · exact ⟨[], by simp, Or.inr (by simp [same])⟩
      · exact ih line later
    · rw [if_neg same]
      have apart : newline ≠ item := fun reversed => same reversed.symm
      cases shape : lines newline rest with
      | nil =>
        intro line member
        exact ⟨[item], by simpa using apart, Or.inl (by simpa using member)⟩
      | cons first others =>
        rw [shape] at ih
        intro line member
        rcases List.mem_cons.mp member with rfl | later
        · obtain ⟨content, absent, ends⟩ := ih first (by simp)
          refine ⟨item :: content, by simp [apart, absent], ?_⟩
          rcases ends with rfl | rfl
          · exact Or.inl rfl
          · exact Or.inr rfl
        · exact ih line (List.mem_cons_of_mem _ later)

theorem newline_not_mem_trim {blank : Item → Bool} {text line : List Item}
    (white : blank newline = true) (member : line ∈ lines newline text) :
    newline ∉ trim blank line := by
  obtain ⟨content, absent, ends⟩ := line_shape text line member
  intro inside
  rcases ends with rfl | rfl
  · exact absent (mem_of_mem_trim inside)
  · rw [trim_blanks content (by simpa using white)] at inside
    exact absent (mem_of_mem_trim inside)

end Lines

end TextScan
