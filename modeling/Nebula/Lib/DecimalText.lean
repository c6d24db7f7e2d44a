/- Numbers written in decimal and texts joined by a separator that the left part
   does not contain: both can be read back. -/
namespace DecimalText

def digits (number : Nat) : List Char := Nat.toDigits 10 number

theorem digits_injective {left right : Nat} (same : digits left = digits right) : left = right := by
  have back := congrArg (fun text => Nat.ofDigitChars 10 text 0) same
  simpa only [digits, Nat.ofDigitChars_toDigits (b := 10) (by decide) (by decide)] using back

theorem not_mem_digits {char : Char} (number : Nat) (other : char.isDigit = false) :
    char ∉ digits number := by
  intro member
  have digit := Nat.isDigit_of_mem_toDigits (by decide) (by decide) member
  rw [other] at digit
  cases digit

/-- The first separator ends the left part. -/
theorem separated {Item : Type} {separator : Item} {left left' right right' : List Item}
    (absent : separator ∉ left) (absent' : separator ∉ left')
    (same : left ++ separator :: right = left' ++ separator :: right') :
    left = left' ∧ right = right' := by
  induction left generalizing left' with
  | nil =>
    cases left' with
    | nil => exact ⟨rfl, (List.cons.inj same).2⟩
    | cons head tail =>
      have first : separator = head := (List.cons.inj same).1
      exact absurd (first ▸ List.mem_cons_self) absent'
  | cons head tail ih =>
    cases left' with
    | nil =>
      have first : head = separator := (List.cons.inj same).1
      exact absurd (first ▸ List.mem_cons_self) absent
    | cons head' tail' =>
      obtain ⟨sameHead, rest⟩ := List.cons.inj same
      have inner := ih (fun member => absent (List.mem_cons_of_mem _ member))
        (fun member => absent' (List.mem_cons_of_mem _ member)) rest
      exact ⟨by rw [sameHead, inner.1], inner.2⟩

section Reading

/-- The number that a text of decimal digits stands for. -/
def number (text : List Char) : Option Nat :=
  if !text.isEmpty && text.all Char.isDigit then some (Nat.ofDigitChars 10 text 0) else none

theorem number_digits (value : Nat) : number (digits value) = some value := by
  have some_digit : (digits value).isEmpty = false := by
    have positive := Nat.length_toDigits_pos (b := 10) (n := value)
    cases shape : digits value with
    | nil => unfold digits at shape; rw [shape] at positive; cases positive
    | cons head tail => rfl
  have all_digits : (digits value).all Char.isDigit = true := by
    rw [List.all_eq_true]
    intro char member
    exact Nat.isDigit_of_mem_toDigits (by decide) (by decide) member
  have back : Nat.ofDigitChars 10 (digits value) 0 = value :=
    Nat.ofDigitChars_toDigits (by decide) (by decide)
  unfold number
  rw [some_digit, all_digits, back]
  rfl

theorem digits_cons (value : Nat) : ∃ head tail, digits value = head :: tail ∧ head.isDigit = true := by
  cases shape : digits value with
  | nil =>
    have read := number_digits value
    rw [shape] at read
    cases read
  | cons head tail =>
    refine ⟨head, tail, rfl, ?_⟩
    refine Nat.isDigit_of_mem_toDigits (b := 10) (n := value) (by decide) (by decide) ?_
    unfold digits at shape
    rw [shape]
    exact List.mem_cons_self

/-- An unsigned number may have a plus sign before it. -/
def readUInt16 (text : List Char) : Option UInt16 :=
  let unsigned := match text with
    | '+' :: rest => rest
    | _ => text
  (number unsigned).bind fun value =>
    if value < 65536 then some (UInt16.ofNat value) else none

/-- The same for a word of any size, by the first value that is too large. -/
def readBelow (bound : Nat) (text : List Char) : Option Nat :=
  let unsigned := match text with
    | '+' :: rest => rest
    | _ => text
  (number unsigned).bind fun value => if value < bound then some value else none

def integer : List Char → Option Int
  | '-' :: rest => (number rest).map fun value : Nat => -(value : Int)
  | '+' :: rest => (number rest).map fun value : Nat => (value : Int)
  | text => (number text).map fun value : Nat => (value : Int)

def readInt32 (text : List Char) : Option Int32 :=
  (integer text).bind fun value =>
    if -2147483648 ≤ value ∧ value ≤ 2147483647 then some (Int32.ofInt value) else none

def signed (value : Int) : List Char :=
  if value < 0 then '-' :: digits value.natAbs else digits value.natAbs

theorem readUInt16_digits (value : UInt16) : readUInt16 (digits value.toNat) = some value := by
  obtain ⟨head, tail, shape, digit⟩ := digits_cons value.toNat
  have plain : head ≠ '+' := by
    rintro rfl
    exact absurd digit (by decide)
  have read := number_digits value.toNat
  have bound : value.toNat < 65536 := value.toNat_lt
  rw [shape] at read ⊢
  unfold readUInt16
  split
  · rename_i rest same
    exact absurd (List.cons.inj same).1 plain
  · simp [read, bound]

theorem readBelow_digits {value bound : Nat} (below : value < bound) :
    readBelow bound (digits value) = some value := by
  obtain ⟨head, tail, shape, digit⟩ := digits_cons value
  have plain : head ≠ '+' := by
    rintro rfl
    exact absurd digit (by decide)
  have read := number_digits value
  rw [shape] at read ⊢
  unfold readBelow
  split
  · rename_i rest same
    exact absurd (List.cons.inj same).1 plain
  · simp [read, below]

theorem integer_signed (value : Int) : integer (signed value) = some value := by
  unfold signed
  split
  · have back : -((value.natAbs : Nat) : Int) = value := by omega
    show (number (digits value.natAbs)).map (fun value : Nat => -(value : Int)) = some value
    rw [number_digits, Option.map_some, back]
  · obtain ⟨head, tail, shape, digit⟩ := digits_cons value.natAbs
    have read := number_digits value.natAbs
    have back : ((value.natAbs : Nat) : Int) = value := by omega
    rw [shape] at read ⊢
    unfold integer
    split
    · rename_i rest same
      rw [(List.cons.inj same).1] at digit
      exact absurd digit (by decide)
    · rename_i rest same
      rw [(List.cons.inj same).1] at digit
      exact absurd digit (by decide)
    · rw [read]
      exact congrArg some back

theorem readInt32_signed (value : Int32) : readInt32 (signed value.toInt) = some value := by
  have low := value.le_toInt
  have high := value.toInt_lt
  have within : -2147483648 ≤ value.toInt ∧ value.toInt ≤ 2147483647 := by omega
  simp [readInt32, integer_signed, within]

theorem signed_natCast (value : Nat) : signed (value : Int) = digits value := by
  simp [signed]

theorem digits_snoc (value : Nat) :
    ∃ front last, digits value = front ++ [last] ∧ last.isDigit = true := by
  obtain ⟨head, tail, shape, _⟩ := digits_cons value
  rcases List.eq_nil_or_concat (digits value) with empty | ⟨front, last, split⟩
  · rw [empty] at shape
    cases shape
  · rw [List.concat_eq_append] at split
    refine ⟨front, last, split, ?_⟩
    refine Nat.isDigit_of_mem_toDigits (b := 10) (n := value) (by decide) (by decide) ?_
    unfold digits at split
    rw [split]
    simp

theorem signed_snoc (value : Int) :
    ∃ front last, signed value = front ++ [last] ∧ last.isDigit = true := by
  obtain ⟨front, last, split, digit⟩ := digits_snoc value.natAbs
  unfold signed
  split
  · exact ⟨'-' :: front, last, by rw [split, List.cons_append], digit⟩
  · exact ⟨front, last, split, digit⟩

theorem not_mem_signed {char : Char} (value : Int) (other : char.isDigit = false)
    (notMinus : char ≠ '-') : char ∉ signed value := by
  unfold signed
  split
  · intro member
    rcases List.mem_cons.mp member with minus | inside
    · exact notMinus minus
    · exact not_mem_digits _ other inside
  · exact not_mem_digits _ other

end Reading

end DecimalText
