import Nebula.Lib.ByteStrings

/- One's complement sums of 16-bit words, where the carry out of the top is added at the
   bottom, and what is lost where the carries of a plain sum are added once only. -/
namespace OnesComplement
open ByteStrings

section Sums

def add (a b : Nat) : Nat := if 65535 < a + b then a + b - 65535 else a + b

def sum (words : List Nat) : Nat := words.foldl add 0

/-- The word that stands for a plain sum: zero is its own, and other multiples are 0xffff. -/
def reduce (total : Nat) : Nat := if total = 0 then 0 else (total - 1) % 65535 + 1

theorem reduce_cases (total : Nat) : ∃ carries, total = reduce total + 65535 * carries ∧
    reduce total ≤ 65535 ∧ (reduce total = 0 → total = 0) := by
  unfold reduce
  split
  · exact ⟨0, by omega⟩
  · exact ⟨(total - 1) / 65535, by omega⟩

/-- A word stands for a sum if it differs by a multiple, and is zero for zero only. -/
theorem reduce_eq {total word carries : Nat} (whole : total = word + 65535 * carries)
    (bound : word ≤ 65535) (zero : word = 0 → total = 0) : reduce total = word := by
  unfold reduce
  split
  · omega
  · have before : total - 1 = (word - 1) + 65535 * carries := by omega
    have small : word - 1 < 65535 := by omega
    rw [before, Nat.add_mul_mod_self_left, Nat.mod_eq_of_lt small]
    omega

theorem add_reduce {total word : Nat} (bound : word ≤ 65535) :
    add (reduce total) word = reduce (total + word) := by
  obtain ⟨carries, whole, small, zero⟩ := reduce_cases total
  unfold add
  split
  · exact (@reduce_eq _ _ (carries + 1) (by omega) (by omega) (by omega)).symm
  · exact (@reduce_eq _ _ carries (by omega) (by omega) (by omega)).symm

theorem foldl_reduce {words : List Nat} (bounds : ∀ word ∈ words, word ≤ 65535) (total : Nat) :
    words.foldl add (reduce total) = reduce (total + words.sum) := by
  induction words generalizing total with
  | nil => rfl
  | cons word words ih =>
    have first := bounds word List.mem_cons_self
    have later := ih fun other member => bounds other (List.mem_cons_of_mem _ member)
    rw [List.foldl_cons, add_reduce first, later, List.sum_cons, Nat.add_assoc]

theorem sum_eq {words : List Nat} (bounds : ∀ word ∈ words, word ≤ 65535) :
    sum words = reduce words.sum := by
  have start := foldl_reduce bounds 0
  rwa [Nat.zero_add] at start

theorem reduce_eq_ones {total : Nat} : reduce total = 65535 ↔ 0 < total ∧ total % 65535 = 0 := by
  unfold reduce
  split
  · omega
  · omega

end Sums

section Carries

/-- The low word of a sum after its carries are added to it once. -/
def carried (total : Nat) : Nat := (total + total / 65536) % 65536

/-- Adding the carries does not carry again. -/
def KeepsCarries (total : Nat) : Prop := total % 65536 + total / 65536 < 65536

instance (total : Nat) : Decidable (KeepsCarries total) :=
  inferInstanceAs (Decidable (_ < _))

theorem carried_lt (total : Nat) : carried total < 65536 := Nat.mod_lt _ (by decide)

theorem carried_small {total : Nat} (small : total ≤ 65535) : carried total = total := by
  unfold carried
  omega

/-- Up to one carry that is lost, the low word stands for the sum. -/
theorem carried_cases (total : Nat) (bound : total < 65536 * 65536) :
    ∃ carries, (KeepsCarries total ∧ total = carried total + 65535 * carries) ∨
      (¬ KeepsCarries total ∧ total = carried total + 65535 * carries + 65536) := by
  unfold carried KeepsCarries
  by_cases keeps : total % 65536 + total / 65536 < 65536
  · exact ⟨total / 65536, Or.inl ⟨keeps, by omega⟩⟩
  · exact ⟨total / 65536, Or.inr ⟨keeps, by omega⟩⟩

theorem carried_keeps {total : Nat} (keeps : KeepsCarries total) :
    reduce total = carried total := by
  unfold KeepsCarries at keeps
  have low : carried total = total % 65536 + total / 65536 := by
    unfold carried
    omega
  exact @reduce_eq _ _ (total / 65536) (by omega) (by omega) (by omega)

end Carries

section Words

/-- Words in network order; a last byte alone is padded with zero. -/
def words : Bytes → List Nat
  | [] => []
  | [byte] => [word16 byte 0]
  | high :: low :: rest => word16 high low :: words rest

theorem words_append (left right : Bytes) (even : left.length % 2 = 0) :
    words (left ++ right) = words left ++ words right := by
  fun_induction words left with
  | case1 => rfl
  | case2 byte => cases even
  | case3 high low rest ih =>
    rw [List.length_cons, List.length_cons] at even
    rw [List.cons_append, List.cons_append, words, ih (by omega), List.cons_append]

theorem words_bounded (bytes : Bytes) : ∀ word ∈ words bytes, word ≤ 65535 := by
  fun_induction words bytes with
  | case1 => exact fun word member => by cases member
  | case2 byte =>
    intro word member
    obtain rfl := List.mem_singleton.mp member
    exact Nat.le_of_lt_succ (word16_lt byte 0)
  | case3 high low rest ih =>
    intro word member
    rcases List.mem_cons.mp member with rfl | inside
    · exact Nat.le_of_lt_succ (word16_lt high low)
    · exact ih word inside

theorem words_sum_le (bytes : Bytes) : (words bytes).sum ≤ 65535 * ((bytes.length + 1) / 2) := by
  fun_induction words bytes with
  | case1 => exact Nat.zero_le _
  | case2 byte =>
    have bound := word16_lt byte 0
    rw [List.sum_singleton, List.length_singleton]
    omega
  | case3 high low rest ih =>
    have bound := word16_lt high low
    rw [List.sum_cons, List.length_cons, List.length_cons]
    omega

end Words

end OnesComplement
