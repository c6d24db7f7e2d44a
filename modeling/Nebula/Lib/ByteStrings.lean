import Mathlib.Algebra.GroupWithZero.Nat
import Mathlib.Data.List.GetD
import Mathlib.Tactic.Common

/- Byte strings with bounds-checked access. An access outside the string is a
   panic, which is kept apart from an error that the code returns itself.
   Machine words are natural numbers below 2^16 or 2^32. -/
namespace ByteStrings

abbrev Bytes := List UInt8

inductive Fault where
  | panic
  | error (text : String)
  deriving DecidableEq, Repr

abbrev Outcome (α : Type) := Except Fault α

@[simp] theorem ok_bind {α β : Type} (a : α) (f : α → Outcome β) :
    (Except.ok a : Outcome α) >>= f = f a := rfl

@[simp] theorem error_bind {α β : Type} (e : Fault) (f : α → Outcome β) :
    (Except.error e : Outcome α) >>= f = .error e := rfl

@[simp] theorem pure_eq_ok {α : Type} (a : α) : (pure a : Outcome α) = .ok a := rfl

theorem bind_ok_inv {α β : Type} {x : Outcome α} {f : α → Outcome β} {b : β}
    (run : x >>= f = .ok b) : ∃ a, x = .ok a ∧ f a = .ok b := by
  cases x with
  | error e => cases run
  | ok a => exact ⟨a, rfl, run⟩

def byteAt (buf : Bytes) (i : Nat) : Outcome UInt8 :=
  match buf[i]? with
  | some b => .ok b
  | none => .error .panic

def word16 (a b : UInt8) : Nat := a.toNat * 256 + b.toNat

def bytes16 (v : Nat) : Bytes := [UInt8.ofNat (v / 256), UInt8.ofNat v]

def bytes32 (v : Nat) : Bytes := bytes16 (v / 65536) ++ bytes16 v

/- Big-endian reads at an offset, as a slice from the offset followed by a
   read of its first bytes. -/
def readU16 (buf : Bytes) (i : Nat) : Outcome Nat := do
  let a ← byteAt buf i
  let b ← byteAt buf (i + 1)
  pure (word16 a b)

def readU32 (buf : Bytes) (i : Nat) : Outcome Nat := do
  let hi ← readU16 buf i
  let lo ← readU16 buf (i + 2)
  pure (hi * 65536 + lo)

/-- Overwrites the bytes from `i` on; the string keeps its length. -/
def writeAt (buf : Bytes) (i : Nat) (word : Bytes) : Outcome Bytes :=
  if i + word.length ≤ buf.length then
    .ok (buf.take i ++ word ++ buf.drop (i + word.length))
  else .error .panic

def sliceTo (buf : Bytes) (i : Nat) : Outcome Bytes :=
  if i ≤ buf.length then .ok (buf.take i) else .error .panic

def sliceFrom (buf : Bytes) (i : Nat) : Outcome Bytes :=
  if i ≤ buf.length then .ok (buf.drop i) else .error .panic

/-- Length subtraction on unsigned sizes. -/
def checkedSub (a b : Nat) : Outcome Nat :=
  if b ≤ a then .ok (a - b) else .error .panic

def xorStream (stream : Nat → UInt8) (data : Bytes) : Bytes :=
  data.mapIdx fun i b => b ^^^ stream i

theorem forall_byte {P : UInt8 → Prop} (each : ∀ value : Fin 256, P (UInt8.ofNat value))
    (byte : UInt8) : P byte := by
  have own := each ⟨byte.toNat, byte.toNat_lt⟩
  rwa [UInt8.ofNat_toNat] at own

theorem word16_lt (a b : UInt8) : word16 a b < 65536 := by
  have ha := a.toNat_lt
  have hb := b.toNat_lt
  simp only [word16]
  omega

theorem word16_bytes (v : Nat) : word16 (UInt8.ofNat (v / 256)) (UInt8.ofNat v) = v % 65536 := by
  simp only [word16, UInt8.toNat_ofNat']
  omega

theorem bytes16_word16 (high low : UInt8) : bytes16 (word16 high low) = [high, low] := by
  have below := low.toNat_lt
  have quotient : (high.toNat * 256 + low.toNat) / 256 = high.toNat := by omega
  have remainder : UInt8.ofNat (high.toNat * 256 + low.toNat) = low := by
    apply UInt8.toNat_inj.mp
    rw [UInt8.toNat_ofNat']
    omega
  unfold bytes16 word16
  rw [quotient, remainder, UInt8.ofNat_toNat]

theorem bytes16_length (v : Nat) : (bytes16 v).length = 2 := rfl

theorem bytes32_length (v : Nat) : (bytes32 v).length = 4 := rfl

theorem byteAt_eq_ok {buf : Bytes} {i : Nat} (inside : i < buf.length) :
    byteAt buf i = .ok (buf.getD i 0) := by
  simp [byteAt, List.getD, List.getElem?_eq_getElem inside]

theorem byteAt_ok_iff {buf : Bytes} {i : Nat} {b : UInt8} :
    byteAt buf i = .ok b ↔ buf[i]? = some b := by
  unfold byteAt
  cases buf[i]? <;> simp

theorem byteAt_take {buf : Bytes} {i n : Nat} (below : i < n) :
    byteAt (buf.take n) i = byteAt buf i := by
  simp [byteAt, below]

theorem readU16_eq_ok {buf : Bytes} {i : Nat} (inside : i + 2 ≤ buf.length) :
    readU16 buf i = .ok (word16 (buf.getD i 0) (buf.getD (i + 1) 0)) := by
  simp only [readU16, byteAt_eq_ok (show i < buf.length by omega),
    byteAt_eq_ok (show i + 1 < buf.length by omega)]
  rfl

theorem readU16_lt {buf : Bytes} {i v : Nat} (read : readU16 buf i = .ok v) : v < 65536 := by
  obtain ⟨a, _, rest⟩ := bind_ok_inv read
  obtain ⟨b, _, last⟩ := bind_ok_inv rest
  cases last
  exact word16_lt a b

theorem readU32_lt {buf : Bytes} {i v : Nat} (read : readU32 buf i = .ok v) : v < 2 ^ 32 := by
  obtain ⟨high, first, rest⟩ := bind_ok_inv read
  obtain ⟨low, second, rest⟩ := bind_ok_inv rest
  have value : high * 65536 + low = v := Except.ok.inj rest
  have highFits := readU16_lt first
  have lowFits := readU16_lt second
  omega

theorem readU16_take {buf : Bytes} {i n : Nat} (below : i + 2 ≤ n) :
    readU16 (buf.take n) i = readU16 buf i := by
  simp only [readU16, byteAt_take (show i < n by omega), byteAt_take (show i + 1 < n by omega)]

theorem readU32_take {buf : Bytes} {i n : Nat} (below : i + 4 ≤ n) :
    readU32 (buf.take n) i = readU32 buf i := by
  simp only [readU32, readU16_take (show i + 2 ≤ n by omega),
    readU16_take (show i + 2 + 2 ≤ n by omega)]

/- Two strings with a common prefix of n bytes read the same below n. -/
theorem readU16_agree {p q : Bytes} {i n : Nat} (same : p.take n = q.take n)
    (below : i + 2 ≤ n) : readU16 p i = readU16 q i := by
  rw [← readU16_take below, same, readU16_take below]

theorem readU32_agree {p q : Bytes} {i n : Nat} (same : p.take n = q.take n)
    (below : i + 4 ≤ n) : readU32 p i = readU32 q i := by
  rw [← readU32_take below, same, readU32_take below]

theorem byteAt_agree {p q : Bytes} {i n : Nat} (same : p.take n = q.take n)
    (below : i < n) : byteAt p i = byteAt q i := by
  rw [← byteAt_take below, same, byteAt_take below]

theorem readU16_bytes16 (pre post : Bytes) (v : Nat) :
    readU16 (pre ++ bytes16 v ++ post) pre.length = .ok (v % 65536) := by
  rw [readU16_eq_ok (by simp [bytes16])]
  have first : (pre ++ bytes16 v ++ post).getD pre.length 0 = UInt8.ofNat (v / 256) := by
    simp [bytes16, List.getD]
  have second : (pre ++ bytes16 v ++ post).getD (pre.length + 1) 0 = UInt8.ofNat v := by
    simp [bytes16, List.getD]
  rw [first, second, word16_bytes]

theorem readU32_bytes32 (pre post : Bytes) (v : Nat) :
    readU32 (pre ++ bytes32 v ++ post) pre.length = .ok (v % 4294967296) := by
  have hi := readU16_bytes16 pre (bytes16 v ++ post) (v / 65536)
  have lo := readU16_bytes16 (pre ++ bytes16 (v / 65536)) post v
  simp only [bytes32, List.append_assoc, List.length_append, bytes16_length] at hi lo ⊢
  simp only [readU32, hi, lo]
  change Except.ok _ = Except.ok _
  congr 1
  omega

theorem writeAt_ok_iff {buf out : Bytes} {i : Nat} {word : Bytes} :
    writeAt buf i word = .ok out ↔
      i + word.length ≤ buf.length ∧
        out = buf.take i ++ word ++ buf.drop (i + word.length) := by
  unfold writeAt
  split
  · rename_i inside
    simp [inside, eq_comm]
  · rename_i outside
    simp [outside]

theorem writeAt_length {buf out : Bytes} {i : Nat} {word : Bytes}
    (run : writeAt buf i word = .ok out) : out.length = buf.length := by
  obtain ⟨inside, eq⟩ := writeAt_ok_iff.mp run
  subst eq
  simp
  omega

theorem byteAt_writeAt_outside {buf out : Bytes} {i j : Nat} {word : Bytes}
    (run : writeAt buf i word = .ok out) (apart : j < i ∨ i + word.length ≤ j) :
    byteAt out j = byteAt buf j := by
  obtain ⟨inside, eq⟩ := writeAt_ok_iff.mp run
  subst eq
  have start : (buf.take i).length = i := by simp; omega
  unfold byteAt
  rcases apart with before | after
  · rw [List.append_assoc, List.getElem?_append_left (by omega), List.getElem?_take_of_lt before]
  · rw [List.getElem?_append_right (by simp; omega), List.getElem?_drop]
    congr 2
    simp
    omega

theorem readU16_writeAt_outside {buf out : Bytes} {i j : Nat} {word : Bytes}
    (run : writeAt buf i word = .ok out) (apart : j + 2 ≤ i ∨ i + word.length ≤ j) :
    readU16 out j = readU16 buf j := by
  simp only [readU16, byteAt_writeAt_outside run (show j < i ∨ i + word.length ≤ j by omega),
    byteAt_writeAt_outside run (show j + 1 < i ∨ i + word.length ≤ j + 1 by omega)]

theorem readU32_writeAt_outside {buf out : Bytes} {i j : Nat} {word : Bytes}
    (run : writeAt buf i word = .ok out) (apart : j + 4 ≤ i ∨ i + word.length ≤ j) :
    readU32 out j = readU32 buf j := by
  simp only [readU32, readU16_writeAt_outside run (show j + 2 ≤ i ∨ i + word.length ≤ j by omega),
    readU16_writeAt_outside run (show j + 2 + 2 ≤ i ∨ i + word.length ≤ j + 2 by omega)]

theorem readU16_writeAt_same {buf out : Bytes} {i v : Nat}
    (run : writeAt buf i (bytes16 v) = .ok out) : readU16 out i = .ok (v % 65536) := by
  obtain ⟨inside, eq⟩ := writeAt_ok_iff.mp run
  have start : (buf.take i).length = i := by simp; omega
  have read := readU16_bytes16 (buf.take i) (buf.drop (i + (bytes16 v).length)) v
  rw [start, ← eq] at read
  exact read

theorem readU32_writeAt_same {buf out : Bytes} {i v : Nat}
    (run : writeAt buf i (bytes32 v) = .ok out) : readU32 out i = .ok (v % 4294967296) := by
  obtain ⟨inside, eq⟩ := writeAt_ok_iff.mp run
  have start : (buf.take i).length = i := by simp; omega
  have read := readU32_bytes32 (buf.take i) (buf.drop (i + (bytes32 v).length)) v
  rw [start, ← eq] at read
  exact read

theorem xorStream_length (stream : Nat → UInt8) (data : Bytes) :
    (xorStream stream data).length = data.length := by
  simp [xorStream]

/- A stream cipher decrypts with the keystream it encrypted with. -/
theorem xorStream_involutive (stream : Nat → UInt8) (data : Bytes) :
    xorStream stream (xorStream stream data) = data := by
  apply List.ext_getElem
  · simp [xorStream]
  · intro i inside _
    simp only [xorStream, List.getElem_mapIdx]
    rw [UInt8.xor_assoc, UInt8.xor_self, UInt8.xor_zero]

theorem sliceTo_ok_iff {buf out : Bytes} {i : Nat} :
    sliceTo buf i = .ok out ↔ i ≤ buf.length ∧ buf.take i = out := by
  unfold sliceTo
  split
  · rename_i inside
    simp [inside]
  · rename_i outside
    simp [outside]

theorem sliceTo_append (p tail : Bytes) : sliceTo (p ++ tail) p.length = .ok p := by
  simp [sliceTo]

theorem sliceFrom_append (p tail : Bytes) : sliceFrom (p ++ tail) p.length = .ok tail := by
  simp [sliceFrom]

theorem checkedSub_append (p tail : Bytes) :
    checkedSub (p ++ tail).length tail.length = .ok p.length := by
  simp [checkedSub]

end ByteStrings
