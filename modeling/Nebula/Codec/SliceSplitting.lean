import Nebula.Lib.ByteStrings
import Mathlib.Data.List.Infix

/- Splitting an Annex B byte string at its start codes, with the positions that the iterator
   keeps: where it stands and where the current slice began. -/
namespace SliceSplitting
open ByteStrings

section Model

structure Slice where
  start : Nat
  stop : Nat
  deriving DecidableEq

def Slice.bytes (data : Bytes) (slice : Slice) : Bytes :=
  (data.take slice.stop).drop slice.start

structure SplitBySliceIter where
  n : Nat
  data : Bytes

def SplitBySliceIter.new (data : Bytes) : SplitBySliceIter := ⟨0, data⟩

/-- The length of the start code at the front of what is left, as the next element and those
    peeked at tell. -/
def found (left : Bytes) : Option Nat :=
  if left[0]? = some 0 ∧ left[1]? = some 0 then
    if left[2]? = some 1 then some 3
    else if left[2]? = some 0 ∧ left[3]? = some 1 then some 4
    else none
  else none

theorem found_length {left : Bytes} {code : Nat} (at_ : found left = some code) :
    0 < code ∧ code ≤ left.length := by
  unfold found at at_
  split_ifs at at_ with zeros third fourth
  · obtain rfl := Option.some.inj at_
    have inside := (List.getElem?_eq_some_iff.mp third).1
    omega
  · obtain rfl := Option.some.inj at_
    have inside := (List.getElem?_eq_some_iff.mp fourth.2).1
    omega

/-- `&self.data[start..n]` -/
def sliceAt (data : Bytes) (start n : Nat) : Outcome Slice :=
  if start ≤ n ∧ n ≤ data.length then .ok ⟨start, n⟩ else .error .panic

/-- The rest of a call from a state of its loop: what is returned, with the position where the
    iterator is left. -/
def scan (data : Bytes) (start n : Nat) : Option (Nat × Outcome Slice) :=
  if n < data.length then
    match at_ : found (data.drop n) with
    | some code =>
      if n = start then scan data (n + code) (n + code)
      else some (n + code, sliceAt data start n)
    | none => scan data start (n + 1)
  else if start < n then some (n, sliceAt data start n)
  else none
termination_by data.length - n
decreasing_by
  · have positive := (found_length at_).1
    omega
  · omega

def next (iter : SplitBySliceIter) : SplitBySliceIter × Outcome (Option Slice) :=
  match scan iter.data iter.n iter.n with
  | some (n, .ok slice) => ({ iter with n := n }, .ok (some slice))
  | some (n, .error fault) => ({ iter with n := n }, .error fault)
  | none => (iter, .ok none)

end Model

section Scan

variable {data : Bytes}

/-- Nothing but start codes from one position to another. -/
inductive Codes (data : Bytes) : Nat → Nat → Prop where
  | stay (n : Nat) : Codes data n n
  | code (n code stop : Nat) (at_ : found (data.drop n) = some code)
      (more : Codes data (n + code) stop) : Codes data n stop

/-- No start code begins in a slice, which is not empty. -/
structure Clear (data : Bytes) (slice : Slice) : Prop where
  some_ : slice.start < slice.stop
  inside : slice.stop ≤ data.length
  clear : ∀ n, slice.start ≤ n → n < slice.stop → found (data.drop n) = none

/-- What comes after a slice: a start code, or the end. -/
def Ends (data : Bytes) (stop n : Nat) : Prop :=
  (∃ code, found (data.drop stop) = some code ∧ n = stop + code) ∨
    stop = data.length ∧ n = stop

theorem Codes.le {n stop : Nat} (codes : Codes data n stop) : n ≤ stop := by
  induction codes with
  | stay n => exact Nat.le_refl n
  | code n code stop at_ more ih => omega

theorem scan_clear {start n : Nat} (some_ : start < n) (inside : n ≤ data.length)
    (clear : ∀ i, start ≤ i → i < n → found (data.drop i) = none) :
    ∃ stop after, scan data start n = some (after, .ok ⟨start, stop⟩) ∧
      Clear data ⟨start, stop⟩ ∧ Ends data stop after := by
  induction left : data.length - n generalizing n with
  | zero =>
    have all : n = data.length := by omega
    subst all
    refine ⟨data.length, data.length, ?_, ⟨some_, Nat.le_refl _, clear⟩, Or.inr ⟨rfl, rfl⟩⟩
    rw [scan, if_neg (Nat.lt_irrefl _), if_pos some_, sliceAt,
      if_pos ⟨Nat.le_of_lt some_, Nat.le_refl _⟩]
  | succ left ih =>
    have more : n < data.length := by omega
    rw [scan, if_pos more]
    split
    · rename_i code at_
      rw [if_neg (by omega), sliceAt, if_pos ⟨Nat.le_of_lt some_, inside⟩]
      exact ⟨n, n + code, rfl, ⟨some_, inside, clear⟩, Or.inl ⟨code, at_, rfl⟩⟩
    · rename_i at_
      refine ih (by omega) more ?_ (by omega)
      intro i low high
      by_cases last : i = n
      · rw [last, at_]
      · exact clear i low (by omega)

theorem scan_cases (n : Nat) (inside : n ≤ data.length) :
    (scan data n n = none ∧ Codes data n data.length) ∨
      ∃ slice after, scan data n n = some (after, .ok slice) ∧ Codes data n slice.start ∧
        Clear data slice ∧ Ends data slice.stop after := by
  induction left : data.length - n using Nat.strongRecOn generalizing n with
  | ind left ih =>
    by_cases more : n < data.length
    · rw [scan, if_pos more]
      split
      · rename_i code at_
        obtain ⟨positive, short⟩ := found_length at_
        rw [List.length_drop] at short
        rw [if_pos rfl]
        rcases ih _ (by omega) (n + code) (by omega) rfl with
          ⟨ended, codes⟩ | ⟨slice, after, returned, codes, rest⟩
        · exact Or.inl ⟨ended, .code n code _ at_ codes⟩
        · exact Or.inr ⟨slice, after, returned, .code n code _ at_ codes, rest⟩
      · rename_i at_
        obtain ⟨stop, after, returned, clear, ends⟩ :=
          @scan_clear data n (n + 1) (Nat.lt_succ_self n) more (by
            intro i low high
            obtain rfl : i = n := by omega
            exact at_)
        exact Or.inr ⟨⟨n, stop⟩, after, returned, .stay n, clear, ends⟩
    · obtain rfl : n = data.length := by omega
      refine Or.inl ⟨?_, .stay _⟩
      rw [scan, if_neg more, if_neg more]

theorem next_cases (iter : SplitBySliceIter) (inside : iter.n ≤ iter.data.length) :
    (next iter = (iter, .ok none) ∧ Codes iter.data iter.n iter.data.length) ∨
      ∃ slice after, next iter = (⟨after, iter.data⟩, .ok (some slice)) ∧
        Codes iter.data iter.n slice.start ∧ Clear iter.data slice ∧
        Ends iter.data slice.stop after := by
  rcases scan_cases iter.n inside with ⟨ended, codes⟩ | ⟨slice, after, returned, rest⟩
  · exact Or.inl ⟨by rw [next, ended], codes⟩
  · exact Or.inr ⟨slice, after, by rw [next, returned], rest⟩

theorem Ends.le {stop n : Nat} (ends : Ends data stop n) (inside : stop ≤ data.length) :
    stop ≤ n ∧ n ≤ data.length := by
  rcases ends with ⟨code, at_, rfl⟩ | ⟨whole, rfl⟩
  · have short := (found_length at_).2
    rw [List.length_drop] at short
    omega
  · omega

theorem next_advances {iter after : SplitBySliceIter} {slice : Slice}
    (returned : next iter = (after, .ok (some slice))) :
    after.data = iter.data ∧ after.data.length - after.n < iter.data.length - iter.n := by
  by_cases inside : iter.n ≤ iter.data.length
  · rcases next_cases iter inside with ⟨ended, -⟩ | ⟨found, n, same, codes, clear, ends⟩
    · rw [ended] at returned
      cases returned
    · rw [same] at returned
      cases returned
      have before := codes.le
      have some_ := clear.some_
      have later := (ends.le clear.inside).1
      have all := clear.inside
      exact ⟨rfl, by simp only; omega⟩
  · have ended : scan iter.data iter.n iter.n = none := by
      rw [scan, if_neg (by omega), if_neg (Nat.lt_irrefl _)]
    rw [next, ended] at returned
    cases returned

/-- All the slices that the iterator still yields. -/
def collect (iter : SplitBySliceIter) : Outcome (List Slice) :=
  match step : next iter with
  | (_, .error fault) => .error fault
  | (_, .ok none) => .ok []
  | (after, .ok (some slice)) =>
    have _advances := (next_advances step).2
    (collect after).map (slice :: ·)
termination_by iter.data.length - iter.n

def split (data : Bytes) : Outcome (List Slice) := collect (.new data)

end Scan

section Pieces

variable {data : Bytes}

/-- The slices of a byte string from a position on, with start codes before, between and after
    them. -/
inductive Pieces (data : Bytes) : Nat → List Slice → Prop where
  | done (n : Nat) (codes : Codes data n data.length) : Pieces data n []
  | piece (n after : Nat) (slice : Slice) (rest : List Slice) (codes : Codes data n slice.start)
      (clear : Clear data slice) (ends : Ends data slice.stop after)
      (later : Pieces data after rest) : Pieces data n (slice :: rest)

theorem collect_done {iter : SplitBySliceIter} (ended : next iter = (iter, .ok none)) :
    collect iter = .ok [] := by
  rw [collect]
  split <;> rename_i step <;> rw [ended] at step <;> cases step

theorem collect_piece {iter after : SplitBySliceIter} {slice : Slice}
    (returned : next iter = (after, .ok (some slice))) :
    collect iter = (collect after).map (slice :: ·) := by
  rw [collect]
  split <;> rename_i step <;> rw [returned] at step <;> cases step
  rfl

theorem collect_pieces (iter : SplitBySliceIter) (inside : iter.n ≤ iter.data.length) :
    ∃ slices, collect iter = .ok slices ∧ Pieces iter.data iter.n slices := by
  induction left : iter.data.length - iter.n using Nat.strongRecOn generalizing iter with
  | ind left ih =>
    rcases next_cases iter inside with ⟨ended, codes⟩ | ⟨slice, n, returned, codes, clear, ends⟩
    · exact ⟨[], collect_done ended, .done _ codes⟩
    · have advances := (next_advances returned).2
      obtain ⟨rest, yielded, pieces⟩ :=
        ih _ (left ▸ advances) ⟨n, iter.data⟩ (ends.le clear.inside).2 rfl
      refine ⟨slice :: rest, ?_, .piece _ n slice rest codes clear ends pieces⟩
      rw [collect_piece returned, yielded]
      rfl

theorem split_pieces (data : Bytes) : ∃ slices, split data = .ok slices ∧ Pieces data 0 slices :=
  collect_pieces (.new data) (Nat.zero_le _)

/-- No start code stands where start codes end before a slice or at the end. -/
theorem Codes.unique {n first second : Nat} (one : Codes data n first) (other : Codes data n second)
    (stopsFirst : found (data.drop first) = none) (stopsSecond : found (data.drop second) = none) :
    first = second := by
  induction one with
  | stay n =>
    cases other with
    | stay => rfl
    | code _ code _ at_ more => rw [stopsFirst] at at_; cases at_
  | code n code stop at_ more ih =>
    cases other with
    | stay => rw [stopsSecond] at at_; cases at_
    | code _ code' _ at' more' =>
      obtain rfl : code = code' := Option.some.inj (at_.symm.trans at')
      exact ih more' stopsFirst

theorem found_end : found (data.drop data.length) = none := by
  rw [List.drop_length]
  rfl

theorem Clear.begins {slice : Slice} (clear : Clear data slice) :
    found (data.drop slice.start) = none :=
  clear.clear _ (Nat.le_refl _) clear.some_

theorem Clear.stop_le {first second : Slice} {after : Nat} (one : Clear data first)
    (other : Clear data second) (same : first.start = second.start)
    (ends : Ends data second.stop after) : first.stop ≤ second.stop := by
  rcases ends with ⟨code, at_, -⟩ | ⟨whole, -⟩
  · by_contra longer
    have some_ := other.some_
    have none_ := one.clear second.stop (by omega) (by omega)
    rw [at_] at none_
    cases none_
  · exact whole ▸ one.inside

theorem Ends.unique {stop first second : Nat} (one : Ends data stop first)
    (other : Ends data stop second) : first = second := by
  rcases one with ⟨code, at_, rfl⟩ | ⟨whole, rfl⟩
  · rcases other with ⟨code', at', rfl⟩ | ⟨rfl, -⟩
    · rw [Option.some.inj (at_.symm.trans at')]
    · rw [found_end] at at_
      cases at_
  · rcases other with ⟨code, at_, -⟩ | ⟨-, rfl⟩
    · rw [whole, found_end] at at_
      cases at_
    · rfl

/-- A byte string has its slices in one way only. -/
theorem Pieces.unique {n : Nat} {first second : List Slice} (one : Pieces data n first)
    (other : Pieces data n second) : first = second := by
  induction one generalizing second with
  | done n codes =>
    cases other with
    | done => rfl
    | piece _ after slice rest codes' clear ends later =>
      have whole := codes.unique codes' found_end clear.begins
      have some_ := clear.some_
      have inside := clear.inside
      omega
  | piece n after slice rest codes clear ends later ih =>
    cases other with
    | done _ codes' =>
      have whole := codes'.unique codes found_end clear.begins
      have some_ := clear.some_
      have inside := clear.inside
      omega
    | piece _ after' slice' rest' codes' clear' ends' later' =>
      have start := codes.unique codes' clear.begins clear'.begins
      have stop := Nat.le_antisymm (clear.stop_le clear' start ends')
        (clear'.stop_le clear start.symm ends)
      obtain ⟨begins, stops⟩ := slice
      obtain ⟨begins', stops'⟩ := slice'
      obtain rfl : begins = begins' := start
      obtain rfl : stops = stops' := stop
      obtain rfl := ends.unique ends'
      rw [ih later']

end Pieces

section StartCodes

inductive StartCode where
  | three
  | four
  deriving DecidableEq

def StartCode.bytes : StartCode → Bytes
  | three => [0, 0, 1]
  | four => [0, 0, 0, 1]

/-- A byte that belongs to a start code. -/
def InCode (data : Bytes) (i : Nat) : Prop :=
  ∃ (code : StartCode) (n : Nat), code.bytes <+: data.drop n ∧ n ≤ i ∧ i < n + code.bytes.length

theorem found_code {left : Bytes} {length : Nat} (at_ : found left = some length) :
    ∃ code : StartCode, code.bytes <+: left ∧ code.bytes.length = length := by
  rcases left with _ | ⟨a, _ | ⟨b, _ | ⟨c, rest⟩⟩⟩
  · simp [found] at at_
  · simp [found] at at_
  · simp [found] at at_
  · unfold found at at_
    split_ifs at at_ with zeros third fourth
    · obtain ⟨rfl, rfl⟩ : a = 0 ∧ b = 0 := by simpa using zeros
      obtain rfl : c = 1 := by simpa using third
      obtain rfl := Option.some.inj at_
      exact ⟨.three, ⟨rest, rfl⟩, rfl⟩
    · obtain ⟨rfl, rfl⟩ : a = 0 ∧ b = 0 := by simpa using zeros
      rcases rest with _ | ⟨d, rest⟩
      · simp at fourth
      · obtain ⟨rfl, rfl⟩ : c = 0 ∧ d = 1 := by simpa using fourth
        obtain rfl := Option.some.inj at_
        exact ⟨.four, ⟨rest, rfl⟩, rfl⟩

theorem found_bytes (code : StartCode) (rest : Bytes) :
    found (code.bytes ++ rest) = some code.bytes.length := by
  cases code <;> simp [found, StartCode.bytes]

theorem codes_inCode {data : Bytes} {n stop : Nat} (codes : Codes data n stop) {i : Nat}
    (low : n ≤ i) (high : i < stop) : InCode data i := by
  induction codes with
  | stay n => omega
  | code n length stop at_ more ih =>
    obtain ⟨code, front, rfl⟩ := found_code at_
    by_cases inside : i < n + code.bytes.length
    · exact ⟨code, n, front, low, inside⟩
    · exact ih (by omega) high

variable {data : Bytes}

/-- A slice that no start code begins in contains none. -/
theorem clear_slice {slice : Slice} (clear : Clear data slice) :
    ¬ [0, 0, 1] <:+: slice.bytes data := by
  rintro ⟨before, after, same⟩
  have long := congrArg List.length same
  simp only [Slice.bytes, List.length_append, List.length_drop, List.length_take] at long
  have inside := clear.inside
  have front : StartCode.three.bytes <+: data.drop (slice.start + before.length) := by
    have cut : (slice.bytes data).drop before.length = StartCode.three.bytes ++ after := by
      rw [← same, List.append_assoc, List.drop_left]
      rfl
    rw [Slice.bytes, List.drop_drop] at cut
    have within : StartCode.three.bytes <+:
        (data.take slice.stop).drop (slice.start + before.length) := ⟨after, cut.symm⟩
    exact within.trans (List.IsPrefix.drop (List.take_prefix slice.stop data) _)
  obtain ⟨rest, whole⟩ := front
  have none_ := clear.clear (slice.start + before.length) (by omega)
    (by simp only [List.length_cons, List.length_nil] at long; omega)
  rw [← whole, found_bytes] at none_
  cases none_

theorem pieces_cover {n : Nat} {slices : List Slice} (pieces : Pieces data n slices) {i : Nat}
    (low : n ≤ i) (high : i < data.length) :
    (∃ slice ∈ slices, slice.start ≤ i ∧ i < slice.stop) ∨ InCode data i := by
  induction pieces with
  | done n codes => exact Or.inr (codes_inCode codes low high)
  | piece n after slice rest codes clear ends later ih =>
    by_cases before : i < slice.start
    · exact Or.inr (codes_inCode codes low before)
    · by_cases inside : i < slice.stop
      · exact Or.inl ⟨slice, List.mem_cons_self, by omega, inside⟩
      · by_cases next : i < after
        · rcases ends with ⟨length, at_, rfl⟩ | ⟨-, rfl⟩
          · exact Or.inr (codes_inCode (.code _ length _ at_ (.stay _)) (by omega) next)
          · omega
        · rcases ih (by omega) with ⟨other, member, found⟩ | code
          · exact Or.inl ⟨other, .tail _ member, found⟩
          · exact Or.inr code

theorem pieces_le {n : Nat} {slices : List Slice} (pieces : Pieces data n slices) :
    ∀ slice ∈ slices, n ≤ slice.start := by
  induction pieces with
  | done => exact List.forall_mem_nil _
  | piece n after slice rest codes clear ends later ih =>
    have start := codes.le
    have some_ := clear.some_
    have stop := (ends.le clear.inside).1
    intro other member
    rcases List.mem_cons.mp member with rfl | member
    · exact start
    · have := ih other member
      omega

theorem pieces_increase {n : Nat} {slices : List Slice} (pieces : Pieces data n slices) :
    slices.Pairwise fun first second => first.stop ≤ second.start := by
  induction pieces with
  | done => exact .nil
  | piece n after slice rest codes clear ends later ih =>
    refine .cons ?_ ih
    intro other member
    exact Nat.le_trans (ends.le clear.inside).1 (pieces_le later other member)

theorem pieces_clear {n : Nat} {slices : List Slice} (pieces : Pieces data n slices) :
    ∀ slice ∈ slices, Clear data slice := by
  induction pieces with
  | done => exact List.forall_mem_nil _
  | piece n after slice rest codes clear ends later ih =>
    exact List.forall_mem_cons.mpr ⟨clear, ih⟩

end StartCodes

section Units

/-- A unit can stand between start codes: it contains none and does not end with a zero. -/
def Whole (unit : Bytes) : Prop :=
  ¬ [0, 0, 1] <:+: unit ∧ ∃ byte, unit.getLast? = some byte ∧ byte ≠ 0

structure Nal where
  bytes : Bytes
  whole : Whole bytes

def stream (units : List (StartCode × Nal)) : Bytes :=
  units.flatMap fun unit => unit.1.bytes ++ unit.2.bytes

/-- Where the units stand, after the first `n` bytes. -/
def slicesFrom : Nat → List (StartCode × Nal) → List Slice
  | _, [] => []
  | n, (code, nal) :: rest =>
    let start := n + code.bytes.length
    ⟨start, start + nal.bytes.length⟩ :: slicesFrom (start + nal.bytes.length) rest

theorem three_in (code : StartCode) : [0, 0, 1] <:+: code.bytes := by
  cases code with
  | three => exact List.infix_rfl
  | four => exact ⟨[0], [], rfl⟩

/-- A unit that a start code begins with contains one or ends with a zero. -/
theorem whole_not_prefix {unit : Bytes} (whole : Whole unit) (code : StartCode) :
    ¬ unit <+: code.bytes := by
  obtain ⟨clear, last, ends, nonzero⟩ := whole
  intro front
  have cases_ := List.mem_inits unit code.bytes |>.mpr front
  cases code with
  | three =>
    simp only [StartCode.bytes, List.inits, List.map_cons, List.map_nil, List.mem_cons,
      List.not_mem_nil, or_false] at cases_
    rcases cases_ with rfl | rfl | rfl | rfl
    · simp at ends
    · simp_all
    · simp_all
    · exact clear (three_in .three)
  | four =>
    simp only [StartCode.bytes, List.inits, List.map_cons, List.map_nil, List.mem_cons,
      List.not_mem_nil, or_false] at cases_
    rcases cases_ with rfl | rfl | rfl | rfl | rfl
    · simp at ends
    · simp_all
    · simp_all
    · simp_all
    · exact clear (three_in .four)

theorem whole_clear {unit : Bytes} (whole : Whole unit) (rest : Bytes) :
    found (unit ++ rest) = none := by
  by_contra some_
  obtain ⟨length, at_⟩ := Option.ne_none_iff_exists'.mp some_
  obtain ⟨code, front, -⟩ := found_code at_
  rcases List.prefix_or_prefix_of_prefix front (List.prefix_append unit rest) with code_ | unit_
  · exact whole.1 ((three_in code).trans code_.isInfix)
  · exact whole_not_prefix whole code unit_

theorem whole_drop {unit : Bytes} (whole : Whole unit) {k : Nat} (inside : k < unit.length) :
    Whole (unit.drop k) := by
  obtain ⟨clear, last, ends, nonzero⟩ := whole
  refine ⟨fun contained => clear (contained.trans (List.drop_suffix k unit).isInfix), last, ?_,
    nonzero⟩
  rw [List.getLast?_drop, if_neg (by omega), ends]

theorem whole_pos {unit : Bytes} (whole : Whole unit) : 0 < unit.length := by
  obtain ⟨-, last, ends, -⟩ := whole
  cases unit with
  | nil => simp at ends
  | cons byte rest => simp

variable {data : Bytes}

theorem unit_clear {n : Nat} (nal : Nal) {rest : Bytes} (left : data.drop n = nal.bytes ++ rest) :
    Clear data ⟨n, n + nal.bytes.length⟩ := by
  have some_ := whole_pos nal.whole
  have long := congrArg List.length left
  rw [List.length_drop, List.length_append] at long
  refine ⟨by simp only; omega, by simp only; omega, ?_⟩
  intro i low high
  simp only at low high
  have here : data.drop i = nal.bytes.drop (i - n) ++ rest := by
    rw [← List.drop_append_of_le_length (by omega), ← left, List.drop_drop]
    congr 1
    omega
  rw [here]
  exact whole_clear (whole_drop nal.whole (by omega)) rest

theorem found_next {stop : Nat} {unit : StartCode × Nal} {rest : List (StartCode × Nal)}
    (left : data.drop stop = stream (unit :: rest)) :
    found (data.drop stop) = some unit.1.bytes.length ∧
      data.drop (stop + unit.1.bytes.length) = unit.2.bytes ++ stream rest := by
  have front : data.drop stop = unit.1.bytes ++ (unit.2.bytes ++ stream rest) := by
    rw [left, stream, List.flatMap_cons, List.append_assoc]
    rfl
  constructor
  · rw [front]
    exact found_bytes unit.1 _
  · rw [← List.drop_drop, front, List.drop_left]

theorem pieces_from (nal : Nal) (units : List (StartCode × Nal)) {n : Nat}
    (left : data.drop n = nal.bytes ++ stream units) :
    Pieces data n (⟨n, n + nal.bytes.length⟩ :: slicesFrom (n + nal.bytes.length) units) := by
  have clear := unit_clear nal left
  have later : data.drop (n + nal.bytes.length) = stream units := by
    rw [← List.drop_drop, left, List.drop_left]
  induction units generalizing nal n with
  | nil =>
    have inside := clear.inside
    have whole : n + nal.bytes.length = data.length := by
      have long := congrArg List.length later
      rw [List.length_drop] at long
      simp only [stream, List.flatMap_nil, List.length_nil] at long inside
      omega
    refine .piece n _ _ [] (.stay n) clear (Or.inr ⟨whole, rfl⟩) (.done _ ?_)
    exact whole ▸ .stay _
  | cons unit rest ih =>
    obtain ⟨at_, next⟩ := found_next later
    refine .piece n _ _ _ (.stay n) clear (Or.inl ⟨_, at_, rfl⟩) ?_
    refine ih unit.2 next (unit_clear unit.2 next) ?_
    rw [← List.drop_drop, next, List.drop_left]

theorem pieces_stream (units : List (StartCode × Nal)) :
    Pieces (stream units) 0 (slicesFrom 0 units) := by
  cases units with
  | nil => exact .done 0 (.stay 0)
  | cons unit rest =>
    have whole : (stream (unit :: rest)).drop 0 = stream (unit :: rest) := rfl
    obtain ⟨at_, next⟩ := found_next whole
    cases pieces_from unit.2 rest next with
    | piece _ after slice others codes clear ends later =>
      exact .piece 0 after _ _ (.code 0 _ _ at_ codes) clear ends later

theorem bytes_slicesFrom {n : Nat} (units : List (StartCode × Nal))
    (left : data.drop n = stream units) :
    (slicesFrom n units).map (Slice.bytes data) = units.map fun unit => unit.2.bytes := by
  induction units generalizing n with
  | nil => rfl
  | cons unit rest ih =>
    obtain ⟨code, nal⟩ := unit
    have after : data.drop (n + code.bytes.length) = nal.bytes ++ stream rest :=
      (found_next left).2
    have later : data.drop (n + code.bytes.length + nal.bytes.length) = stream rest := by
      rw [← List.drop_drop, after, List.drop_left]
    rw [slicesFrom, List.map_cons, List.map_cons, ih later, Slice.bytes, List.drop_take]
    simp only [after, Nat.add_sub_cancel_left, List.take_left]

/-- Units come back as they are from between start codes of either length. Any byte string is
    split, into slices that are in order and disjoint, that contain no start code and that leave
    no byte out but those of start codes. -/
theorem split_spec :
    (∀ units : List (StartCode × Nal), ∃ slices, split (stream units) = .ok slices ∧
        slices.map (Slice.bytes (stream units)) = units.map fun unit => unit.2.bytes) ∧
      ∀ data : Bytes, ∃ slices, split data = .ok slices ∧
        (∀ slice ∈ slices, slice.start < slice.stop ∧ slice.stop ≤ data.length ∧
          ¬ [0, 0, 1] <:+: slice.bytes data) ∧
        (slices.Pairwise fun first second => first.stop ≤ second.start) ∧
        ∀ i < data.length, (∃ slice ∈ slices, slice.start ≤ i ∧ i < slice.stop) ∨ InCode data i := by
  constructor
  · intro units
    obtain ⟨slices, done, pieces⟩ := split_pieces (stream units)
    obtain rfl := pieces.unique (pieces_stream units)
    exact ⟨_, done, bytes_slicesFrom units rfl⟩
  · intro data
    obtain ⟨slices, done, pieces⟩ := split_pieces data
    refine ⟨slices, done, ?_, pieces_increase pieces, fun i inside =>
      pieces_cover pieces (Nat.zero_le i) inside⟩
    intro slice member
    have clear := pieces_clear pieces slice member
    exact ⟨clear.some_, clear.inside, clear_slice clear⟩

end Units

end SliceSplitting
