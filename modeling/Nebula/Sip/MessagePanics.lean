import Nebula.Sip.MessageRoundTrip

/- Untrusted text: what the two parsers return, an error and a panic apart, and which
   texts make them panic. -/
namespace SipText
open TextScan

inductive ParseError where
  | connectionEof
  | invalid
  deriving DecidableEq

inductive Outcome (Result : Type) where
  | ok (result : Result)
  | error (reason : ParseError)
  | panic

def Outcome.map {Result Other : Type} (f : Result → Other) : Outcome Result → Outcome Other
  | .ok result => .ok (f result)
  | .error reason => .error reason
  | .panic => .panic

def Outcome.result {Result : Type} : Outcome Result → Option Result
  | .ok result => some result
  | _ => none

def Outcome.panics {Result : Type} : Outcome Result → Bool
  | .panic => true
  | _ => false

section Parsing
variable (form : FormUrlencoded)

/-- What parse and async_parse do alike: from the start line on, with the text that is left.
    Only parse_line panics; its panics come from the slices of the digest headers. -/
def readMessage (line : Text) (texts : List Text) : Outcome (Message × Text) :=
  match readStart form (trim whitespace line) with
  | none => .error .invalid
  | some start =>
    match readFields form Fields.default texts with
    | none => .panic
    | some (fields, rest) =>
      match readBody (fields .contentLength) rest with
      | none => .error .invalid
      | some body =>
        .ok ({ start with fields, body }, rest.flatten.drop (body.getD []).length)

def Message.parse (s : Text) : Outcome Message :=
  (readMessage form ((lines '\n' s).headD []) (lines '\n' s).tail).map Prod.fst

/-- Blank lines before a message are passed over; the end of the stream is an error. -/
def Message.asyncParse (stream : Text) : Outcome (Message × Text) :=
  match (lines '\n' stream).dropWhile blankLine with
  | [] => .error .connectionEof
  | line :: texts => readMessage form line texts

end Parsing

variable {form : FormUrlencoded}

/-- A message is read from a text where the parser neither fails nor panics. -/
theorem parse_result (s : Text) : (Message.parse form s).result = Message.fromStr form s := by
  unfold Message.parse readMessage Message.fromStr
  cases readStart form (trim whitespace ((lines '\n' s).headD [])) with
  | none => rfl
  | some start =>
    cases readFields form Fields.default (lines '\n' s).tail with
    | none => rfl
    | some read =>
      obtain ⟨fields, rest⟩ := read
      simp only [Option.bind_some]
      cases readBody (fields .contentLength) rest with
      | none => rfl
      | some body => rfl

section Slices

theorem dropBytes_eq_some {n : Nat} {s rest : Text} :
    dropBytes n s = some rest ↔ ∃ front, s = front ++ rest ∧ byteLength front = n := by
  induction s generalizing n with
  | nil =>
    cases n with
    | zero =>
      constructor
      · intro same
        obtain rfl := Option.some.inj same
        exact ⟨[], rfl, rfl⟩
      · rintro ⟨front, split, _⟩
        obtain ⟨_, rfl⟩ := List.append_eq_nil_iff.mp split.symm
        rfl
    | succ n =>
      constructor
      · intro same
        cases same
      · rintro ⟨front, split, length⟩
        obtain ⟨rfl, _⟩ := List.append_eq_nil_iff.mp split.symm
        cases length
  | cons c s ih =>
    have positive := c.utf8Size_pos
    cases n with
    | zero =>
      constructor
      · intro same
        obtain rfl := Option.some.inj same
        exact ⟨[], rfl, rfl⟩
      · rintro ⟨front, split, length⟩
        cases front with
        | nil => exact congrArg some split
        | cons d front =>
          have more := d.utf8Size_pos
          simp only [byteLength, List.map_cons, List.sum_cons] at length
          omega
    | succ n =>
      unfold dropBytes
      constructor
      · intro same
        split at same
        · obtain ⟨front, rfl, length⟩ := ih.mp same
          refine ⟨c :: front, rfl, ?_⟩
          simp only [byteLength, List.map_cons, List.sum_cons] at length ⊢
          omega
        · cases same
      · rintro ⟨front, split, length⟩
        cases front with
        | nil => cases length
        | cons d front =>
          obtain ⟨rfl, rfl⟩ := List.cons.inj split
          simp only [byteLength, List.map_cons, List.sum_cons] at length
          rw [if_pos (by omega)]
          refine ih.mpr ⟨front, rfl, ?_⟩
          simp only [byteLength]
          omega

/-- There are a first and a last byte to take off, and both are characters. -/
def Sliceable (value : Text) : Prop :=
  ∃ first middle last, value = first :: (middle ++ [last]) ∧ first.utf8Size = 1 ∧
    last.utf8Size = 1

theorem unquote_ends (first : Char) (middle : Text) (last : Char) :
    (unquote (first :: (middle ++ [last]))).isSome ↔ first.utf8Size = 1 ∧ last.utf8Size = 1 := by
  simp only [unquote, List.getLast?_concat, Option.bind_some]
  split
  · rename_i one
    split
    · rename_i single
      exact iff_of_true rfl ⟨one, single⟩
    · rename_i longer
      exact iff_of_false (by simp) fun both => longer both.2
  · rename_i longer
    exact iff_of_false (by simp) fun both => longer both.1

theorem unquote_isSome {value : Text} : (unquote value).isSome ↔ Sliceable value := by
  constructor
  · intro found
    cases value with
    | nil => cases found
    | cons first rest =>
      rcases List.eq_nil_or_concat rest with rfl | ⟨middle, last, rfl⟩
      · simp [unquote] at found
      · rw [List.concat_eq_append] at found ⊢
        obtain ⟨one, single⟩ := (unquote_ends first middle last).mp found
        exact ⟨first, middle, last, rfl, one, single⟩
  · rintro ⟨first, middle, last, rfl, one, single⟩
    exact (unquote_ends first middle last).mpr ⟨one, single⟩

end Slices

section Digests

def partName (part : Text) : Text := (cut '=' (trim whitespace part)).1
def partValue (part : Text) : Text := (cut '=' (trim whitespace part)).2.getD []

/-- The names whose values Authorization::from_str takes out of their quotes. -/
def quotedNames : List Text :=
  ["username".toList, "realm".toList, "nonce".toList, "uri".toList, "response".toList,
    "cnonce".toList]

/-- The text starts with seven bytes, and every part of the rest that is taken out of its
    quotes can be. -/
def WholeDigest (taken : Text → Prop) (value : Text) : Prop :=
  ∃ front rest, value = front ++ rest ∧ byteLength front = 7 ∧
    ∀ part ∈ rest.splitOn ',', taken (partName part) → Sliceable (partValue part)

theorem setField_isSome (auth : Authorization) (name value : Text) :
    (auth.setField name value).isSome ↔ (name ∈ quotedNames → Sliceable value) := by
  rw [← unquote_isSome]
  unfold Authorization.setField quotedNames
  simp only [List.mem_cons, List.not_mem_nil, or_false]
  split
  · rename_i same
    simp [same]
  split
  · rename_i same
    simp [same]
  split
  · rename_i same
    simp [same]
  split
  · rename_i same
    simp [same]
  split
  · rename_i same
    simp [same]
  split
  · rename_i same
    subst same
    exact iff_of_true rfl (fun member => absurd member (by decide))
  split
  · rename_i same
    simp [same]
  split
  · rename_i same
    subst same
    exact iff_of_true rfl (fun member => absurd member (by decide))
  · simp_all

theorem authorization_part (auth : Authorization) (part : Text) :
    (auth.readPart part).isSome ↔ (partName part ∈ quotedNames → Sliceable (partValue part)) := by
  unfold Authorization.readPart
  split
  · rename_i empty
    have noName : partName part = [] := List.isEmpty_iff.mp empty
    refine iff_of_true rfl fun member => ?_
    rw [noName] at member
    exact absurd member (by decide)
  · exact setField_isSome auth (partName part) (partValue part)

theorem authenticate_part (auth : Authenticate) (part : Text) :
    (auth.readPart part).isSome ↔ (partName part ≠ [] → Sliceable (partValue part)) := by
  unfold Authenticate.readPart
  split
  · rename_i empty
    exact iff_of_true rfl fun named => absurd (List.isEmpty_iff.mp empty) named
  · rename_i named
    rw [Option.isSome_map, unquote_isSome]
    have written : partName part ≠ [] := fun empty => named (List.isEmpty_iff.mpr empty)
    exact ⟨fun sliced _ => sliced, fun sliced => sliced written⟩

/-- A fold that may stop goes on to the end if and only if no item stops it, where that
    is up to the items alone. -/
theorem foldlM_isSome {State Item : Type} {step : State → Item → Option State}
    {fine : Item → Prop} (each : ∀ state item, (step state item).isSome ↔ fine item)
    (items : List Item) (start : State) :
    (items.foldlM step start).isSome ↔ ∀ item ∈ items, fine item := by
  induction items generalizing start with
  | nil => simp
  | cons item items ih =>
    rw [List.foldlM_cons, List.forall_mem_cons, ← each start item]
    show ((step start item).bind _).isSome ↔ _
    cases found : step start item with
    | none => simp
    | some next => simpa using ih next

theorem wholeDigest_iff {State : Type} {step : State → Text → Option State} (start : State)
    {taken : Text → Prop}
    (each : ∀ state part,
      (step state part).isSome ↔ (taken (partName part) → Sliceable (partValue part)))
    (value : Text) :
    ((dropBytes 7 value).bind fun rest => (rest.splitOn ',').foldlM step start).isSome ↔
      WholeDigest taken value := by
  cases found : dropBytes 7 value with
  | none =>
    refine iff_of_false (by simp) ?_
    rintro ⟨front, rest, split, length, _⟩
    rw [dropBytes_eq_some.mpr ⟨front, split, length⟩] at found
    cases found
  | some rest =>
    rw [Option.bind_some, foldlM_isSome each]
    obtain ⟨front, split, length⟩ := dropBytes_eq_some.mp found
    constructor
    · exact fun all => ⟨front, rest, split, length, all⟩
    · rintro ⟨other, after, again, long, all⟩
      rw [dropBytes_eq_some.mpr ⟨other, again, long⟩] at found
      obtain rfl := Option.some.inj found
      exact all

theorem authorization_isSome (value : Text) :
    (Authorization.fromStr value).isSome ↔ WholeDigest (· ∈ quotedNames) value :=
  wholeDigest_iff ({} : Authorization) authorization_part value

theorem authenticate_isSome (value : Text) :
    (Authenticate.fromStr value).isSome ↔ WholeDigest (· ≠ []) value :=
  @wholeDigest_iff _ Authenticate.readPart ({} : Authenticate) (· ≠ []) authenticate_part value

end Digests

section HeaderLines

/-- A header line that parse_line takes without a panic. -/
def Line.Whole (line : Line) : Prop :=
  match line.header with
  | .credentials _ => WholeDigest (· ∈ quotedNames) line.value
  | .challenge _ => WholeDigest (· ≠ []) line.value
  | _ => True

theorem readHeader_isSome (line : Line) (old : line.header.Value) :
    (readHeader form line.header line old).isSome ↔ line.Whole := by
  unfold Line.Whole
  generalize line.header = header at old ⊢
  cases header with
  | credentials header =>
    show ((Authorization.fromStr line.value).map some).isSome ↔ _
    rw [Option.isSome_map]
    exact authorization_isSome line.value
  | challenge header =>
    show ((Authenticate.fromStr line.value).map some).isSome ↔ _
    rw [Option.isSome_map]
    exact authenticate_isSome line.value
  | _ => exact iff_of_true rfl trivial

theorem readFields_isSome (fields : Fields) (texts : List Text) :
    (readFields form fields texts).isSome ↔ ∀ line ∈ headerLines texts, line.Whole := by
  rw [readFields_eq, Option.isSome_map]
  refine foldlM_isSome (fun record line => ?_) (headerLines texts) fields
  unfold LineRecord.readLine
  rw [Option.isSome_map]
  exact readHeader_isSome line (record line.header)

end HeaderLines

section Panics

/-- Where the first line is one that a message may start with, all header lines up to the
    first blank one are whole. -/
def WholeHeader (form : FormUrlencoded) (texts : List Text) : Prop :=
  (readStart form (trim whitespace (texts.headD []))).isSome →
    ∀ line ∈ headerLines texts.tail, line.Whole

theorem readMessage_panics (line : Text) (texts : List Text) :
    (readMessage form line texts).panics = false ↔ WholeHeader form (line :: texts) := by
  unfold readMessage WholeHeader
  rw [List.headD_cons, List.tail_cons, ← @readFields_isSome form Fields.default]
  cases readStart form (trim whitespace line) with
  | none => exact iff_of_true rfl fun none => by cases none
  | some start =>
    cases readFields form Fields.default texts with
    | none => exact iff_of_false (by simp [Outcome.panics]) (by simp)
    | some read =>
      obtain ⟨fields, rest⟩ := read
      simp only
      cases readBody (fields .contentLength) rest with
      | none => exact iff_of_true rfl fun _ => rfl
      | some body => exact iff_of_true rfl fun _ => rfl

theorem readStart_nil : readStart form [] = none := rfl

theorem Outcome.panics_map {Result Other : Type} (f : Result → Other) (outcome : Outcome Result) :
    (outcome.map f).panics = outcome.panics := by
  cases outcome <;> rfl

theorem parse_panics (s : Text) :
    (Message.parse form s).panics = false ↔ WholeHeader form (lines '\n' s) := by
  unfold Message.parse
  rw [Outcome.panics_map, readMessage_panics]
  cases lines '\n' s with
  | nil => exact Iff.rfl
  | cons line texts => exact Iff.rfl

theorem asyncParse_panics (stream : Text) :
    (Message.asyncParse form stream).panics = false ↔
      WholeHeader form ((lines '\n' stream).dropWhile blankLine) := by
  unfold Message.asyncParse
  cases (lines '\n' stream).dropWhile blankLine with
  | nil => exact iff_of_true rfl fun none => by cases none
  | cons line texts => exact readMessage_panics line texts

/-- On no text does either parser panic, if and only if, from the first line that is not
    blank on, every digest header is long enough for its slices and cut between characters. -/
theorem parsers_return_iff (form : FormUrlencoded) (s : Text) :
    (Message.parse form s).panics = false ∧ (Message.asyncParse form s).panics = false ↔
      WholeHeader form ((lines '\n' s).dropWhile blankLine) := by
  rw [parse_panics, asyncParse_panics]
  refine ⟨fun both => both.2, fun whole => ⟨?_, whole⟩⟩
  cases shape : lines '\n' s with
  | nil => exact fun none => by cases none
  | cons line texts =>
    cases blank : blankLine line with
    | true =>
      intro some
      have empty : trim whitespace line = [] := List.isEmpty_iff.mp blank
      rw [List.headD_cons, empty, readStart_nil] at some
      cases some
    | false =>
      rw [shape, List.dropWhile_cons_of_neg (by simp [blank])] at whole
      exact whole

def shortDigest : Text := "INVITE sip:bob@b SIP/2.0\r\nAuthorization: Basic\r\n\r\n".toList

/-- The value of the header ends before its seventh byte. -/
theorem short_digest_panics : ¬∀ (form : FormUrlencoded) (s : Text),
    (Message.parse form s).panics = false ∧ (Message.asyncParse form s).panics = false := by
  intro total
  have panicked : (Message.parse unaryForm shortDigest).panics = true := by decide +kernel
  rw [(total unaryForm shortDigest).1] at panicked
  cases panicked

end Panics

end SipText
