import Mathlib.Data.Fin.VecNotation
import Mathlib.Tactic.Common

/- DTMF tones in audio: chunks are taken for a tone or for none, and a tone that stays is
   announced, as is its end. -/
namespace Dtmf

section Model

inductive Tone where
  | zero
  | one
  | two
  | three
  | four
  | five
  | six
  | seven
  | eight
  | nine
  | a
  | b
  | c
  | d
  | asterisk
  | pound
  deriving DecidableEq

inductive State where
  | on
  | off
  deriving DecidableEq

def TONE_TABLE : Fin 4 → Fin 4 → Tone :=
  ![![.one, .two, .three, .a], ![.four, .five, .six, .b], ![.seven, .eight, .nine, .c],
    ![.asterisk, .zero, .pound, .d]]

/-- How long we need to remain in a state for it to count. -/
def STATE_DURATION : Nat := 2

structure DtmfDecoder where
  toneChanges : List (Tone × State)
  curTone : Option Tone
  oldTone : Option Tone
  oldOldTone : Option Tone
  stateDuration : Nat
  deriving DecidableEq

def DtmfDecoder.new : DtmfDecoder := ⟨[], none, none, none, STATE_DURATION⟩

/-- Unwrapping an old tone that is not there panics. -/
def noTone (decoder : DtmfDecoder) : Option DtmfDecoder :=
  let decoder := match decoder.curTone with
    | some tone => { decoder with oldTone := some tone, curTone := none, stateDuration := 0 }
    | none => decoder
  if decoder.stateDuration < STATE_DURATION then
    let decoder := { decoder with stateDuration := decoder.stateDuration + 1 }
    if decoder.stateDuration = STATE_DURATION ∧ decoder.curTone ≠ decoder.oldOldTone then
      decoder.oldTone.map fun old =>
        { decoder with
          toneChanges := decoder.toneChanges ++ [(old, .off)]
          oldOldTone := decoder.curTone }
    else some decoder
  else some decoder

def tone (decoder : DtmfDecoder) (low high : Fin 4) : DtmfDecoder :=
  let tone := TONE_TABLE low high
  let decoder :=
    if decoder.curTone ≠ some tone then
      { decoder with oldTone := decoder.curTone, curTone := some tone, stateDuration := 0 }
    else decoder
  if decoder.stateDuration < STATE_DURATION then
    let decoder := { decoder with stateDuration := decoder.stateDuration + 1 }
    if decoder.stateDuration = STATE_DURATION ∧ decoder.curTone ≠ decoder.oldOldTone then
      { decoder with
        toneChanges := decoder.toneChanges ++
          (decoder.oldTone.map fun old => (old, State.off)).toList ++ [(tone, .on)]
        oldOldTone := decoder.curTone }
    else decoder
  else decoder

/-- A chunk by the indices of its two frequencies, where it has them. -/
abbrev Chunk := Option (Fin 4 × Fin 4)

def processChunk (decoder : DtmfDecoder) : Chunk → Option DtmfDecoder
  | none => noTone decoder
  | some (low, high) => some (tone decoder low high)

def process (decoder : DtmfDecoder) : List Chunk → Option DtmfDecoder
  | [] => some decoder
  | chunk :: rest => (processChunk decoder chunk).bind fun next => process next rest

end Model

section Steps

def toneOf (chunk : Chunk) : Option Tone := chunk.map fun found => TONE_TABLE found.1 found.2

/-- The tone that last counted when a chunk comes: a tone or silence counts once it came twice. -/
def counted (last before current next : Option Tone) : Option Tone :=
  if next = current ∧ before ≠ current then current else last

/-- What is announced when a chunk comes: the end of what came just before, then the tone. -/
def announced (last before current next : Option Tone) : List (Tone × State) :=
  if next = current ∧ before ≠ current ∧ current ≠ last then
    (before.map fun old => (old, State.off)).toList ++
      (current.map fun tone => (tone, State.on)).toList
  else []

/-- The registers, against the tone that last counted, the one before the current one and the
    current one. -/
structure Registers (decoder : DtmfDecoder) (last before current : Option Tone) : Prop where
  cur : decoder.curTone = current
  oldOld : decoder.oldOldTone = last
  stays : before = current → decoder.stateDuration = STATE_DURATION
  fresh : before ≠ current → decoder.stateDuration = 1 ∧ decoder.oldTone = before

theorem noTone_eq {decoder : DtmfDecoder} {last before current : Option Tone}
    (registers : Registers decoder last before current) :
    ∃ next, noTone decoder = some next ∧
      next.toneChanges = decoder.toneChanges ++ announced last before current none ∧
      Registers next (counted last before current none) current none := by
  obtain ⟨changes, cur, old, oldOld, duration⟩ := decoder
  obtain ⟨rfl, rfl, stays, fresh⟩ := registers
  simp only at stays fresh
  cases cur with
  | some tone =>
    -- the silence begins
    refine ⟨⟨changes, none, some tone, oldOld, 1⟩, ?_, ?_, ?_⟩
    · simp [noTone, STATE_DURATION]
    · simp [announced]
    · constructor <;> simp [counted]
  | none =>
    by_cases same : before = none
    · obtain rfl := stays same
      refine ⟨⟨changes, none, old, oldOld, STATE_DURATION⟩, ?_, ?_, ?_⟩
      · simp [noTone]
      · simp [announced, same]
      · constructor <;> simp [counted, same]
    · obtain ⟨rfl, rfl⟩ := fresh same
      obtain ⟨was, rfl⟩ := Option.ne_none_iff_exists'.mp same
      by_cases known : oldOld = none
      · refine ⟨⟨changes, none, some was, oldOld, 2⟩, ?_, ?_, ?_⟩
        · simp [noTone, STATE_DURATION, known]
        · simp [announced, known]
        · constructor <;> simp [counted, STATE_DURATION, known]
      · refine ⟨⟨changes ++ [(was, .off)], none, some was, none, 2⟩, ?_, ?_, ?_⟩
        · simp [noTone, STATE_DURATION, Ne.symm known]
        · simp [announced, Ne.symm known]
        · constructor <;> simp [counted, STATE_DURATION]

theorem tone_eq {decoder : DtmfDecoder} {last before current : Option Tone}
    (registers : Registers decoder last before current) (low high : Fin 4) :
    (tone decoder low high).toneChanges =
        decoder.toneChanges ++ announced last before current (some (TONE_TABLE low high)) ∧
      Registers (tone decoder low high)
        (counted last before current (some (TONE_TABLE low high))) current
        (some (TONE_TABLE low high)) := by
  obtain ⟨changes, cur, old, oldOld, duration⟩ := decoder
  obtain ⟨rfl, rfl, stays, fresh⟩ := registers
  simp only at stays fresh
  generalize found : TONE_TABLE low high = heard
  by_cases goesOn : cur = some heard
  · subst goesOn
    by_cases same : before = some heard
    · obtain rfl := stays same
      refine ⟨?_, ?_⟩
      · simp [tone, found, announced, same]
      · constructor <;> simp [tone, found, counted, same]
    · obtain ⟨rfl, rfl⟩ := fresh same
      by_cases known : oldOld = some heard
      · refine ⟨?_, ?_⟩
        · simp [tone, found, announced, STATE_DURATION, known]
        · constructor <;> simp [tone, found, counted, STATE_DURATION, known]
      · refine ⟨?_, ?_⟩
        · simp [tone, found, announced, STATE_DURATION, Ne.symm known, same]
        · constructor <;> simp [tone, found, counted, STATE_DURATION, Ne.symm known, same]
  · -- another tone begins
    have other : ¬ some heard = cur := fun same => goesOn same.symm
    refine ⟨?_, ?_⟩
    · simp [tone, found, announced, STATE_DURATION, goesOn, other]
    · constructor <;> simp [tone, found, counted, STATE_DURATION, goesOn, other]

theorem processChunk_eq {decoder : DtmfDecoder} {last before current : Option Tone}
    (registers : Registers decoder last before current) (chunk : Chunk) :
    ∃ next, processChunk decoder chunk = some next ∧
      next.toneChanges =
        decoder.toneChanges ++ announced last before current (toneOf chunk) ∧
      Registers next (counted last before current (toneOf chunk)) current (toneOf chunk) := by
  cases chunk with
  | none => exact noTone_eq registers
  | some found => exact ⟨_, rfl, tone_eq registers found.1 found.2⟩

/-- All that is announced for some chunks. -/
def announcedBy (last before current : Option Tone) : List Chunk → List (Tone × State)
  | [] => []
  | chunk :: rest =>
    announced last before current (toneOf chunk) ++
      announcedBy (counted last before current (toneOf chunk)) current (toneOf chunk) rest

theorem process_eq {decoder : DtmfDecoder} {last before current : Option Tone}
    (registers : Registers decoder last before current) (chunks : List Chunk) :
    ∃ after, process decoder chunks = some after ∧
      after.toneChanges = decoder.toneChanges ++ announcedBy last before current chunks := by
  induction chunks generalizing decoder last before current with
  | nil => exact ⟨decoder, rfl, (List.append_nil _).symm⟩
  | cons chunk rest ih =>
    obtain ⟨next, done, changes, following⟩ := processChunk_eq registers chunk
    obtain ⟨after, ran, all⟩ := ih following
    refine ⟨after, ?_, ?_⟩
    · rw [process, done, Option.bind_some, ran]
    · rw [all, changes, announcedBy, List.append_assoc]

end Steps

section Brackets

/-- On and Off alternate, each Off for the tone of the last On; `tone` is the one that is on. -/
def Bracketed : Option Tone → List (Tone × State) → Prop
  | _, [] => True
  | none, (tone, .on) :: rest => Bracketed (some tone) rest
  | some tone, (ended, .off) :: rest => ended = tone ∧ Bracketed none rest
  | none, (_, .off) :: _ => False
  | some _, (_, .on) :: _ => False

/-- A tone or silence that counts for the first time comes directly after the one that counted
    before it: no single chunk of anything else stands between the two. -/
def Direct (last before current : Option Tone) : List Chunk → Prop
  | [] => True
  | chunk :: rest =>
    (toneOf chunk = current → before ≠ current → current ≠ last → before = last) ∧
      Direct (counted last before current (toneOf chunk)) current (toneOf chunk) rest

theorem bracketed_change {last before current : Option Tone} (changes : before ≠ current)
    (rest : List (Tone × State)) :
    Bracketed last ((before.map fun old => (old, State.off)).toList ++
        (current.map fun tone => (tone, State.on)).toList ++ rest) ↔
      before = last ∧ Bracketed current rest := by
  cases before with
  | none =>
    cases current with
    | none => exact absurd rfl changes
    | some tone =>
      cases last with
      | none => simp [Bracketed]
      | some sounding => simp [Bracketed]
  | some old =>
    cases last with
    | none => simp [Bracketed]
    | some sounding =>
      cases current with
      | none => simp [Bracketed]
      | some tone => simp [Bracketed]

theorem bracketed_announcedBy (last before current : Option Tone) (chunks : List Chunk) :
    Bracketed last (announcedBy last before current chunks) ↔ Direct last before current chunks := by
  induction chunks generalizing last before current with
  | nil => exact Iff.rfl
  | cons chunk rest ih =>
    unfold announcedBy Direct announced
    by_cases change : toneOf chunk = current ∧ before ≠ current ∧ current ≠ last
    · obtain ⟨again, fresh, other⟩ := change
      have counts : counted last before current (toneOf chunk) = current := if_pos ⟨again, fresh⟩
      rw [if_pos ⟨again, fresh, other⟩, bracketed_change fresh, counts, ih]
      simp [again, fresh, other]
    · rw [if_neg change, List.nil_append]
      have same : counted last before current (toneOf chunk) = last := by
        unfold counted
        split
        · rename_i twice
          by_contra other
          exact change ⟨twice.1, twice.2, other⟩
        · rfl
      rw [same, ih]
      constructor
      · intro direct
        exact ⟨fun again fresh other => absurd ⟨again, fresh, other⟩ change, direct⟩
      · exact And.right

/-- The decoder never panics, and what it announces is bracketed exactly where each tone or silence
    that counts comes directly after the one before it. -/
theorem process_bracketed_iff (chunks : List Chunk) :
    ∃ after, process DtmfDecoder.new chunks = some after ∧
      (Bracketed none after.toneChanges ↔ Direct none none none chunks) := by
  have initial : Registers DtmfDecoder.new none none none :=
    ⟨rfl, rfl, fun _ => rfl, fun changed => absurd rfl changed⟩
  obtain ⟨after, ran, changes⟩ := process_eq initial chunks
  have all : after.toneChanges = announcedBy none none none chunks := changes
  refine ⟨after, ran, ?_⟩
  rw [all]
  exact bracketed_announcedBy none none none chunks

/-- The first tone, a single chunk of the second one, then silence: the second one is ended. -/
theorem blip_ends_other_tone :
    ∃ after, process DtmfDecoder.new [some (0, 0), some (0, 0), some (0, 1), none, none] =
        some after ∧
      after.toneChanges = [(.one, .on), (.two, .off)] ∧ ¬ Bracketed none after.toneChanges := by
  refine ⟨⟨[(.one, .on), (.two, .off)], none, some .two, none, 2⟩, by decide, rfl, ?_⟩
  simp [Bracketed]

end Brackets

end Dtmf
