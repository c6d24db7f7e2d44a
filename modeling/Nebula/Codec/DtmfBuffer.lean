import Nebula.Codec.Dtmf

/- Samples on their way to the DTMF registers: they are buffered to chunks of a fixed length, and
   each full chunk is taken for a tone or for none by the power of its frequencies. Arithmetic on
   samples is that of an arbitrary type. -/
namespace DtmfBuffer
open Dtmf (Tone State Chunk Registers)

variable {F : Type}

section Model

variable [OfNat F 0] [OfNat F 8] [Add F] [Sub F] [Mul F] [Div F] [LT F] [DecidableLT F]

def NUM_SAMPLES : Nat := 200

structure Parameters (F : Type) where
  windowSize : Nat
  sine : F
  cosine : F
  termCoefficient : F

structure Partial (F : Type) where
  params : Parameters F
  count : Nat
  prev : F
  prevprev : F

def Parameters.start (params : Parameters F) : Partial F := ⟨params, 0, 0, 0⟩

def Partial.addSamples (partial_ : Partial F) (samples : List F) : Partial F :=
  let summed := samples.foldl
    (fun sum sample =>
      let this := sum.params.termCoefficient * sum.prev - sum.prevprev + sample
      { sum with prevprev := sum.prev, prev := this })
    partial_
  { summed with count := summed.count + samples.length }

/-- Nothing is a failed assertion, here and below. -/
def Partial.finish (partial_ : Partial F) : Option (F × F) :=
  if partial_.count = partial_.params.windowSize then
    some (partial_.prev - partial_.prevprev * partial_.params.cosine,
      partial_.prevprev * partial_.params.sine)
  else none

def Partial.finishMagSquared (partial_ : Partial F) : Option F :=
  partial_.finish.map fun (real, imag) => real * real + imag * imag

def Parameters.magSquared (params : Parameters F) (samples : Vector F NUM_SAMPLES) : Option F :=
  (params.start.addSamples samples.toList).finishMagSquared

structure DtmfDecoder (F : Type) where
  lows : Fin 4 → Parameters F
  highs : Fin 4 → Parameters F
  lowHarms : Fin 4 → Parameters F
  highHarms : Fin 4 → Parameters F
  registers : Dtmf.DtmfDecoder
  samples : Vector F NUM_SAMPLES
  sampleLen : Nat

def DtmfDecoder.new (lows highs lowHarms highHarms : Fin 4 → Parameters F) : DtmfDecoder F :=
  ⟨lows, highs, lowHarms, highHarms, .new, Vector.replicate NUM_SAMPLES 0, 0⟩

/-- The dominant frequency, where it has eight times the power of the others together. -/
def mainFreq (freqs : Fin 4 → F) : Option (Fin 4) :=
  let idx := [1, 2, 3].foldl (fun idx i => if freqs idx < freqs i then i else idx) 0
  let sumOthers := [0, 1, 2, 3].foldl (fun sum i => if i ≠ idx then sum + freqs i else sum) 0
  if sumOthers * 8 < freqs idx then some idx else none

def powers (bank : Fin 4 → Parameters F) (samples : Vector F NUM_SAMPLES) :
    Option (Fin 4 → F) := do
  let first ← (bank 0).magSquared samples
  let second ← (bank 1).magSquared samples
  let third ← (bank 2).magSquared samples
  let fourth ← (bank 3).magSquared samples
  return ![first, second, third, fourth]

/-- What the samples of a full buffer are taken for; a strong harmonic makes it no tone. -/
def chunkOf (decoder : DtmfDecoder F) : Option Chunk := do
  let lowPowers ← powers decoder.lows decoder.samples
  let highPowers ← powers decoder.highs decoder.samples
  match mainFreq lowPowers, mainFreq highPowers with
  | some l, some h =>
    let l2 ← (decoder.lowHarms l).magSquared decoder.samples
    if lowPowers l / 8 < l2 then return none
    else
      let h2 ← (decoder.highHarms h).magSquared decoder.samples
      if highPowers h / 8 < h2 then return none else return some (l, h)
  | _, _ => return none

def processChunk (decoder : DtmfDecoder F) : Option (DtmfDecoder F) :=
  (chunkOf decoder).bind fun chunk =>
    (Dtmf.processChunk decoder.registers chunk).map fun registers =>
      { decoder with registers := registers }

/-- One sample; an index past the buffer panics. -/
def take (decoder : DtmfDecoder F) (sample : F) : Option (DtmfDecoder F) :=
  if inside : decoder.sampleLen < NUM_SAMPLES then
    let decoder := { decoder with
      samples := decoder.samples.set decoder.sampleLen sample inside
      sampleLen := decoder.sampleLen + 1 }
    if decoder.sampleLen = NUM_SAMPLES then
      (processChunk decoder).map fun decoder => { decoder with sampleLen := 0 }
    else some decoder
  else none

def takeAll (decoder : DtmfDecoder F) : List F → Option (DtmfDecoder F)
  | [] => some decoder
  | sample :: rest => (take decoder sample).bind fun next => takeAll next rest

/-- What was announced is handed out and forgotten. -/
def handOut (decoder : DtmfDecoder F) : List (Tone × State) × DtmfDecoder F :=
  (decoder.registers.toneChanges,
    { decoder with registers := { decoder.registers with toneChanges := [] } })

def process (decoder : DtmfDecoder F) (samples : List F) :
    Option (List (Tone × State) × DtmfDecoder F) :=
  (takeAll decoder samples).map handOut

end Model

section Batches

/-- The registers had they announced some changes before. -/
def announcing (earlier : List (Tone × State)) (registers : Dtmf.DtmfDecoder) :
    Dtmf.DtmfDecoder :=
  { registers with toneChanges := earlier ++ registers.toneChanges }

theorem noTone_announcing (earlier : List (Tone × State)) (registers : Dtmf.DtmfDecoder) :
    Dtmf.noTone (announcing earlier registers) =
      (Dtmf.noTone registers).map (announcing earlier) := by
  obtain ⟨changes, cur, old, oldOld, duration⟩ := registers
  cases cur with
  | some tone =>
    unfold Dtmf.noTone announcing
    by_cases known : oldOld = none <;> simp [Dtmf.STATE_DURATION, known]
  | none =>
    unfold Dtmf.noTone announcing
    by_cases short : duration < Dtmf.STATE_DURATION
    · by_cases counts : duration + 1 = Dtmf.STATE_DURATION ∧ none ≠ oldOld
      · cases old <;> simp [short, counts]
      · simp only [short, counts, if_true, if_false, Option.map_some]
    · simp [short]

theorem tone_announcing (earlier : List (Tone × State)) (registers : Dtmf.DtmfDecoder)
    (low high : Fin 4) :
    Dtmf.tone (announcing earlier registers) low high =
      announcing earlier (Dtmf.tone registers low high) := by
  obtain ⟨changes, cur, old, oldOld, duration⟩ := registers
  unfold Dtmf.tone announcing
  by_cases begins : cur ≠ some (Dtmf.TONE_TABLE low high)
  · simp [begins, Dtmf.STATE_DURATION]
  · by_cases short : duration < Dtmf.STATE_DURATION
    · by_cases counts : duration + 1 = Dtmf.STATE_DURATION ∧ cur ≠ oldOld
      · simp [begins, short, counts.1, counts.2]
      · simp only [begins, short, counts, if_true, if_false]
    · simp [begins, short]
theorem register_announcing (earlier : List (Tone × State)) (registers : Dtmf.DtmfDecoder)
    (chunk : Chunk) :
    Dtmf.processChunk (announcing earlier registers) chunk =
      (Dtmf.processChunk registers chunk).map (announcing earlier) := by
  cases chunk with
  | none => exact noTone_announcing earlier registers
  | some found => exact congrArg some (tone_announcing earlier registers found.1 found.2)

/-- The decoder had its registers announced some changes before. -/
def DtmfDecoder.announcing (earlier : List (Tone × State)) (decoder : DtmfDecoder F) :
    DtmfDecoder F :=
  { decoder with registers := DtmfBuffer.announcing earlier decoder.registers }

/-- A decoder is one that handed out what it announced, had it announced that before. -/
theorem announcing_handOut (decoder : DtmfDecoder F) :
    (handOut decoder).2.announcing (handOut decoder).1 = decoder := by
  obtain ⟨lows, highs, lowHarms, highHarms, registers, samples, sampleLen⟩ := decoder
  simp [handOut, DtmfDecoder.announcing, announcing]

variable [OfNat F 0] [OfNat F 8] [Add F] [Sub F] [Mul F] [Div F] [LT F] [DecidableLT F]

theorem processChunk_announcing (earlier : List (Tone × State)) (decoder : DtmfDecoder F) :
    processChunk (decoder.announcing earlier) =
      (processChunk decoder).map (DtmfDecoder.announcing earlier) := by
  have same : chunkOf (decoder.announcing earlier) = chunkOf decoder := rfl
  unfold processChunk
  rw [same]
  cases chunkOf decoder with
  | none => rfl
  | some chunk =>
    simp only [Option.bind_some, DtmfDecoder.announcing, register_announcing, Option.map_map]
    rfl

theorem take_announcing (earlier : List (Tone × State)) (decoder : DtmfDecoder F) (sample : F) :
    take (decoder.announcing earlier) sample =
      (take decoder sample).map (DtmfDecoder.announcing earlier) := by
  by_cases inside : decoder.sampleLen < NUM_SAMPLES
  · by_cases full : decoder.sampleLen + 1 = NUM_SAMPLES
    · have chunk := processChunk_announcing earlier { decoder with
        samples := decoder.samples.set decoder.sampleLen sample inside
        sampleLen := decoder.sampleLen + 1 }
      simp only [DtmfDecoder.announcing] at chunk
      simp only [take, DtmfDecoder.announcing, inside, full, dif_pos, if_true] at chunk ⊢
      rw [chunk, Option.map_map, Option.map_map]
      rfl
    · simp only [take, DtmfDecoder.announcing, inside, full, dif_pos, if_false, Option.map_some]
  · simp [take, DtmfDecoder.announcing, inside]

theorem takeAll_announcing (earlier : List (Tone × State)) (decoder : DtmfDecoder F)
    (samples : List F) :
    takeAll (decoder.announcing earlier) samples =
      (takeAll decoder samples).map (DtmfDecoder.announcing earlier) := by
  induction samples generalizing decoder with
  | nil => rfl
  | cons sample rest ih =>
    rw [takeAll, takeAll, take_announcing]
    cases take decoder sample with
    | none => rfl
    | some next => exact ih next

theorem takeAll_append (decoder : DtmfDecoder F) (samples more : List F) :
    takeAll decoder (samples ++ more) =
      (takeAll decoder samples).bind fun middle => takeAll middle more := by
  induction samples generalizing decoder with
  | nil => rfl
  | cons sample rest ih =>
    rw [List.cons_append, takeAll, takeAll]
    cases take decoder sample with
    | none => rfl
    | some next => exact ih next

theorem process_append (decoder : DtmfDecoder F) (samples more : List F) :
    process decoder (samples ++ more) =
      (process decoder samples).bind fun (first, middle) =>
        (process middle more).map fun (second, final) => (first ++ second, final) := by
  unfold process
  rw [takeAll_append]
  cases takeAll decoder samples with
  | none => rfl
  | some middle =>
    have later := takeAll_announcing (handOut middle).1 (handOut middle).2 more
    rw [announcing_handOut] at later
    simp only [Option.bind_some, Option.map_some, later, Option.map_map]
    rfl

end Batches

section Buffer

/-- The buffer has room for a sample, and the registers are those of a decoder that runs; the
    banks are for chunks of the buffer's length. -/
structure Sound (decoder : DtmfDecoder F) : Prop where
  room : decoder.sampleLen < NUM_SAMPLES
  registers : ∃ last before current, Registers decoder.registers last before current
  lows : ∀ i, (decoder.lows i).windowSize = NUM_SAMPLES
  highs : ∀ i, (decoder.highs i).windowSize = NUM_SAMPLES
  lowHarms : ∀ i, (decoder.lowHarms i).windowSize = NUM_SAMPLES
  highHarms : ∀ i, (decoder.highHarms i).windowSize = NUM_SAMPLES

theorem empty_room : 0 < NUM_SAMPLES := by decide

theorem handOut_sound {decoder : DtmfDecoder F} (sound : Sound decoder) :
    Sound (handOut decoder).2 := by
  obtain ⟨room, ⟨last, before, current, held⟩, lows, highs, lowHarms, highHarms⟩ := sound
  exact ⟨room, ⟨last, before, current, ⟨held.cur, held.oldOld, held.stays, held.fresh⟩⟩,
    lows, highs, lowHarms, highHarms⟩

theorem new_sound [OfNat F 0] {lows highs lowHarms highHarms : Fin 4 → Parameters F}
    (fitsLows : ∀ i, (lows i).windowSize = NUM_SAMPLES)
    (fitsHighs : ∀ i, (highs i).windowSize = NUM_SAMPLES)
    (fitsLowHarms : ∀ i, (lowHarms i).windowSize = NUM_SAMPLES)
    (fitsHighHarms : ∀ i, (highHarms i).windowSize = NUM_SAMPLES) :
    Sound (DtmfDecoder.new lows highs lowHarms highHarms) :=
  ⟨empty_room, ⟨none, none, none, rfl, rfl, fun _ => rfl, fun changed => absurd rfl changed⟩,
    fitsLows, fitsHighs, fitsLowHarms, fitsHighHarms⟩

variable [Add F] [Sub F] [Mul F]

theorem finish_count (partial_ : Partial F) (samples : List F) :
    (partial_.addSamples samples).count = partial_.count + samples.length ∧
      (partial_.addSamples samples).params = partial_.params := by
  unfold Partial.addSamples
  induction samples generalizing partial_ with
  | nil => simp
  | cons sample rest ih =>
    simp only [List.foldl_cons, List.length_cons]
    obtain ⟨count, params⟩ := ih { partial_ with
      prevprev := partial_.prev
      prev := partial_.params.termCoefficient * partial_.prev - partial_.prevprev + sample }
    simp only at count params
    exact ⟨by omega, params⟩

variable [OfNat F 0]

theorem magSquared_some {params : Parameters F} (fits : params.windowSize = NUM_SAMPLES)
    (samples : Vector F NUM_SAMPLES) : ∃ power, params.magSquared samples = some power := by
  obtain ⟨count, same⟩ := finish_count params.start samples.toList
  have full : (params.start.addSamples samples.toList).count =
      (params.start.addSamples samples.toList).params.windowSize := by
    rw [count, same, Vector.length_toList]
    simp [Parameters.start, fits]
  simp [Parameters.magSquared, Partial.finishMagSquared, Partial.finish, full]

theorem powers_some {bank : Fin 4 → Parameters F} (fits : ∀ i, (bank i).windowSize = NUM_SAMPLES)
    (samples : Vector F NUM_SAMPLES) : ∃ found, powers bank samples = some found := by
  obtain ⟨first, hasFirst⟩ := magSquared_some (fits 0) samples
  obtain ⟨second, hasSecond⟩ := magSquared_some (fits 1) samples
  obtain ⟨third, hasThird⟩ := magSquared_some (fits 2) samples
  obtain ⟨fourth, hasFourth⟩ := magSquared_some (fits 3) samples
  exact ⟨![first, second, third, fourth],
    by simp [powers, hasFirst, hasSecond, hasThird, hasFourth]⟩

variable [OfNat F 8] [Div F] [LT F] [DecidableLT F]

theorem chunkOf_some {decoder : DtmfDecoder F} (sound : Sound decoder) :
    ∃ chunk, chunkOf decoder = some chunk := by
  obtain ⟨lowPowers, hasLow⟩ := powers_some sound.lows decoder.samples
  obtain ⟨highPowers, hasHigh⟩ := powers_some sound.highs decoder.samples
  unfold chunkOf
  simp only [hasLow, hasHigh, Option.bind_eq_bind, Option.bind_some]
  cases mainFreq lowPowers with
  | none => exact ⟨none, rfl⟩
  | some l =>
    cases mainFreq highPowers with
    | none => exact ⟨none, rfl⟩
    | some h =>
      obtain ⟨l2, hasL2⟩ := magSquared_some (sound.lowHarms l) decoder.samples
      obtain ⟨h2, hasH2⟩ := magSquared_some (sound.highHarms h) decoder.samples
      simp only [hasL2, hasH2, Option.bind_some]
      split_ifs
      · exact ⟨none, rfl⟩
      · exact ⟨none, rfl⟩
      · exact ⟨some (l, h), rfl⟩

theorem processChunk_some (decoder : DtmfDecoder F)
    (sound : Sound { decoder with sampleLen := 0 }) :
    ∃ registers, processChunk decoder = some { decoder with registers := registers } ∧
      ∃ last before current, Registers registers last before current := by
  obtain ⟨last, before, current, held⟩ := sound.registers
  obtain ⟨chunk, found⟩ := chunkOf_some sound
  have found : chunkOf decoder = some chunk := found
  obtain ⟨registers, stepped, -, following⟩ := Dtmf.processChunk_eq held chunk
  simp only at stepped
  refine ⟨registers, ?_, _, _, _, following⟩
  simp [processChunk, found, stepped]

theorem take_sound {decoder : DtmfDecoder F} (sound : Sound decoder) (sample : F) :
    ∃ next, take decoder sample = some next ∧ Sound next := by
  obtain ⟨room, registers, lows, highs, lowHarms, highHarms⟩ := sound
  by_cases full : decoder.sampleLen + 1 = NUM_SAMPLES
  · have emptied : Sound { decoder with
        samples := decoder.samples.set decoder.sampleLen sample room, sampleLen := 0 } :=
      ⟨empty_room, registers, lows, highs, lowHarms, highHarms⟩
    obtain ⟨after, taken, held⟩ := processChunk_some { decoder with
        samples := decoder.samples.set decoder.sampleLen sample room
        sampleLen := decoder.sampleLen + 1 } emptied
    refine ⟨{ decoder with
        registers := after
        samples := decoder.samples.set decoder.sampleLen sample room
        sampleLen := 0 }, ?_, ?_⟩
    · simp only [take, room, full, dif_pos, if_true] at taken ⊢
      rw [taken, Option.map_some]
    · exact ⟨empty_room, held, lows, highs, lowHarms, highHarms⟩
  · refine ⟨{ decoder with
        samples := decoder.samples.set decoder.sampleLen sample room
        sampleLen := decoder.sampleLen + 1 }, ?_, ?_⟩
    · simp only [take, room, full, dif_pos, if_false]
    · exact ⟨by simp only; omega, registers, lows, highs, lowHarms, highHarms⟩

theorem takeAll_sound {decoder : DtmfDecoder F} (sound : Sound decoder) (samples : List F) :
    ∃ after, takeAll decoder samples = some after ∧ Sound after := by
  induction samples generalizing decoder with
  | nil => exact ⟨decoder, rfl, sound⟩
  | cons sample rest ih =>
    obtain ⟨next, taken, kept⟩ := take_sound sound sample
    obtain ⟨after, ran, sound⟩ := ih kept
    exact ⟨after, by rw [takeAll, taken, Option.bind_some, ran], sound⟩

/-- A decoder that runs keeps running: no index, assertion or missing tone ever stops it. -/
theorem process_sound {decoder : DtmfDecoder F} (sound : Sound decoder) (samples : List F) :
    ∃ announced after, process decoder samples = some (announced, after) ∧ Sound after := by
  obtain ⟨after, ran, kept⟩ := takeAll_sound sound samples
  exact ⟨(handOut after).1, (handOut after).2, by rw [process, ran]; rfl, handOut_sound kept⟩

theorem takeAll_room {decoder after : DtmfDecoder F} (room : decoder.sampleLen < NUM_SAMPLES)
    (samples : List F) (ran : takeAll decoder samples = some after) :
    after.sampleLen < NUM_SAMPLES := by
  induction samples generalizing decoder with
  | nil => exact Option.some.inj ran ▸ room
  | cons sample rest ih =>
    obtain ⟨next, taken, ran⟩ := Option.bind_eq_some_iff.mp ran
    refine ih ?_ ran
    simp only [take, room, dif_pos] at taken
    split_ifs at taken with full
    · obtain ⟨chunk, -, rfl⟩ := Option.map_eq_some_iff.mp taken
      exact empty_room
    · obtain rfl := Option.some.inj taken
      simp only
      omega

/-- However the samples are batched, the same is announced and the same state is left, in whatever
    state they are taken, panics included. Between calls there is always room in the buffer, and a
    sound decoder never panics. -/
theorem process_batches :
    (∀ (decoder : DtmfDecoder F) (samples more : List F),
        process decoder (samples ++ more) =
          (process decoder samples).bind fun (first, middle) =>
            (process middle more).map fun (second, final) => (first ++ second, final)) ∧
      (∀ (decoder after : DtmfDecoder F) (samples : List F) (announced : List (Tone × State)),
        decoder.sampleLen < NUM_SAMPLES → process decoder samples = some (announced, after) →
          after.sampleLen < NUM_SAMPLES) ∧
      ∀ (decoder : DtmfDecoder F) (samples : List F), Sound decoder →
        ∃ announced after, process decoder samples = some (announced, after) ∧ Sound after := by
  refine ⟨process_append, ?_, fun _ samples sound => process_sound sound samples⟩
  intro decoder after samples announced room ran
  obtain ⟨last, taken, handed⟩ := Option.map_eq_some_iff.mp ran
  have kept := takeAll_room room samples taken
  obtain rfl : (handOut last).2 = after := by rw [handed]
  exact kept

end Buffer

end DtmfBuffer
