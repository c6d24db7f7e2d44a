import Nebula.Lib.ByteStrings

/- A sound file of 16-bit samples: the writer of the format, and the player that reads a
   header of 44 bytes and then one frame after another. An overflow of a `u32` is a panic, as
   in a build that checks it; building a resampler and converting a frame are the library's. -/
namespace SoundFile
open ByteStrings

section Words

def readU16LE (buffer : Bytes) (i : Nat) : Outcome Nat := do
  let low ← byteAt buffer i
  let high ← byteAt buffer (i + 1)
  pure (word16 high low)

def readU32LE (buffer : Bytes) (i : Nat) : Outcome Nat := do
  let low ← readU16LE buffer i
  let high ← readU16LE buffer (i + 2)
  pure (high * 65536 + low)

def bytes16LE (value : Nat) : Bytes := [UInt8.ofNat value, UInt8.ofNat (value / 256)]

def bytes32LE (value : Nat) : Bytes := bytes16LE value ++ bytes16LE (value / 65536)

def checkedMul (left right : Nat) : Outcome Nat :=
  if left * right < 2 ^ 32 then .ok (left * right) else .error .panic

def checkedAdd (left right : Nat) : Outcome Nat :=
  if left + right < 2 ^ 32 then .ok (left + right) else .error .panic

end Words

abbrev Pcm := List Int16

/-- The resampler of a pair of rates: whether it can be built, and what it makes of a frame,
    unless its thread gives no answer. -/
structure Resampling where
  State : Type
  new : Nat → Nat → Option State
  convert : State → Pcm → State × Option Pcm

def RIFF : Bytes := [0x52, 0x49, 0x46, 0x46]
def WAVE : Bytes := [0x57, 0x41, 0x56, 0x45]
def FMT : Bytes := [0x66, 0x6d, 0x74, 0x20]
def DATA : Bytes := [0x64, 0x61, 0x74, 0x61]

structure Header where
  sampleRate : Nat
  channels : Nat
  bitsPerSample : Nat
  deriving DecidableEq

def readHeader (file : Bytes) : Outcome Header :=
  if file.length < 44 then .error (.error "early eof")
  -- four bytes that are no text at all are an error as well
  else if file.take 4 ≠ RIFF then .error (.error "invalid file")
  else do
    let sampleRate ← readU32LE file 24
    let channels ← readU16LE file 22
    let bitsPerSample ← readU16LE file 34
    pure ⟨sampleRate, channels, bitsPerSample⟩

def Header.bits (header : Header) : Nat := header.bitsPerSample / 8

/-- What the reading task is spawned with. -/
structure Task where
  srcRate : Nat
  dstRate : Nat
  bits : Nat
  bufLen : Nat
  srcPcmLen : Nat
  dstPcmLen : Nat
  rest : Bytes

def read (file : Bytes) (ptime : Nat) (dstRate : UInt32) : Outcome Task := do
  let header ← readHeader file
  let product ← checkedMul header.sampleRate (ptime % 2 ^ 32)
  let samples := product / 1000
  let words ← checkedMul samples header.channels
  let bufLen ← checkedMul words header.bits
  let source ← checkedMul header.sampleRate (ptime % 2 ^ 32)
  let target ← checkedMul dstRate.toNat (ptime % 2 ^ 32)
  pure ⟨header.sampleRate, dstRate.toNat, header.bits, bufLen, source / 1000, target / 1000,
    file.drop 44⟩

/-- The positions of `(0..length).step_by(step)`. -/
def steps (length step : Nat) : List Nat :=
  (List.range ((length + step - 1) / step)).map (· * step)

def setAt (pcm : Pcm) (i : Nat) (value : Int16) : Outcome Pcm :=
  if i < pcm.length then .ok (pcm.set i value) else .error .panic

def fill (bits : Nat) (buffer : Bytes) (pcm : Pcm) (i : Nat) : Outcome Pcm :=
  if bits = 2 then do
    let word ← readU16LE buffer i
    setAt pcm (i / 2) (UInt16.ofNat word).toInt16
  else .ok pcm

def frame (bits srcPcmLen : Nat) (buffer : Bytes) : Outcome Pcm :=
  if bits = 0 then .error .panic
  else (steps buffer.length bits).foldlM (fill bits buffer) (List.replicate srcPcmLen 0)

/-- The frames that the task has sent after a number of turns of its loop, and whether it has
    come to the end of the file. A receiver that goes away ends it earlier. -/
def play (resampling : Resampling) (task : Task) :
    Nat → resampling.State → Bytes → Outcome (List Pcm × Bool)
  | 0, _, _ => .ok ([], false)
  | turns + 1, resampler, rest =>
    if rest.length < task.bufLen then .ok ([], true)
    else do
      let pcm ← frame task.bits task.srcPcmLen (rest.take task.bufLen)
      if task.srcPcmLen = task.dstPcmLen then
        let later ← play resampling task turns resampler (rest.drop task.bufLen)
        pure (pcm :: later.1, later.2)
      else
        let converted := resampling.convert resampler pcm
        let later ← play resampling task turns converted.1 (rest.drop task.bufLen)
        pure (converted.2.toList ++ later.1, later.2)

/-- Reading a file: the header, and so many turns of the task. -/
def stream (resampling : Resampling) (file : Bytes) (ptime : Nat) (dstRate : UInt32)
    (turns : Nat) : Outcome (List Pcm × Bool) := do
  let task ← read file ptime dstRate
  match resampling.new task.srcRate task.dstRate with
  | none => .error .panic
  | some resampler => play resampling task turns resampler task.rest

def sampleBytes (value : Int16) : Bytes := bytes16LE value.toUInt16.toNat

def pcmToWav (sampleRate : UInt32) (pcm : Pcm) : Outcome Bytes := do
  let audio := pcm.flatMap sampleBytes
  let product ← checkedMul (pcm.length % 2 ^ 32 * 1) 16
  let size := product / 8
  let whole ← checkedAdd size 36
  let byteRate ← checkedMul sampleRate.toNat 16
  pure (RIFF ++ bytes32LE whole ++ WAVE ++ FMT ++ bytes32LE 16 ++ bytes16LE 1 ++ bytes16LE 1 ++
    bytes32LE sampleRate.toNat ++ bytes32LE (byteRate / 8) ++ bytes16LE 2 ++ bytes16LE 16 ++
    DATA ++ bytes32LE size ++ audio)

section Frames

/-- The sample at a position of a buffer of 16-bit words. -/
def sampleAt (buffer : Bytes) (k : Nat) : Int16 :=
  (UInt16.ofNat (word16 (buffer.getD (k * 2 + 1) 0) (buffer.getD (k * 2) 0))).toInt16

def samplesOf (buffer : Bytes) (count : Nat) : Pcm := (List.range count).map (sampleAt buffer)

theorem length_samplesOf (buffer : Bytes) (count : Nat) :
    (samplesOf buffer count).length = count := by
  rw [samplesOf, List.length_map, List.length_range]

theorem samplesOf_succ (buffer : Bytes) (count : Nat) :
    samplesOf buffer (count + 1) = samplesOf buffer count ++ [sampleAt buffer count] := by
  rw [samplesOf, List.range_succ, List.map_append]
  rfl

theorem readU16LE_eq_ok {buffer : Bytes} {i : Nat} (inside : i + 2 ≤ buffer.length) :
    readU16LE buffer i = .ok (word16 (buffer.getD (i + 1) 0) (buffer.getD i 0)) := by
  simp only [readU16LE, byteAt_eq_ok (show i < buffer.length by omega),
    byteAt_eq_ok (show i + 1 < buffer.length by omega)]
  rfl

theorem steps_mul {step : Nat} (positive : 0 < step) (count : Nat) :
    steps (count * step) step = (List.range count).map (· * step) := by
  have whole : (count * step + step - 1) / step = count := by
    rw [Nat.add_sub_assoc positive, Nat.mul_comm, Nat.mul_add_div positive,
      Nat.div_eq_of_lt (by omega), Nat.add_zero]
  rw [steps, whole]

/-- One word put into the frame: the words before it are there, and the rest is silence. -/
theorem fill_next {buffer : Bytes} {count room : Nat} (inside : count * 2 + 2 ≤ buffer.length) :
    fill 2 buffer (samplesOf buffer count ++ List.replicate room 0) (count * 2) =
      if 0 < room then .ok (samplesOf buffer (count + 1) ++ List.replicate (room - 1) 0)
      else .error .panic := by
  have position : count * 2 / 2 = count := Nat.mul_div_cancel _ (by decide)
  rw [fill, if_pos rfl, readU16LE_eq_ok inside, ok_bind, position, setAt, List.length_append,
    length_samplesOf, List.length_replicate]
  cases room with
  | zero => rw [if_neg (by omega), if_neg (by omega)]
  | succ room =>
    have after : (samplesOf buffer count).length ≤ count :=
      Nat.le_of_eq (length_samplesOf buffer count)
    rw [if_pos (by omega), if_pos (by omega), List.set_append_right _ _ after, length_samplesOf,
      Nat.sub_self, List.replicate_succ, List.set_cons_zero, samplesOf_succ, List.append_assoc]
    rfl

theorem fill_words {buffer : Bytes} (room count : Nat) (inside : count * 2 ≤ buffer.length) :
    (List.range count).foldlM (fun pcm k => fill 2 buffer pcm (k * 2)) (List.replicate room 0) =
      if count ≤ room then .ok (samplesOf buffer count ++ List.replicate (room - count) 0)
      else .error .panic := by
  induction count with
  | zero => rw [if_pos (Nat.zero_le _)]; rfl
  | succ count ih =>
    rw [List.range_succ, List.foldlM_append, ih (by omega)]
    by_cases fits : count ≤ room
    · rw [if_pos fits, ok_bind, List.foldlM_cons, fill_next (by omega)]
      by_cases next : count + 1 ≤ room
      · rw [if_pos next, if_pos (by omega), Nat.sub_sub]
        rfl
      · rw [if_neg next, if_neg (by omega)]
        rfl
    · rw [if_neg fits, if_neg (by omega)]
      rfl

theorem fill_other {bits : Nat} (other : bits ≠ 2) (buffer : Bytes) (pcm : Pcm)
    (positions : List Nat) : positions.foldlM (fill bits buffer) pcm = .ok pcm := by
  induction positions with
  | nil => rfl
  | cons position positions ih =>
    rw [List.foldlM_cons, fill, if_neg other, ok_bind]
    exact ih

/-- A frame of words is read when it has room for them all. -/
theorem frame_words {buffer : Bytes} (room count : Nat) (length : buffer.length = count * 2) :
    frame 2 room buffer =
      if count ≤ room then .ok (samplesOf buffer count ++ List.replicate (room - count) 0)
      else .error .panic := by
  rw [frame, if_neg (by decide), length, steps_mul (by decide), List.foldlM_map]
  exact fill_words room count (by omega)

theorem frame_other {bits : Nat} (some : bits ≠ 0) (other : bits ≠ 2) (room : Nat)
    (buffer : Bytes) : frame bits room buffer = .ok (List.replicate room 0) := by
  rw [frame, if_neg some, fill_other other]

end Frames

section Crashes
variable (resampling : Resampling)

/-- The samples of a frame, by the rate and the words of the time that a `u32` holds. -/
def frameLength (sampleRate ptime : Nat) : Nat := sampleRate * (ptime % 2 ^ 32) / 1000

/-- No product leaves a `u32`. -/
structure Fits (header : Header) (ptime : Nat) (dstRate : UInt32) : Prop where
  source : header.sampleRate * (ptime % 2 ^ 32) < 2 ^ 32
  words : frameLength header.sampleRate ptime * header.channels < 2 ^ 32
  bytes : frameLength header.sampleRate ptime * header.channels * header.bits < 2 ^ 32
  target : dstRate.toNat * (ptime % 2 ^ 32) < 2 ^ 32

/-- The headers that are played without a crash: the products fit, the resampler can be built,
    a sample has whole bytes, and where a frame of several channels of words is complete in
    the file there is nothing in it. -/
structure Playable (header : Header) (length ptime : Nat) (dstRate : UInt32) : Prop where
  fits : Fits header ptime dstRate
  builds : (resampling.new header.sampleRate dstRate.toNat).isSome
  step : header.bits ≠ 0
  room : header.bits = 2 → 2 ≤ header.channels → 0 < frameLength header.sampleRate ptime →
    length < frameLength header.sampleRate ptime * header.channels * 2

def taskOf (header : Header) (ptime : Nat) (dstRate : UInt32) (rest : Bytes) : Task :=
  ⟨header.sampleRate, dstRate.toNat, header.bits,
    frameLength header.sampleRate ptime * header.channels * header.bits,
    frameLength header.sampleRate ptime, frameLength dstRate.toNat ptime, rest⟩

theorem readU16LE_shows {buffer : Bytes} {i : Nat} (inside : i + 2 ≤ buffer.length) :
    ∃ value, readU16LE buffer i = .ok value := ⟨_, readU16LE_eq_ok inside⟩

theorem readHeader_ne_panic (file : Bytes) : readHeader file ≠ .error .panic := by
  unfold readHeader
  split
  · exact fun same => nomatch same
  · rename_i long
    split
    · exact fun same => nomatch same
    · obtain ⟨low, first⟩ := @readU16LE_shows file 24 (by omega)
      obtain ⟨high, second⟩ := @readU16LE_shows file (24 + 2) (by omega)
      obtain ⟨channels, third⟩ := @readU16LE_shows file 22 (by omega)
      obtain ⟨bits, fourth⟩ := @readU16LE_shows file 34 (by omega)
      rw [readU32LE, first, ok_bind, second, ok_bind, pure_eq_ok, ok_bind, third, ok_bind, fourth]
      exact fun same => nomatch same

theorem checkedMul_ok {left right : Nat} (fits : left * right < 2 ^ 32) :
    checkedMul left right = .ok (left * right) := if_pos fits

theorem checkedMul_panic {left right : Nat} (tall : ¬ left * right < 2 ^ 32) :
    checkedMul left right = .error .panic := if_neg tall

theorem read_fits {file : Bytes} {header : Header} {ptime : Nat} {dstRate : UInt32}
    (shown : readHeader file = .ok header) (fits : Fits header ptime dstRate) :
    read file ptime dstRate = .ok (taskOf header ptime dstRate (file.drop 44)) := by
  have words := fits.words
  have bytes := fits.bytes
  unfold frameLength at words bytes
  rw [read, shown, ok_bind, checkedMul_ok fits.source, ok_bind]
  dsimp only
  rw [checkedMul_ok words, ok_bind, checkedMul_ok bytes, ok_bind, ok_bind,
    checkedMul_ok fits.target]
  rfl

theorem read_panics {file : Bytes} {header : Header} {ptime : Nat} {dstRate : UInt32}
    (shown : readHeader file = .ok header) (tall : ¬ Fits header ptime dstRate) :
    read file ptime dstRate = .error .panic := by
  rw [read, shown, ok_bind]
  by_cases source : header.sampleRate * (ptime % 2 ^ 32) < 2 ^ 32
  · rw [checkedMul_ok source, ok_bind]
    dsimp only
    by_cases words : frameLength header.sampleRate ptime * header.channels < 2 ^ 32
    · unfold frameLength at words
      rw [checkedMul_ok words, ok_bind]
      by_cases bytes : frameLength header.sampleRate ptime * header.channels * header.bits < 2 ^ 32
      · unfold frameLength at bytes
        rw [checkedMul_ok bytes, ok_bind, ok_bind, checkedMul_panic]
        · rfl
        · exact fun target => tall ⟨source, words, bytes, target⟩
      · unfold frameLength at bytes
        rw [checkedMul_panic bytes]
        rfl
    · unfold frameLength at words
      rw [checkedMul_panic words]
      rfl
  · rw [checkedMul_panic source]
    rfl

/-- Headers whose frames crash the task: a sample without a byte is a step of zero, and the
    words of several channels leave a frame that has room for one. -/
def Crashes (header : Header) (samples : Nat) : Prop :=
  header.bits = 0 ∨ (header.bits = 2 ∧ 2 ≤ header.channels ∧ 0 < samples)

theorem frame_panics {header : Header} {samples : Nat} {buffer : Bytes}
    (length : buffer.length = samples * header.channels * header.bits)
    (crashes : Crashes header samples) : frame header.bits samples buffer = .error .panic := by
  rcases crashes with zero | ⟨two, several, some⟩
  · rw [frame, if_pos zero]
  · rw [two] at length ⊢
    have more := Nat.mul_le_mul_left samples several
    rw [frame_words samples (samples * header.channels) length, if_neg (by omega)]

theorem frame_ok {header : Header} {samples : Nat} {buffer : Bytes}
    (length : buffer.length = samples * header.channels * header.bits)
    (safe : ¬ Crashes header samples) : ∃ pcm, frame header.bits samples buffer = .ok pcm := by
  have some : header.bits ≠ 0 := fun zero => safe (Or.inl zero)
  by_cases two : header.bits = 2
  · have fits : samples * header.channels ≤ samples := by
      rcases Nat.eq_zero_or_pos samples with empty | positive
      · exact Nat.le_of_eq (by rw [empty, Nat.zero_mul])
      · have few : header.channels ≤ 1 := by
          by_contra several
          exact safe (Or.inr ⟨two, by omega, positive⟩)
        have single := Nat.mul_le_mul_left samples few
        omega
    rw [two] at length ⊢
    rw [frame_words samples (samples * header.channels) length, if_pos fits]
    exact ⟨_, rfl⟩
  · exact ⟨_, frame_other some two samples buffer⟩

theorem play_ok {resampling : Resampling} {header : Header} {ptime : Nat} {dstRate : UInt32}
    {data : Bytes} (turns : Nat) (resampler : resampling.State) (rest : Bytes)
    (safe : Crashes header (frameLength header.sampleRate ptime) →
      rest.length < frameLength header.sampleRate ptime * header.channels * header.bits) :
    ∃ shown, play resampling (taskOf header ptime dstRate data) turns resampler rest =
      .ok shown := by
  induction turns generalizing resampler rest with
  | zero => exact ⟨_, rfl⟩
  | succ turns ih =>
    unfold play
    split
    · exact ⟨_, rfl⟩
    · rename_i full
      have enough : frameLength header.sampleRate ptime * header.channels * header.bits ≤
          rest.length := Nat.le_of_not_lt full
      have taken : (rest.take
          (frameLength header.sampleRate ptime * header.channels * header.bits)).length =
            frameLength header.sampleRate ptime * header.channels * header.bits :=
        List.length_take_of_le enough
      obtain ⟨pcm, shown⟩ := frame_ok taken fun crashes => full (safe crashes)
      have shown' : frame (taskOf header ptime dstRate data).bits
          (taskOf header ptime dstRate data).srcPcmLen
            (rest.take (taskOf header ptime dstRate data).bufLen) = .ok pcm := shown
      rw [shown', ok_bind]
      have later := fun resampler : resampling.State =>
        ih resampler (rest.drop (taskOf header ptime dstRate data).bufLen)
          (fun crashes => absurd (safe crashes) full)
      split
      · obtain ⟨rest, same⟩ := later resampler
        rw [same]
        exact ⟨_, rfl⟩
      · obtain ⟨rest, same⟩ := later (resampling.convert resampler pcm).1
        dsimp only
        rw [same]
        exact ⟨_, rfl⟩

theorem play_panics {resampling : Resampling} {header : Header} {ptime : Nat} {dstRate : UInt32}
    {data rest : Bytes} (resampler : resampling.State)
    (crashes : Crashes header (frameLength header.sampleRate ptime))
    (full : frameLength header.sampleRate ptime * header.channels * header.bits ≤ rest.length) :
    play resampling (taskOf header ptime dstRate data) 1 resampler rest = .error .panic := by
  have enough : ¬ rest.length < (taskOf header ptime dstRate data).bufLen := Nat.not_lt.mpr full
  have taken : (rest.take
      (frameLength header.sampleRate ptime * header.channels * header.bits)).length =
        frameLength header.sampleRate ptime * header.channels * header.bits :=
    List.length_take_of_le full
  have shown : frame (taskOf header ptime dstRate data).bits
      (taskOf header ptime dstRate data).srcPcmLen
        (rest.take (taskOf header ptime dstRate data).bufLen) = .error .panic :=
    frame_panics taken crashes
  rw [play, if_neg enough, shown]
  rfl

/-- The player never crashes on a file exactly when its header, if it shows one, is playable. -/
theorem stream_safe_iff (file : Bytes) (ptime : Nat) (dstRate : UInt32) :
    (∀ turns, stream resampling file ptime dstRate turns ≠ .error .panic) ↔
      ∀ header, readHeader file = .ok header →
        Playable resampling header (file.length - 44) ptime dstRate := by
  constructor
  · intro safe header shown
    have fits : Fits header ptime dstRate := by
      by_contra tall
      refine safe 1 ?_
      rw [stream, read_panics shown tall]
      rfl
    have task := read_fits shown fits
    have builds : (resampling.new header.sampleRate dstRate.toNat).isSome := by
      cases built : resampling.new header.sampleRate dstRate.toNat with
      | some resampler => rfl
      | none =>
        refine absurd ?_ (safe 1)
        rw [stream, task, ok_bind]
        dsimp only [taskOf]
        rw [built]
    obtain ⟨resampler, built⟩ := Option.isSome_iff_exists.mp builds
    have crash : Crashes header (frameLength header.sampleRate ptime) →
        file.length - 44 < frameLength header.sampleRate ptime * header.channels * header.bits := by
      intro crashes
      by_contra full
      refine safe 1 ?_
      rw [stream, task, ok_bind]
      dsimp only [taskOf]
      rw [built]
      refine play_panics resampler crashes ?_
      rw [List.length_drop]
      exact Nat.le_of_not_lt full
    refine ⟨fits, builds, ?_, ?_⟩
    · intro zero
      have short := crash (Or.inl zero)
      rw [zero, Nat.mul_zero] at short
      cases short
    · intro two several some
      have short := crash (Or.inr ⟨two, several, some⟩)
      rwa [two] at short
  · intro playable turns
    cases shown : readHeader file with
    | error fault =>
      rw [stream, read, shown, error_bind, error_bind]
      intro same
      exact readHeader_ne_panic file (shown.trans (congrArg _ (Except.error.inj same)))
    | ok header =>
      obtain ⟨fits, builds, step, room⟩ := playable header shown
      obtain ⟨resampler, built⟩ := Option.isSome_iff_exists.mp builds
      have safe : Crashes header (frameLength header.sampleRate ptime) → (file.drop 44).length <
          frameLength header.sampleRate ptime * header.channels * header.bits := by
        rintro (zero | ⟨two, several, some⟩)
        · exact absurd zero step
        · rw [two, List.length_drop]
          exact room two several some
      obtain ⟨frames, played⟩ := @play_ok resampling header ptime dstRate (file.drop 44) turns
        resampler (file.drop 44) safe
      have whole : stream resampling file ptime dstRate turns = .ok frames := by
        rw [stream, read_fits shown fits, ok_bind]
        dsimp only [taskOf]
        rw [built]
        exact played
      rw [whole]
      exact fun same => nomatch same

end Crashes

section ReadingBack
variable (resampling : Resampling)

/-- The frames of a length that a list of samples holds in full, in order. -/
def fullFrames (length : Nat) (pcm : Pcm) : List Pcm :=
  (List.range (pcm.length / length)).map fun k => (pcm.drop (k * length)).take length

theorem fullFrames_short {length : Nat} {pcm : Pcm} (short : pcm.length < length) :
    fullFrames length pcm = [] := by
  rw [fullFrames, Nat.div_eq_of_lt short]
  rfl

theorem fullFrames_cons {length : Nat} {pcm : Pcm} (positive : 0 < length)
    (full : length ≤ pcm.length) :
    fullFrames length pcm = pcm.take length :: fullFrames length (pcm.drop length) := by
  have count : pcm.length / length = (pcm.length - length) / length + 1 :=
    Nat.div_eq_sub_div positive full
  rw [fullFrames, fullFrames, count, List.range_succ_eq_map, List.map_cons, List.map_map,
    List.length_drop, Nat.zero_mul, List.drop_zero]
  refine congrArg _ (List.map_congr_left ?_)
  intro k _
  simp only [Function.comp, Nat.succ_eq_add_one, Nat.add_mul, Nat.one_mul, List.drop_drop,
    Nat.add_comm]

/-- Two lengths cut a list in the same way only where neither cuts it. -/
theorem fullFrames_length {short long : Nat} {pcm : Pcm} (positive : 0 < short)
    (below : short ≤ long) :
    fullFrames short pcm = fullFrames long pcm ↔ short = long ∨ pcm.length < short := by
  constructor
  · intro same
    by_contra other
    have full : short ≤ pcm.length := Nat.le_of_not_lt fun few => other (Or.inr few)
    have less : short < long := Nat.lt_of_le_of_ne below fun equal => other (Or.inl equal)
    rw [fullFrames_cons positive full] at same
    rcases Nat.lt_or_ge pcm.length long with few | many
    · rw [fullFrames_short few] at same
      cases same
    · rw [fullFrames_cons (by omega) many] at same
      have heads := congrArg List.length (List.cons.inj same).1
      rw [List.length_take, List.length_take] at heads
      omega
  · rintro (rfl | few)
    · rfl
    · rw [fullFrames_short few, fullFrames_short (by omega)]

def wordsOf (pcm : Pcm) : Bytes := pcm.flatMap sampleBytes

theorem wordsOf_cons (value : Int16) (pcm : Pcm) :
    wordsOf (value :: pcm) = UInt8.ofNat value.toUInt16.toNat ::
      UInt8.ofNat (value.toUInt16.toNat / 256) :: wordsOf pcm := rfl

theorem length_wordsOf (pcm : Pcm) : (wordsOf pcm).length = pcm.length * 2 := by
  induction pcm with
  | nil => rfl
  | cons value pcm ih =>
    rw [wordsOf_cons, List.length_cons, List.length_cons, List.length_cons, ih]
    omega

theorem take_wordsOf (count : Nat) (pcm : Pcm) :
    (wordsOf pcm).take (count * 2) = wordsOf (pcm.take count) := by
  induction count generalizing pcm with
  | zero => rw [Nat.zero_mul, List.take_zero, List.take_zero]; rfl
  | succ count ih =>
    cases pcm with
    | nil => rfl
    | cons value pcm =>
      have two : (count + 1) * 2 = count * 2 + 1 + 1 := by omega
      rw [wordsOf_cons, two, List.take_succ_cons, List.take_succ_cons, ih, List.take_succ_cons,
        wordsOf_cons]

theorem drop_wordsOf (count : Nat) (pcm : Pcm) :
    (wordsOf pcm).drop (count * 2) = wordsOf (pcm.drop count) := by
  induction count generalizing pcm with
  | zero => rfl
  | succ count ih =>
    cases pcm with
    | nil => rfl
    | cons value pcm =>
      have two : (count + 1) * 2 = count * 2 + 1 + 1 := by omega
      rw [wordsOf_cons, two, List.drop_succ_cons, List.drop_succ_cons, ih, List.drop_succ_cons]

theorem sample_word (value : Int16) (rest : Bytes) :
    sampleAt (UInt8.ofNat value.toUInt16.toNat ::
      UInt8.ofNat (value.toUInt16.toNat / 256) :: rest) 0 = value := by
  have word : sampleAt (UInt8.ofNat value.toUInt16.toNat ::
      UInt8.ofNat (value.toUInt16.toNat / 256) :: rest) 0 =
        (UInt16.ofNat (word16 (UInt8.ofNat (value.toUInt16.toNat / 256))
          (UInt8.ofNat value.toUInt16.toNat))).toInt16 := rfl
  have below : value.toUInt16.toNat < 65536 := value.toUInt16.toNat_lt
  rw [word, word16_bytes, Nat.mod_eq_of_lt below, UInt16.ofNat_toNat, Int16.toInt16_toUInt16]

theorem samplesOf_wordsOf (pcm : Pcm) : samplesOf (wordsOf pcm) pcm.length = pcm := by
  induction pcm with
  | nil => rfl
  | cons value pcm ih =>
    have later : ∀ k, sampleAt (wordsOf (value :: pcm)) (k + 1) = sampleAt (wordsOf pcm) k := by
      intro k
      have two : (k + 1) * 2 = k * 2 + 1 + 1 := by omega
      rw [wordsOf_cons, sampleAt, sampleAt, two, List.getD_cons_succ, List.getD_cons_succ,
        List.getD_cons_succ, List.getD_cons_succ]
    rw [samplesOf, List.length_cons, List.range_succ_eq_map, List.map_cons, List.map_map]
    refine congrArg₂ _ (sample_word value _) ?_
    conv_rhs => rw [← ih]
    exact List.map_congr_left fun k _ => later k

theorem frame_wordsOf {count : Nat} {pcm : Pcm} (length : pcm.length = count) :
    frame 2 count (wordsOf pcm) = .ok pcm := by
  have words : (wordsOf pcm).length = count * 2 := by rw [length_wordsOf, length]
  have back := samplesOf_wordsOf pcm
  rw [length] at back
  rw [frame_words count count words, if_pos (Nat.le_refl _), back, Nat.sub_self,
    List.replicate_zero, List.append_nil]

def wavHeader (sampleRate : UInt32) (size : Nat) : Bytes :=
  RIFF ++ bytes32LE (size + 36) ++ WAVE ++ FMT ++ bytes32LE 16 ++ bytes16LE 1 ++ bytes16LE 1 ++
    bytes32LE sampleRate.toNat ++ bytes32LE (sampleRate.toNat * 16 / 8) ++ bytes16LE 2 ++
    bytes16LE 16 ++ DATA ++ bytes32LE size

theorem length_wavHeader (sampleRate : UInt32) (size : Nat) :
    (wavHeader sampleRate size).length = 44 := by
  simp only [wavHeader, List.length_append]
  rfl

/-- The words of the header that the player reads, and what stands around them. -/
theorem wavHeader_parts (sampleRate : UInt32) (size : Nat) (audio : Bytes) :
    ∃ front rates tail : Bytes, front.length = 22 ∧ rates.length = 6 ∧ front.take 4 = RIFF ∧
      wavHeader sampleRate size ++ audio = front ++ (bytes16LE 1 ++ (bytes16LE sampleRate.toNat ++
        (bytes16LE (sampleRate.toNat / 65536) ++ (rates ++ (bytes16LE 16 ++ tail))))) := by
  refine ⟨RIFF ++ bytes32LE (size + 36) ++ WAVE ++ FMT ++ bytes32LE 16 ++ bytes16LE 1,
    bytes32LE (sampleRate.toNat * 16 / 8) ++ bytes16LE 2, DATA ++ bytes32LE size ++ audio,
    rfl, rfl, ?_, ?_⟩
  · rw [List.append_assoc, List.append_assoc, List.append_assoc, List.append_assoc]
    exact List.take_left' rfl
  · simp only [wavHeader, bytes32LE, List.append_assoc]

theorem word_at {before after : Bytes} {value i : Nat} (position : before.length = i) :
    readU16LE (before ++ (bytes16LE value ++ after)) i = .ok (value % 65536) := by
  subst position
  have low : (before ++ (bytes16LE value ++ after))[before.length]? = some (UInt8.ofNat value) := by
    rw [List.getElem?_append_right (Nat.le_refl _), Nat.sub_self]
    rfl
  have high : (before ++ (bytes16LE value ++ after))[before.length + 1]? =
      some (UInt8.ofNat (value / 256)) := by
    rw [List.getElem?_append_right (Nat.le_add_right _ 1), Nat.add_sub_cancel_left]
    rfl
  rw [readU16LE, byteAt_ok_iff.mpr low, ok_bind, byteAt_ok_iff.mpr high, ok_bind, word16_bytes]
  rfl

/-- The header of a file of one channel of words, whatever size it states. -/
theorem readHeader_wav (sampleRate : UInt32) (size : Nat) (audio : Bytes) :
    readHeader (wavHeader sampleRate size ++ audio) = .ok ⟨sampleRate.toNat, 1, 16⟩ := by
  obtain ⟨front, rates, tail, length, six, riff, shape⟩ := wavHeader_parts sampleRate size audio
  rw [shape]
  generalize whole : front ++ (bytes16LE 1 ++ (bytes16LE sampleRate.toNat ++
    (bytes16LE (sampleRate.toNat / 65536) ++ (rates ++ (bytes16LE 16 ++ tail))))) = file
  have channels : readU16LE file 22 = .ok (1 % 65536) := by
    rw [← whole]
    exact @word_at _ _ 1 _ length
  have low : readU16LE file 24 = .ok (sampleRate.toNat % 65536) := by
    rw [← whole, ← List.append_assoc]
    exact word_at (by rw [List.length_append, length]; rfl)
  have high : readU16LE file (24 + 2) = .ok (sampleRate.toNat / 65536 % 65536) := by
    rw [← whole, ← List.append_assoc, ← List.append_assoc]
    exact word_at (by rw [List.length_append, List.length_append, length]; rfl)
  have bits : readU16LE file 34 = .ok (16 % 65536) := by
    rw [← whole, ← List.append_assoc, ← List.append_assoc, ← List.append_assoc,
      ← List.append_assoc]
    refine @word_at _ _ 16 _ ?_
    rw [List.length_append, List.length_append, List.length_append, List.length_append, length,
      six]
    rfl
  have starts : file.take 4 = RIFF := by
    rw [← whole, List.take_append_of_le_length (by omega), riff]
  have long : ¬ file.length < 44 := by
    rw [← whole, ← shape, List.length_append, length_wavHeader]
    omega
  have below := sampleRate.toNat_lt
  have rate : sampleRate.toNat / 65536 % 65536 * 65536 + sampleRate.toNat % 65536 =
      sampleRate.toNat := by omega
  rw [readHeader, if_neg long, if_neg (not_not.mpr starts), readU32LE, low, ok_bind, high, ok_bind,
    pure_eq_ok, ok_bind, channels, ok_bind, bits, ok_bind, rate]
  rfl

/-- The sizes that the writer multiplies. -/
structure Writable (sampleRate : UInt32) (pcm : Pcm) : Prop where
  size : pcm.length % 2 ^ 32 * 16 < 2 ^ 32
  rate : sampleRate.toNat * 16 < 2 ^ 32

theorem pcmToWav_ok_iff (sampleRate : UInt32) (pcm : Pcm) (wav : Bytes) :
    pcmToWav sampleRate pcm = .ok wav ↔ Writable sampleRate pcm ∧
      wav = wavHeader sampleRate (pcm.length % 2 ^ 32 * 16 / 8) ++ wordsOf pcm := by
  unfold pcmToWav
  dsimp only
  rw [Nat.mul_one]
  constructor
  · intro written
    obtain ⟨product, size, written⟩ := bind_ok_inv written
    obtain ⟨whole, added, written⟩ := bind_ok_inv written
    obtain ⟨byteRate, rate, written⟩ := bind_ok_inv written
    unfold checkedMul at size rate
    unfold checkedAdd at added
    split at size
    · rename_i fits
      split at rate
      · rename_i fits'
        split at added
        · cases size
          cases rate
          cases added
          exact ⟨⟨fits, fits'⟩, (Except.ok.inj written).symm⟩
        · cases added
      · cases rate
    · cases size
  · rintro ⟨fits, rfl⟩
    have small := fits.size
    have room : pcm.length % 2 ^ 32 * 16 / 8 + 36 < 2 ^ 32 := by omega
    rw [checkedMul_ok fits.size, ok_bind, checkedAdd, if_pos room, ok_bind,
      checkedMul_ok fits.rate, ok_bind]
    rfl

theorem play_words {resampling : Resampling} {task : Task} {samples : Nat} (positive : 0 < samples)
    (bits : task.bits = 2) (length : task.bufLen = samples * 2) (source : task.srcPcmLen = samples)
    (target : task.dstPcmLen = samples) (resampler : resampling.State) (turns : Nat) (pcm : Pcm)
    (enough : pcm.length / samples < turns) :
    play resampling task turns resampler (wordsOf pcm) = .ok (fullFrames samples pcm, true) := by
  induction turns generalizing pcm with
  | zero => cases enough
  | succ turns ih =>
    rw [play, length_wordsOf, length, bits, source, target]
    by_cases short : pcm.length < samples
    · rw [if_pos (by omega), fullFrames_short short]
    · have full : samples ≤ pcm.length := Nat.le_of_not_lt short
      have count : pcm.length / samples = (pcm.length - samples) / samples + 1 :=
        Nat.div_eq_sub_div positive full
      have taken : (pcm.take samples).length = samples := List.length_take_of_le full
      have later := ih (pcm.drop samples) (by rw [List.length_drop]; omega)
      rw [if_neg (by omega), take_wordsOf, frame_wordsOf taken, ok_bind, if_pos rfl, drop_wordsOf,
        later, fullFrames_cons positive full]
      rfl

/-- Frames without a sample come without end. -/
theorem play_endless {resampling : Resampling} {task : Task} (length : task.bufLen = 0)
    (resampler : resampling.State) (turns : Nat) (rest : Bytes) (frames : List Pcm) :
    play resampling task turns resampler rest ≠ .ok (frames, true) := by
  induction turns generalizing resampler rest frames with
  | zero => exact fun same => nomatch same
  | succ turns ih =>
    rw [play, length, if_neg (Nat.not_lt_zero _)]
    intro ended
    obtain ⟨pcm, _, ended⟩ := bind_ok_inv ended
    split at ended
    · obtain ⟨later, shown, ended⟩ := bind_ok_inv ended
      have last : later.2 = true := (Prod.mk.inj (Except.ok.inj ended)).2
      exact ih _ _ later.1 (shown.trans (by rw [← last]))
    · obtain ⟨later, shown, ended⟩ := bind_ok_inv ended
      have last : later.2 = true := (Prod.mk.inj (Except.ok.inj ended)).2
      exact ih _ _ later.1 (shown.trans (by rw [← last]))

/-- What is written is read back: the full frames of the samples, in order, and no more. -/
def PlaysBack (sampleRate : UInt32) (pcm : Pcm) (ptime : Nat) : Prop :=
  ∃ wav, pcmToWav sampleRate pcm = .ok wav ∧ ∃ limit, ∀ turns, limit ≤ turns →
    stream resampling wav ptime sampleRate turns =
      .ok (fullFrames (sampleRate.toNat * ptime / 1000) pcm, true)

/-- The sizes of the writer and of the player fit, a frame has a sample, and the time is one
    that a `u32` holds, or there are too few samples for a frame. -/
structure Restored (sampleRate : UInt32) (pcm : Pcm) (ptime : Nat) : Prop where
  writable : Writable sampleRate pcm
  time : sampleRate.toNat * (ptime % 2 ^ 32) < 2 ^ 32
  builds : (resampling.new sampleRate.toNat sampleRate.toNat).isSome
  some : 0 < frameLength sampleRate.toNat ptime
  whole : frameLength sampleRate.toNat ptime = sampleRate.toNat * ptime / 1000 ∨
    pcm.length < frameLength sampleRate.toNat ptime

theorem bits_word (sampleRate : Nat) : (⟨sampleRate, 1, 16⟩ : Header).bits = 2 := by
  dsimp only [Header.bits]

theorem fits_word (sampleRate : UInt32) {ptime : Nat}
    (time : sampleRate.toNat * (ptime % 2 ^ 32) < 2 ^ 32) :
    Fits ⟨sampleRate.toNat, 1, 16⟩ ptime sampleRate := by
  have short : frameLength sampleRate.toNat ptime ≤ 2 ^ 32 / 1000 :=
    Nat.div_le_div_right (Nat.le_of_lt time)
  refine ⟨time, ?_, ?_, time⟩
  · dsimp only
    omega
  · rw [bits_word]
    dsimp only
    omega

theorem stream_wav {sampleRate : UInt32} {ptime : Nat} {pcm : Pcm} {wav : Bytes}
    {resampler : resampling.State} (written : pcmToWav sampleRate pcm = .ok wav)
    (time : sampleRate.toNat * (ptime % 2 ^ 32) < 2 ^ 32)
    (built : resampling.new sampleRate.toNat sampleRate.toNat = some resampler) (turns : Nat) :
    stream resampling wav ptime sampleRate turns =
      play resampling (taskOf ⟨sampleRate.toNat, 1, 16⟩ ptime sampleRate (wordsOf pcm)) turns
        resampler (wordsOf pcm) := by
  obtain ⟨_, rfl⟩ := (pcmToWav_ok_iff sampleRate pcm wav).mp written
  have data : (wavHeader sampleRate (pcm.length % 2 ^ 32 * 16 / 8) ++ wordsOf pcm).drop 44 =
      wordsOf pcm := List.drop_left' (length_wavHeader _ _)
  rw [stream, read_fits (readHeader_wav _ _ _) (fits_word sampleRate time), ok_bind, data]
  dsimp only [taskOf]
  rw [built]

theorem playsBack_iff (sampleRate : UInt32) (pcm : Pcm) (ptime : Nat) :
    PlaysBack resampling sampleRate pcm ptime ↔ Restored resampling sampleRate pcm ptime := by
  have bufLen : (taskOf ⟨sampleRate.toNat, 1, 16⟩ ptime sampleRate (wordsOf pcm)).bufLen =
      frameLength sampleRate.toNat ptime * 2 := by
    rw [taskOf, bits_word]
    dsimp only
    rw [Nat.mul_one]
  have below : frameLength sampleRate.toNat ptime ≤ sampleRate.toNat * ptime / 1000 :=
    Nat.div_le_div_right (Nat.mul_le_mul_left _ (Nat.mod_le _ _))
  have played : ∀ {resampler : resampling.State} {turns : Nat},
      0 < frameLength sampleRate.toNat ptime →
        pcm.length / frameLength sampleRate.toNat ptime < turns →
          play resampling (taskOf ⟨sampleRate.toNat, 1, 16⟩ ptime sampleRate (wordsOf pcm)) turns
            resampler (wordsOf pcm) =
              .ok (fullFrames (frameLength sampleRate.toNat ptime) pcm, true) := by
    intro resampler turns positive enough
    exact play_words positive (bits_word _) bufLen rfl rfl resampler turns pcm enough
  constructor
  · rintro ⟨wav, written, limit, shown⟩
    obtain ⟨writable, rfl⟩ := (pcmToWav_ok_iff sampleRate pcm wav).mp written
    have time : sampleRate.toNat * (ptime % 2 ^ 32) < 2 ^ 32 := by
      by_contra tall
      have result := shown limit (Nat.le_refl _)
      rw [stream, read_panics (readHeader_wav _ _ _) fun fits => tall fits.source] at result
      cases result
    have builds : (resampling.new sampleRate.toNat sampleRate.toNat).isSome := by
      cases built : resampling.new sampleRate.toNat sampleRate.toNat with
      | some resampler => rfl
      | none =>
        have result := shown limit (Nat.le_refl _)
        rw [stream, read_fits (readHeader_wav _ _ _) (fits_word sampleRate time), ok_bind] at result
        dsimp only [taskOf] at result
        rw [built] at result
        cases result
    obtain ⟨resampler, built⟩ := Option.isSome_iff_exists.mp builds
    have positive : 0 < frameLength sampleRate.toNat ptime := by
      by_contra none
      have empty : frameLength sampleRate.toNat ptime = 0 := by omega
      have result := shown limit (Nat.le_refl _)
      rw [stream_wav resampling written time built] at result
      rw [empty, Nat.zero_mul] at bufLen
      exact play_endless bufLen _ _ _ _ result
    refine ⟨writable, time, builds, positive, (fullFrames_length positive below).mp ?_⟩
    have late := shown (limit + (pcm.length / frameLength sampleRate.toNat ptime + 1))
      (Nat.le_add_right _ _)
    have enough := Nat.lt_of_lt_of_le (Nat.lt_succ_self _) (Nat.le_add_left
      (pcm.length / frameLength sampleRate.toNat ptime + 1) limit)
    rw [stream_wav resampling written time built, played positive enough] at late
    exact (Prod.mk.inj (Except.ok.inj late)).1
  · rintro ⟨writable, time, builds, positive, whole⟩
    obtain ⟨resampler, built⟩ := Option.isSome_iff_exists.mp builds
    have written := (pcmToWav_ok_iff sampleRate pcm _).mpr ⟨writable, rfl⟩
    refine ⟨_, written, pcm.length / frameLength sampleRate.toNat ptime + 1, ?_⟩
    intro turns enough
    rw [stream_wav resampling written time built, played positive enough,
      (fullFrames_length positive below).mpr whole]

/-- When a file is played without a crash, and when samples that were written come back. -/
theorem player_safe_and_faithful (resampling : Resampling) :
    (∀ (file : Bytes) (ptime : Nat) (dstRate : UInt32),
      (∀ turns, stream resampling file ptime dstRate turns ≠ .error .panic) ↔
        ∀ header, readHeader file = .ok header →
          Playable resampling header (file.length - 44) ptime dstRate) ∧
    (∀ (sampleRate : UInt32) (pcm : Pcm) (ptime : Nat),
      PlaysBack resampling sampleRate pcm ptime ↔ Restored resampling sampleRate pcm ptime) :=
  ⟨stream_safe_iff resampling, playsBack_iff resampling⟩

/-- A resampler for every pair of rates that are not zero. -/
def passing : Resampling where
  State := Unit
  new source target := if source = 0 ∨ target = 0 then none else some ()
  convert resampler pcm := (resampler, some pcm)

/-- A recording of two channels of 16-bit words at 8000 Hz, one frame of 20 ms long. -/
def stereo : Bytes :=
  RIFF ++ bytes32LE (640 + 36) ++ WAVE ++ FMT ++ bytes32LE 16 ++ bytes16LE 1 ++ bytes16LE 2 ++
    bytes32LE 8000 ++ bytes32LE 32000 ++ bytes16LE 4 ++ bytes16LE 16 ++ DATA ++ bytes32LE 640 ++
    List.replicate 640 0

theorem stereo_file_crashes :
    ¬ ∀ resampling : Resampling,
      (∀ (file : Bytes) (ptime : Nat) (dstRate : UInt32), file.take 4 = RIFF →
        ∀ turns, stream resampling file ptime dstRate turns ≠ .error .panic) ∧
      (∀ (sampleRate : UInt32) (pcm : Pcm) (ptime : Nat),
        PlaysBack resampling sampleRate pcm ptime) := by
  intro claimed
  have safe := (stream_safe_iff passing stereo 20 8000).mp
    fun turns => (claimed passing).1 stereo 20 8000 (by decide +kernel) turns
  have playable := safe ⟨8000, 2, 16⟩ (by decide +kernel)
  have short := playable.room (by decide) (by decide) (by decide)
  revert short
  decide +kernel

end ReadingBack

end SoundFile
