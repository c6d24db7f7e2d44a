import Nebula.Lib.Runs
import Nebula.Media.SoundFile

/- A sound file that is written as the sound comes in: a header for no samples, the samples a chunk
   at a time, and at the end the sizes in the header. FileRecorder and StreamVoicemail do it alike. -/
namespace WavRecording
open ByteStrings SoundFile Runs

section Model

/-- How a chunk is written: a voicemail whose file cannot be opened keeps the chunk. -/
inductive Write where
  | done
  | unopened
  deriving DecidableEq

/-- `recorded` and `encoded` are no part of the program: all samples so far, and all that the
    encoder has made of them. -/
structure Recorder where
  wav_file : Bytes
  wav : Bytes
  samples : Nat
  mp3_file : Bytes
  mp3 : Bytes
  recorded : Pcm
  encoded : Bytes

/-- Without a header the file is empty. -/
def start (sampleRate : UInt32) : Recorder where
  wav_file :=
    match pcmToWav sampleRate [] with
    | .ok wav => wav
    | .error _ => []
  wav := []
  samples := 0
  mp3_file := []
  mp3 := []
  recorded := []
  encoded := []

/-- What a turn of the loop finds in its channel. -/
inductive Received where
  | pcm (samples : Pcm)
  | empty

def Received.samples (pcm_len : Nat) : Received → Pcm
  | .pcm samples => samples
  | .empty => List.replicate pcm_len 0

structure Turn where
  received : Received
  write : Write
  encoded : Option Bytes

def Recorder.push_wav (chunk : Nat) (pcm : Pcm) (write : Write) (recorder : Recorder) :
    Outcome Recorder := do
  let samples ← checkedAdd recorder.samples (pcm.length % 2 ^ 32)
  let wav := recorder.wav ++ wordsOf pcm
  let recorded := recorder.recorded ++ pcm
  if chunk < wav.length ∧ write = .done then
    pure { recorder with
      wav_file := recorder.wav_file ++ wav, wav := [], samples := samples, recorded := recorded }
  else pure { recorder with wav := wav, samples := samples, recorded := recorded }

def Recorder.push_mp3 (chunk : Nat) (encoded : Option Bytes) (recorder : Recorder) : Recorder :=
  match encoded with
  | none => recorder
  | some bytes =>
    let mp3 := recorder.mp3 ++ bytes
    let encoded := recorder.encoded ++ bytes
    if chunk < mp3.length then
      { recorder with mp3_file := recorder.mp3_file ++ mp3, mp3 := [], encoded := encoded }
    else { recorder with mp3 := mp3, encoded := encoded }

/-- A turn of the loop. An overflow of the number of samples ends the task. -/
def run (chunk pcm_len : Nat) : Machine Recorder Turn := fun recorder turn =>
  match recorder.push_wav chunk (turn.received.samples pcm_len) turn.write with
  | .ok pushed => some (pushed.push_mp3 chunk turn.encoded)
  | .error _ => none

/-- Bytes are written over those at a position. -/
def patch (i : Nat) (bytes file : Bytes) : Bytes :=
  file.take i ++ bytes ++ file.drop (i + bytes.length)

def Recorder.finish (recorder : Recorder) : Outcome (Bytes × Bytes) := do
  let file := recorder.wav_file ++ recorder.wav
  let size ← checkedMul recorder.samples 2
  let whole ← checkedAdd size 36
  pure (patch 40 (bytes32LE size) (patch 4 (bytes32LE whole) file), recorder.mp3_file ++ recorder.mp3)

end Model

section File
variable {sampleRate : UInt32}

theorem patch_at {before old bytes after : Bytes} {i : Nat} (position : before.length = i)
    (same : old.length = bytes.length) :
    patch i bytes (before ++ (old ++ after)) = before ++ (bytes ++ after) := by
  subst position
  unfold patch
  rw [List.take_left, ← same, List.drop_length_add_append, List.drop_left, List.append_assoc]

/-- The two sizes are all that depends on the number of samples. -/
theorem patch_header (old size : Nat) (audio : Bytes) :
    patch 40 (bytes32LE size) (patch 4 (bytes32LE (size + 36)) (wavHeader sampleRate old ++ audio)) =
      wavHeader sampleRate size ++ audio := by
  have parts : ∀ size, wavHeader sampleRate size ++ audio = RIFF ++ (bytes32LE (size + 36) ++
      ((WAVE ++ FMT ++ bytes32LE 16 ++ bytes16LE 1 ++ bytes16LE 1 ++ bytes32LE sampleRate.toNat ++
        bytes32LE (sampleRate.toNat * 16 / 8) ++ bytes16LE 2 ++ bytes16LE 16 ++ DATA) ++
          (bytes32LE size ++ audio))) := by
    intro size
    simp only [wavHeader, List.append_assoc]
  rw [parts old, parts size]
  generalize middle : WAVE ++ FMT ++ bytes32LE 16 ++ bytes16LE 1 ++ bytes16LE 1 ++
    bytes32LE sampleRate.toNat ++ bytes32LE (sampleRate.toNat * 16 / 8) ++ bytes16LE 2 ++
      bytes16LE 16 ++ DATA = fields
  have thirtyTwo : fields.length = 32 := by
    rw [← middle]
    simp only [List.length_append]
    rfl
  rw [@patch_at RIFF (bytes32LE (old + 36)) (bytes32LE (size + 36)) _ 4 rfl rfl, ← List.append_assoc,
    ← List.append_assoc]
  rw [@patch_at (RIFF ++ bytes32LE (size + 36) ++ fields) (bytes32LE old) (bytes32LE size) audio 40
    (by rw [List.length_append, List.length_append, thirtyTwo]; rfl) rfl, List.append_assoc,
    List.append_assoc]

/-- A file with such a header is played as the samples behind it, whatever size it states. -/
theorem stream_header (resampling : Resampling) {size ptime : Nat} {pcm : Pcm}
    {resampler : resampling.State} (time : sampleRate.toNat * (ptime % 2 ^ 32) < 2 ^ 32)
    (built : resampling.new sampleRate.toNat sampleRate.toNat = some resampler) (turns : Nat) :
    stream resampling (wavHeader sampleRate size ++ wordsOf pcm) ptime sampleRate turns =
      play resampling (taskOf ⟨sampleRate.toNat, 1, 16⟩ ptime sampleRate (wordsOf pcm)) turns
        resampler (wordsOf pcm) := by
  have data : (wavHeader sampleRate size ++ wordsOf pcm).drop 44 = wordsOf pcm :=
    List.drop_left' (length_wavHeader _ _)
  rw [stream, read_fits (readHeader_wav _ _ _) (fits_word sampleRate time), ok_bind, data]
  dsimp only [taskOf]
  rw [built]

end File

section Runs
variable {sampleRate : UInt32} {chunk pcm_len : Nat} {recorder after : Recorder}

/-- What is in the file and what is yet to be written are all samples so far. -/
structure Written (sampleRate : UInt32) (recorder : Recorder) : Prop where
  file : recorder.wav_file ++ recorder.wav = wavHeader sampleRate 0 ++ wordsOf recorder.recorded
  count : recorder.samples = recorder.recorded.length
  mp3 : recorder.mp3_file ++ recorder.mp3 = recorder.encoded

theorem wordsOf_append (first second : Pcm) : wordsOf (first ++ second) = wordsOf first ++ wordsOf second :=
  List.flatMap_append

theorem start_written (rate : sampleRate.toNat * 16 < 2 ^ 32) :
    Written sampleRate (start sampleRate) where
  file := by
    have header := (pcmToWav_ok_iff sampleRate [] _).mpr ⟨⟨by decide, rate⟩, rfl⟩
    unfold start
    rw [header]
    exact List.append_nil _
  count := rfl
  mp3 := rfl

theorem push_wav_written (written : Written sampleRate recorder) {pcm : Pcm} {write : Write}
    (few : pcm.length < 2 ^ 32) (pushed : recorder.push_wav chunk pcm write = .ok after) :
    Written sampleRate after := by
  unfold Recorder.push_wav at pushed
  obtain ⟨samples, added, pushed⟩ := bind_ok_inv pushed
  have count : samples = (recorder.recorded ++ pcm).length := by
    unfold checkedAdd at added
    split at added
    · cases added
      rw [List.length_append, Nat.mod_eq_of_lt few, written.count]
    · cases added
  have file : recorder.wav_file ++ (recorder.wav ++ wordsOf pcm) =
      wavHeader sampleRate 0 ++ wordsOf (recorder.recorded ++ pcm) := by
    rw [wordsOf_append, ← List.append_assoc, written.file, List.append_assoc]
  dsimp only at pushed
  split at pushed
  · cases pushed
    exact ⟨(List.append_nil _).trans file, count, written.mp3⟩
  · cases pushed
    exact ⟨file, count, written.mp3⟩

theorem push_mp3_written (written : Written sampleRate recorder) (encoded : Option Bytes) :
    Written sampleRate (recorder.push_mp3 chunk encoded) := by
  unfold Recorder.push_mp3
  split
  · exact written
  · rename_i bytes
    have all : recorder.mp3_file ++ (recorder.mp3 ++ bytes) = recorder.encoded ++ bytes := by
      rw [← List.append_assoc, written.mp3]
    dsimp only
    split
    · exact ⟨written.file, written.count, (List.append_nil _).trans all⟩
    · exact ⟨written.file, written.count, all⟩

/-- A turn adds fewer samples than a `u32` counts. -/
def Counted (pcm_len : Nat) : Guard Recorder Turn := fun _ turn =>
  (turn.received.samples pcm_len).length < 2 ^ 32

theorem run_written (rate : sampleRate.toNat * 16 < 2 ^ 32)
    (ran : Run (run chunk pcm_len) (Counted pcm_len) (start sampleRate) recorder) :
    Written sampleRate recorder := by
  refine run_keeps (Written sampleRate) (start_written rate) ?_ ran
  intro before turn after written counted turned
  unfold run at turned
  split at turned
  · rename_i pushed added
    cases turned
    exact push_mp3_written (push_wav_written written counted added) turn.encoded
  · cases turned

theorem finish_eq (written : Written sampleRate recorder) {file mp3 : Bytes}
    (finished : recorder.finish = .ok (file, mp3)) :
    recorder.recorded.length * 2 < 2 ^ 32 ∧
      file = wavHeader sampleRate (recorder.recorded.length * 2) ++ wordsOf recorder.recorded ∧
      mp3 = recorder.encoded := by
  unfold Recorder.finish at finished
  obtain ⟨size, doubled, finished⟩ := bind_ok_inv finished
  obtain ⟨whole, added, finished⟩ := bind_ok_inv finished
  unfold checkedMul at doubled
  unfold checkedAdd at added
  split at doubled
  · rename_i fits
    split at added
    · cases doubled
      cases added
      cases finished
      rw [written.file, patch_header, ← written.count]
      exact ⟨fits, rfl, written.mp3⟩
    · cases added
  · cases doubled

/-- What is recorded is what is played: of a file that was written as the sound came in the player
    shows all full frames, in order, and no more, and the file is the one that the samples would be
    written to at once. -/
theorem recorded_plays_back (resampling : Resampling) (sampleRate : UInt32) (chunk pcm_len ptime : Nat)
    (recorder : Recorder) (file mp3 : Bytes) (rate : sampleRate.toNat * 16 < 2 ^ 32)
    (ran : Run (run chunk pcm_len) (Counted pcm_len) (start sampleRate) recorder)
    (finished : recorder.finish = .ok (file, mp3)) :
    (Writable sampleRate recorder.recorded → pcmToWav sampleRate recorder.recorded = .ok file) ∧
      mp3 = recorder.encoded ∧
      (sampleRate.toNat * (ptime % 2 ^ 32) < 2 ^ 32 → 0 < frameLength sampleRate.toNat ptime →
        (resampling.new sampleRate.toNat sampleRate.toNat).isSome = true →
        ∃ limit, ∀ turns, limit ≤ turns → stream resampling file ptime sampleRate turns =
          .ok (fullFrames (frameLength sampleRate.toNat ptime) recorder.recorded, true)) := by
  obtain ⟨fits, rfl, rfl⟩ := finish_eq (run_written rate ran) finished
  refine ⟨?_, rfl, ?_⟩
  · intro writable
    refine (pcmToWav_ok_iff _ _ _).mpr ⟨writable, ?_⟩
    rw [Nat.mod_eq_of_lt (by omega)]
    congr 2
    omega
  · intro time positive builds
    obtain ⟨resampler, built⟩ := Option.isSome_iff_exists.mp builds
    refine ⟨recorder.recorded.length / frameLength sampleRate.toNat ptime + 1, fun turns enough => ?_⟩
    rw [stream_header resampling time built]
    refine play_words positive (bits_word _) ?_ rfl rfl resampler turns recorder.recorded enough
    rw [taskOf, bits_word]
    dsimp only
    rw [Nat.mul_one]

/-- Eight samples come in, then none for a turn; the chunks are of ten bytes. -/
def twoTurns : List Turn :=
  [⟨.pcm [1, -2, 3, -4, 5, -6, 7, -8], .done, some [9]⟩, ⟨.empty, .unopened, none⟩]

theorem recorded_plays_back_two : ∃ (recorder : Recorder) (file mp3 : Bytes), recorder.finish = .ok (file, mp3) ∧ mp3 = [9] ∧
    ∃ limit, ∀ turns, limit ≤ turns → stream passing file 1 8000 turns =
      .ok ([[1, -2, 3, -4, 5, -6, 7, -8], [0, 0, 0, 0, 0, 0, 0, 0]], true) := by
  have ran : ∃ recorder, runWhere (run 10 8) (fun _ turn => decide
      ((turn.received.samples 8).length < 2 ^ 32)) (start 8000) twoTurns = some recorder ∧
      recorder.recorded = [1, -2, 3, -4, 5, -6, 7, -8, 0, 0, 0, 0, 0, 0, 0, 0] ∧
      recorder.encoded = [9] ∧ ∃ file mp3, recorder.finish = .ok (file, mp3) :=
    ⟨_, rfl, rfl, rfl, _, _, rfl⟩
  obtain ⟨recorder, ran, samples, encoded, file, mp3, finished⟩ := ran
  have counted := run_of_runWhere (fun _ _ passed => of_decide_eq_true passed) twoTurns ran
  obtain ⟨_, bytes, plays⟩ := recorded_plays_back passing 8000 10 8 1 recorder file mp3 (by decide)
    counted finished
  have shown := plays (by decide) (by decide) (by decide)
  rw [samples] at shown
  exact ⟨recorder, file, mp3, finished, bytes.trans encoded, shown⟩

end Runs

end WavRecording
