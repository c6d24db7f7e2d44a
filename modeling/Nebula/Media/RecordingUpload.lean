import Nebula.Lib.ResumableUpload
import Nebula.Lib.Runs

/- The recording of a call on its way to the storage service. What the encoders give is uploaded a
   chunk at a time; what is not is left in Redis for the media server that goes on with it. -/
namespace RecordingUpload
open Runs ResumableUpload

section Model
variable {Byte : Type}

/-- How the request with a chunk ends: with the last byte that the service has, or with an error.
    Either way it has taken some of it. -/
inductive Answer where
  | told (taken : ℕ)
  | untold (taken : ℕ)

/-- How the request that creates or checks an upload ends, and whether its address is stored. -/
structure Opening where
  answered : Bool
  stored : Bool

/-- How the last request ends; `part` is what the service has taken if it has not taken all. -/
structure Ending where
  part : Option ℕ
  answered : Bool

/-- One upload, with its fields in the hash of the stream. `recorded` is no part of the program:
    all that the encoder has given. -/
structure Track (Byte : Type) where
  session : Session Byte
  url : Bool
  recording_buffer : Option (List Byte)
  offset : ℕ
  buffer : List Byte
  recorded : List Byte

def Track.new : Track Byte := ⟨Session.fresh, false, none, 0, [], []⟩

def resume_upload (content : List Byte) (offset : ℕ) (answer : Answer) (session : Session Byte) :
    Session Byte × Option ℕ :=
  match answer with
  | .told taken =>
    let after := session.put offset content taken
    (after, if after.complete then none else after.range)
  | .untold taken => (session.put offset content taken, none)

/-- An upload that is known is checked, another one is created. -/
def Track.start (opening : Opening) (track : Track Byte) : Option (Track Byte) :=
  if opening.answered then
    let buffer := track.recording_buffer.getD []
    if track.url then
      if track.session.complete then none
      else some { track with offset := track.session.persisted.length, buffer := buffer }
    else
      some { track with
        session := Session.fresh, url := opening.stored, offset := 0, buffer := buffer }
  else none

/-- `range - offset + 1` wraps where the service has just what it had at the offset; the slices
    panic beyond the buffer. -/
def Track.push (chunk : ℕ) (bytes : List Byte) (answer : Answer) (track : Track Byte) :
    Option (Track Byte) :=
  let pushed := { track with buffer := track.buffer ++ bytes, recorded := track.recorded ++ bytes }
  if chunk < pushed.buffer.length then
    match resume_upload (pushed.buffer.take chunk) track.offset answer track.session with
    | (session, some range) =>
      if track.offset ≤ range + 1 ∧ range + 1 - track.offset ≤ pushed.buffer.length then
        some { pushed with
          session := session
          buffer := pushed.buffer.drop (range + 1 - track.offset)
          offset := range + 1 }
      else none
    | (session, none) => some { pushed with session := session }
  else some pushed

def Track.flush (stored : Bool) (track : Track Byte) : Track Byte :=
  if stored then { track with recording_buffer := some track.buffer } else track

def Track.finish (ending : Ending) (track : Track Byte) : Track Byte :=
  { track with
    session :=
      match ending.part with
      | none => track.session.finish track.offset track.buffer
      | some taken => track.session.put track.offset track.buffer taken }

/-- The recorder of a stream, for one media server after another. -/
structure Recorder (Byte : Type) where
  mono : Track Byte
  stereo : Track Byte
  running : Bool
  hangup : Bool
  finished : Bool

inductive Event (Byte : Type) where
  | start (mono stereo : Opening)
  | frame (mono stereo : Option (List Byte × Answer))
  | hangup
  | hand_over (mono stereo : Bool)
  | finish (mono stereo : Ending)
  | crash

/-- Without the stored address of the mono recording the recorder ends, without that of the other
    it goes on. -/
def Recorder.start (mono stereo : Opening) (recorder : Recorder Byte) : Recorder Byte :=
  match recorder.mono.start mono with
  | none => recorder
  | some first =>
    if first.url then
      match recorder.stereo.start stereo with
      | none => { recorder with mono := first }
      | some second => { recorder with mono := first, stereo := second, running := true }
    else recorder

def Track.frame (chunk : ℕ) (encoded : Option (List Byte × Answer)) (track : Track Byte) :
    Option (Track Byte) :=
  match encoded with
  | none => some track
  | some (bytes, answer) => track.push chunk bytes answer

def Recorder.frame (chunk : ℕ) (mono stereo : Option (List Byte × Answer))
    (recorder : Recorder Byte) : Recorder Byte :=
  match recorder.mono.frame chunk mono with
  | none => { recorder with running := false }
  | some first =>
    match recorder.stereo.frame chunk stereo with
    | none => { recorder with mono := first, running := false }
    | some second => { recorder with mono := first, stereo := second }

def Recorder.hand_over (mono stereo : Bool) (recorder : Recorder Byte) : Recorder Byte :=
  { recorder with
    mono := recorder.mono.flush mono, stereo := recorder.stereo.flush stereo, running := false }

/-- An error ends the recorder before the next request. -/
def Recorder.finish (mono stereo : Ending) (recorder : Recorder Byte) : Recorder Byte :=
  let first := { recorder with mono := recorder.mono.finish mono, running := false }
  if mono.answered then
    { first with stereo := recorder.stereo.finish stereo, finished := stereo.answered }
  else first

def recording (chunk : ℕ) : Machine (Recorder Byte) (Event Byte) := fun recorder event =>
  match event, recorder.running with
  | .start mono stereo, false => some (recorder.start mono stereo)
  | .frame mono stereo, true => some (recorder.frame chunk mono stereo)
  | .hangup, _ => some { recorder with hangup := true }
  | .hand_over mono stereo, true =>
    if recorder.hangup then none else some (recorder.hand_over mono stereo)
  | .finish mono stereo, true => if recorder.hangup then some (recorder.finish mono stereo) else none
  | .crash, true => some { recorder with running := false }
  | _, _ => none

def Recorder.new : Recorder Byte := ⟨Track.new, Track.new, false, false, false⟩

end Model

section Claimed
variable {Byte : Type}

/-- The service has taken no more than it has told. -/
def Track.Told (track : Track Byte) : Prop := track.session.persisted.length = track.offset

/-- A recorder is started while the call goes on, its addresses are stored, and it is handed over
    with nothing left untold and its buffers stored. -/
def Orderly : Guard (Recorder Byte) (Event Byte) := fun recorder event =>
  match event with
  | .start _ stereo => recorder.hangup = false ∧ (recorder.stereo.url = true ∨ stereo.stored = true)
  | .hand_over mono stereo =>
    (mono = true ∧ recorder.mono.Told) ∧ stereo = true ∧ recorder.stereo.Told
  | .crash => False
  | _ => True

/-- What the service has and what is left in the buffer make up all that was recorded. -/
structure Track.Whole (chunk : ℕ) (track : Track Byte) : Prop where
  whole : track.session.persisted ++
    track.buffer.drop (track.session.persisted.length - track.offset) = track.recorded
  ready : track.recorded ≠ [] → track.buffer ≠ []
  goes_on : ∀ bytes answer, (track.push chunk bytes answer).isSome = true

structure Sound (chunk : ℕ) (recorder : Recorder Byte) : Prop where
  mono_whole : recorder.running = true → recorder.mono.Whole chunk
  stereo_whole : recorder.running = true → recorder.stereo.Whole chunk
  mono_complete : recorder.mono.session.complete = true →
    recorder.mono.session.persisted = recorder.mono.recorded
  stereo_complete : recorder.stereo.session.complete = true →
    recorder.stereo.session.persisted = recorder.stereo.recorded

end Claimed

section Tracks
variable {Byte : Type} {chunk : ℕ} {track after : Track Byte}

structure Track.Going (chunk : ℕ) (track : Track Byte) : Prop where
  behind : track.offset ≤ track.session.persisted.length
  sent : track.session.persisted.length ≤ track.offset + chunk
  kept : track.session.persisted.IsPrefix track.recorded
  rest : track.recorded.drop track.offset = track.buffer
  ready : track.recorded ≠ [] → track.buffer ≠ []
  open_ : track.session.complete = false

/-- A track between two media servers. -/
structure Track.Left (track : Track Byte) : Prop where
  kept : track.session.persisted.IsPrefix track.recorded
  rest : track.recorded.drop track.session.persisted.length = track.recording_buffer.getD []
  ready : track.recorded ≠ [] → track.recording_buffer.getD [] ≠ []
  unknown : track.url = false → track.recorded = []
  open_ : track.session.complete = false

def Track.Finished (track : Track Byte) : Prop :=
  track.session.complete = true → track.session.persisted = track.recorded

theorem new_left : (Track.new : Track Byte).Left where
  kept := List.prefix_rfl
  rest := rfl
  ready := fun some => absurd rfl some
  unknown := fun _ => rfl
  open_ := rfl

theorem finished_of_open (open_ : track.session.complete = false) : track.Finished := by
  intro complete
  rw [open_] at complete
  cases complete

/-- A start goes on from what the service has; one that the other track brings to nothing has
    changed nothing that lasts. -/
theorem start_spec (left : track.Left) {opening : Opening}
    (started : track.start opening = some after) :
    after.Going chunk ∧ (after.url = true → after.Left) ∧
      (track.url = true ∨ opening.stored = true → after.url = true) := by
  unfold Track.start at started
  split at started
  · dsimp only at started
    split at started
    · rename_i known
      split at started
      · cases started
      · cases started
        exact ⟨⟨Nat.le_refl _, Nat.le_add_right _ _, left.kept, left.rest, left.ready, left.open_⟩,
          fun _ => ⟨left.kept, left.rest, left.ready, left.unknown, left.open_⟩, fun _ => known⟩
    · rename_i unknown
      cases started
      have nothing := left.unknown (Bool.eq_false_iff.mpr unknown)
      have rest : track.recorded = track.recording_buffer.getD [] := by
        rw [← left.rest, nothing, List.drop_nil]
      refine ⟨⟨Nat.le_refl _, Nat.zero_le _, List.nil_prefix, rest, fun some => absurd nothing some,
          rfl⟩, fun known => ⟨List.nil_prefix, rest, left.ready, fun _ => nothing, rfl⟩,
        fun stored => stored.resolve_left unknown⟩
  · cases started

/-- What the encoder gives is at the end of both. -/
theorem appended_going (going : track.Going chunk) (bytes : List Byte) :
    { track with
      buffer := track.buffer ++ bytes, recorded := track.recorded ++ bytes }.Going chunk where
  behind := going.behind
  sent := going.sent
  kept := going.kept.trans (List.prefix_append _ _)
  rest := by
    have within := Nat.le_trans going.behind going.kept.length_le
    show (track.recorded ++ bytes).drop track.offset = track.buffer ++ bytes
    rw [List.drop_append_of_le_length within, going.rest]
  ready := by
    intro some none
    obtain ⟨buffer, nothing⟩ := List.append_eq_nil_iff.mp none
    apply some
    rw [List.append_eq_nil_iff]
    exact ⟨Classical.byContradiction fun recorded => going.ready recorded buffer, nothing⟩
  open_ := going.open_

theorem recorded_length (going : track.Going chunk) :
    track.recorded.length = track.offset + track.buffer.length := by
  have length := congrArg List.length going.rest
  have within := going.kept.length_le
  have behind := going.behind
  rw [List.length_drop] at length
  omega

/-- A chunk that is sent leaves something in the buffer, whatever becomes of the request. -/
theorem sent_going (going : track.Going chunk) (more : chunk < track.buffer.length) (answer : Answer) :
    match resume_upload (track.buffer.take chunk) track.offset answer track.session with
    | (session, some range) => (track.offset ≤ range + 1 ∧ range + 1 - track.offset ≤ track.buffer.length) ∧
      { track with
        session := session
        buffer := track.buffer.drop (range + 1 - track.offset)
        offset := range + 1 }.Going chunk
    | (session, none) => { track with session := session }.Going chunk := by
  have content : (track.buffer.take chunk).IsPrefix (track.recorded.drop track.offset) := by
    rw [going.rest]
    exact List.take_prefix _ _
  have grown : ∀ taken, track.session.persisted.length ≤
      (track.session.put track.offset (track.buffer.take chunk) taken).persisted.length :=
    put_grows
  have kept := put_isPrefix going.kept content
  have bounded : ∀ taken, (track.session.put track.offset (track.buffer.take chunk)
      taken).persisted.length ≤ track.offset + chunk := by
    intro taken
    have length : (track.session.put track.offset (track.buffer.take chunk)
        taken).persisted.length ≤ max track.session.persisted.length
          (track.offset + (track.buffer.take chunk).length) :=
      put_length_le going.behind taken
    have sent := going.sent
    rw [List.length_take] at length
    omega
  have untold : ∀ taken, { track with
      session := track.session.put track.offset (track.buffer.take chunk) taken }.Going chunk :=
    fun taken =>
      { behind := Nat.le_trans going.behind (grown taken)
        sent := bounded taken
        kept := kept taken
        rest := going.rest
        ready := going.ready
        open_ := (put_complete taken).trans going.open_ }
  cases answer with
  | untold taken => exact untold taken
  | told taken =>
    unfold resume_upload
    dsimp only
    rw [if_neg (by rw [put_complete, going.open_]; exact Bool.false_ne_true)]
    cases told : (track.session.put track.offset (track.buffer.take chunk) taken).range with
    | none => exact untold taken
    | some range =>
      dsimp only
      rw [range_eq_some told]
      have last := grown taken
      have few := bounded taken
      have behind := going.behind
      have total := recorded_length going
      refine ⟨⟨by omega, by omega⟩, ?_⟩
      exact
        { behind := Nat.le_refl _
          sent := Nat.le_add_right _ _
          kept := kept taken
          rest := by
            have drops := congrArg (List.drop ((track.session.put track.offset
              (track.buffer.take chunk) taken).persisted.length - track.offset)) going.rest
            rwa [List.drop_drop, Nat.add_sub_cancel' (by omega)] at drops
          ready := fun _ => by
            apply List.ne_nil_of_length_pos
            show 0 < (track.buffer.drop _).length
            rw [List.length_drop]
            omega
          open_ := (put_complete taken).trans going.open_ }

theorem push_going (going : track.Going chunk) (bytes : List Byte) (answer : Answer) :
    ∃ after, track.push chunk bytes answer = some after ∧ after.Going chunk ∧
      after.url = track.url := by
  have appended := appended_going going bytes
  unfold Track.push
  dsimp only
  split
  · rename_i more
    have sent := sent_going appended more answer
    dsimp only at sent
    split at sent
    · rw [if_pos sent.1]
      exact ⟨_, rfl, sent.2, rfl⟩
    · exact ⟨_, rfl, sent, rfl⟩
  · exact ⟨_, rfl, appended, rfl⟩

theorem frame_going (going : track.Going chunk) (encoded : Option (List Byte × Answer)) :
    ∃ after, track.frame chunk encoded = some after ∧ after.Going chunk ∧
      after.url = track.url := by
  cases encoded with
  | none => exact ⟨track, rfl, going, rfl⟩
  | some encoded => exact push_going going encoded.1 encoded.2

theorem flush_left (going : track.Going chunk) (known : track.url = true) (told : track.Told) :
    (track.flush true).Left where
  kept := going.kept
  rest := by
    show track.recorded.drop track.session.persisted.length = track.buffer
    rw [told, going.rest]
  ready := going.ready
  unknown := fun unknown => by
    rw [show track.url = false from unknown] at known
    cases known
  open_ := going.open_

theorem finish_finished (going : track.Going chunk) (ending : Ending) :
    (track.finish ending).Finished := by
  obtain ⟨part, answered⟩ := ending
  cases part with
  | some taken => exact finished_of_open ((put_complete taken).trans going.open_)
  | none => exact finish_whole going.kept going.behind going.rest going.open_

theorem whole_of_going (going : track.Going chunk) : track.Whole chunk where
  whole := by
    obtain ⟨later, same⟩ := going.kept
    rw [← going.rest, List.drop_drop, Nat.add_sub_cancel' going.behind]
    conv => rhs; rw [← List.take_append_drop track.session.persisted.length track.recorded]
    rw [← same, List.take_left]
  ready := going.ready
  goes_on := fun bytes answer => by
    obtain ⟨after, pushed, _⟩ := push_going going bytes answer
    rw [pushed, Option.isSome_some]

end Tracks

section Recorders
variable {Byte : Type} {chunk : ℕ} {recorder after : Recorder Byte}

structure Kept (chunk : ℕ) (recorder : Recorder Byte) : Prop where
  going : recorder.running = true → recorder.mono.Going chunk ∧ recorder.stereo.Going chunk
  left : recorder.running = false → recorder.hangup = false →
    recorder.mono.Left ∧ recorder.stereo.Left
  finished : recorder.mono.Finished ∧ recorder.stereo.Finished
  known : recorder.running = true → recorder.mono.url = true ∧ recorder.stereo.url = true

theorem new_kept : Kept chunk (Recorder.new : Recorder Byte) where
  going := nofun
  left := fun _ _ => ⟨new_left, new_left⟩
  finished := ⟨finished_of_open rfl, finished_of_open rfl⟩
  known := nofun

theorem start_kept (kept : Kept chunk recorder) (stopped : recorder.running = false)
    {mono stereo : Opening} (stands : recorder.hangup = false)
    (stored : recorder.stereo.url = true ∨ stereo.stored = true) :
    Kept chunk (recorder.start mono stereo) := by
  obtain ⟨monoLeft, stereoLeft⟩ := kept.left stopped stands
  unfold Recorder.start
  split
  · exact kept
  · rename_i first first_started
    obtain ⟨firstGoing, firstLeft, _⟩ := @start_spec _ chunk _ _ monoLeft _ first_started
    split
    · rename_i known
      have finished := finished_of_open firstGoing.open_
      split
      · refine ⟨fun running => ?_, fun _ _ => ⟨firstLeft known, stereoLeft⟩,
          ⟨finished, kept.finished.2⟩, fun running => ?_⟩
        · rw [show recorder.running = true from running] at stopped
          cases stopped
        · rw [show recorder.running = true from running] at stopped
          cases stopped
      · rename_i second second_started
        obtain ⟨going, _, url⟩ := @start_spec _ chunk _ _ stereoLeft _ second_started
        exact ⟨fun _ => ⟨firstGoing, going⟩, nofun, ⟨finished, finished_of_open going.open_⟩,
          fun _ => ⟨known, url stored⟩⟩
    · exact kept

theorem frame_kept (kept : Kept chunk recorder) (running : recorder.running = true)
    (mono stereo : Option (List Byte × Answer)) : Kept chunk (recorder.frame chunk mono stereo) := by
  obtain ⟨monoGoing, stereoGoing⟩ := kept.going running
  obtain ⟨first, mono_pushed, firstGoing, first_url⟩ := frame_going monoGoing mono
  obtain ⟨second, stereo_pushed, secondGoing, second_url⟩ := frame_going stereoGoing stereo
  unfold Recorder.frame
  rw [mono_pushed, stereo_pushed]
  refine ⟨fun _ => ⟨firstGoing, secondGoing⟩, fun stopped => ?_,
    ⟨finished_of_open firstGoing.open_, finished_of_open secondGoing.open_⟩, fun _ => ?_⟩
  · rw [show recorder.running = false from stopped] at running
    cases running
  · exact ⟨first_url.trans (kept.known running).1, second_url.trans (kept.known running).2⟩

theorem finish_kept (kept : Kept chunk recorder) (running : recorder.running = true)
    (hangup : recorder.hangup = true) (mono stereo : Ending) :
    Kept chunk (recorder.finish mono stereo) := by
  obtain ⟨monoGoing, stereoGoing⟩ := kept.going running
  have standing : ∀ {P : Prop}, recorder.hangup = false → P := fun stands => by
    rw [hangup] at stands
    cases stands
  unfold Recorder.finish
  dsimp only
  split
  · exact ⟨nofun, fun _ stands => standing stands,
      ⟨finish_finished monoGoing mono, finish_finished stereoGoing stereo⟩, nofun⟩
  · exact ⟨nofun, fun _ stands => standing stands,
      ⟨finish_finished monoGoing mono, kept.finished.2⟩, nofun⟩

theorem hand_over_kept (kept : Kept chunk recorder) (running : recorder.running = true)
    (told : recorder.mono.Told ∧ recorder.stereo.Told) :
    Kept chunk (recorder.hand_over true true) := by
  obtain ⟨monoGoing, stereoGoing⟩ := kept.going running
  obtain ⟨mono_url, stereo_url⟩ := kept.known running
  exact ⟨nofun, fun _ _ => ⟨flush_left monoGoing mono_url told.1, flush_left stereoGoing stereo_url told.2⟩,
    kept.finished, nofun⟩

theorem step_kept (kept : Kept chunk recorder) {event : Event Byte} (orderly : Orderly recorder event)
    (stepped : recording chunk recorder event = some after) : Kept chunk after := by
  unfold recording at stepped
  split at stepped
  · rename_i stopped
    cases stepped
    exact start_kept kept stopped orderly.1 orderly.2
  · rename_i running
    cases stepped
    exact frame_kept kept running _ _
  · cases stepped
    exact ⟨kept.going, nofun, kept.finished, kept.known⟩
  · rename_i running
    split at stepped
    · cases stepped
    · cases stepped
      obtain ⟨⟨rfl, mono_told⟩, rfl, stereo_told⟩ := orderly
      exact hand_over_kept kept running ⟨mono_told, stereo_told⟩
  · rename_i running
    split at stepped
    · rename_i hangup
      cases stepped
      exact finish_kept kept running hangup _ _
    · cases stepped
  · exact absurd orderly id
  · cases stepped

/-- Whatever becomes of the uploads of its chunks, and however often it is handed over, the recording
    that the service completes is what the encoder gave, all of it and once, where nothing that the
    service took is untold at a hand-over and what is left is stored there. -/
theorem recording_whole (chunk : ℕ) (recorder : Recorder Byte)
    (run : Run (recording chunk) Orderly Recorder.new recorder) : Sound chunk recorder := by
  have kept : Kept chunk recorder :=
    run_keeps (Kept chunk) new_kept (fun _ _ _ kept orderly stepped => step_kept kept orderly stepped) run
  exact
    { mono_whole := fun running => whole_of_going (kept.going running).1
      stereo_whole := fun running => whole_of_going (kept.going running).2
      mono_complete := kept.finished.1
      stereo_complete := kept.finished.2 }

/-- Chunks of two bytes: the first is taken in part, the rest is left to another media server. -/
def handedOver : List (Event ℕ) :=
  [.start ⟨true, true⟩ ⟨true, true⟩, .frame (some ([1, 2, 3], .told 1)) (some ([5], .told 0)),
    .frame (some ([4], .untold 0)) none, .hand_over true true, .start ⟨true, false⟩ ⟨true, false⟩,
    .frame (some ([6], .told 2)) none, .hangup, .finish ⟨none, true⟩ ⟨none, true⟩]

def isOrderly (recorder : Recorder ℕ) : Event ℕ → Bool
  | .start _ stereo => !recorder.hangup && (recorder.stereo.url || stereo.stored)
  | .hand_over mono stereo =>
    (mono && decide (recorder.mono.session.persisted.length = recorder.mono.offset)) &&
      (stereo && decide (recorder.stereo.session.persisted.length = recorder.stereo.offset))
  | .crash => false
  | _ => true

theorem isOrderly_sound (recorder : Recorder ℕ) (event : Event ℕ)
    (passed : isOrderly recorder event = true) : Orderly recorder event := by
  cases event with
  | start mono stereo => simpa [isOrderly, Orderly] using passed
  | hand_over mono stereo => simpa [isOrderly, Orderly, Track.Told] using passed
  | crash => cases passed
  | _ => trivial

theorem recording_whole_handedOver : ∃ recorder : Recorder ℕ, Sound 2 recorder ∧
    recorder.finished = true ∧ recorder.mono.session = ⟨[1, 2, 3, 4, 6], true⟩ ∧
    recorder.stereo.session = ⟨[5], true⟩ := by
  have ran : ∃ recorder, runWhere (recording 2) isOrderly Recorder.new handedOver = some recorder ∧
      recorder.finished = true ∧ recorder.mono.session = ⟨[1, 2, 3, 4, 6], true⟩ ∧
      recorder.stereo.session = ⟨[5], true⟩ := ⟨_, rfl, rfl, rfl, rfl⟩
  obtain ⟨recorder, ran, finished, mono, stereo⟩ := ran
  have run := run_of_runWhere isOrderly_sound handedOver ran
  exact ⟨recorder, recording_whole 2 recorder run, finished, mono, stereo⟩

end Recorders

section Voicemail
variable {Byte : Type} {chunk : ℕ}

/-- A voicemail is uploaded in the same way; what is left of it is not stored. -/
def voicemail (chunk : ℕ) : Machine (Track Byte) (Option (List Byte × Answer)) :=
  fun track encoded => track.frame chunk encoded

end Voicemail

end RecordingUpload
