import Mathlib.Data.List.Infix
import Nebula.Media.HeaderExtension

/- What the sockets between nodes take out of a datagram before it is dispatched: the ids in the
   header extension of media and recordings, and the id in front of a report. -/
namespace InterNode
open ByteStrings RtpPacket

section Sockets

/-- An id is sixteen bytes. -/
def fromSlice (bytes : Bytes) : Option Bytes :=
  if bytes.length = 16 then some bytes else none

/-- The source and the destination of a packet on the socket for media. -/
def remoteRtp (datagram : Bytes) : Outcome (Option (Bytes × Bytes)) := do
  let ext ← getExtension datagram
  match ext with
  | none => pure none
  | some ext =>
    if ext.length = 32 then do
      let src ← sliceTo ext 16
      let dst ← sliceFrom ext 16
      match fromSlice src, fromSlice dst with
      | some src, some dst => pure (some (src, dst))
      | _, _ => pure none
    else pure none

/-- The destination of a report, and the report. -/
def remoteRtcp (datagram : Bytes) : Outcome (Option (Bytes × Bytes)) :=
  if 16 ≤ datagram.length then do
    let id ← sliceTo datagram 16
    match fromSlice id with
    | none => pure none
    | some uuid => do
      let payload ← sliceFrom datagram 16
      pure (some (uuid, payload))
  else pure none

def recording (datagram : Bytes) : Outcome (Option Bytes) := do
  let ext ← getExtension datagram
  pure (ext.bind fromSlice)

end Sockets

section Extraction

/-- There is a first byte, and where it says so there is room for the extension block. -/
def Extractable (datagram : Bytes) : Prop :=
  ∃ first rest, datagram = first :: rest ∧
    (first &&& EXTENSION_BIT = EXTENSION_BIT → WellFormed datagram)

theorem getExtension_inside {datagram slice : Bytes}
    (read : getExtension datagram = .ok (some slice)) : slice <:+: datagram := by
  obtain ⟨extension, _, rest⟩ := bind_ok_inv read
  split at rest
  · cases rest
  · obtain ⟨count, _, rest⟩ := bind_ok_inv rest
    obtain ⟨upTo, cut, rest⟩ := bind_ok_inv rest
    obtain ⟨own, dropped, last⟩ := bind_ok_inv rest
    cases last
    obtain ⟨_, rfl⟩ := sliceTo_ok_iff.mp cut
    unfold sliceFrom at dropped
    split at dropped
    · cases dropped
      exact (List.drop_suffix _ _).isInfix.trans (List.take_prefix _ _).isInfix
    · cases dropped

theorem getExtension_plain {first : UInt8} {rest : Bytes}
    (clear : ¬ first &&& EXTENSION_BIT = EXTENSION_BIT) :
    getExtension (first :: rest) = .ok none := by
  have bit : getExtensionBit (first :: rest) = .ok (first &&& EXTENSION_BIT == EXTENSION_BIT) := rfl
  have length : getExtensionLength (first :: rest) = .ok 0 := by
    unfold getExtensionLength
    rw [bit, ok_bind, beq_false_of_ne clear]
    rfl
  unfold getExtension
  rw [length]
  rfl

theorem getExtension_wellFormed {datagram : Bytes} (valid : WellFormed datagram) :
    ∃ ext, getExtension datagram = .ok ext := by
  obtain ⟨header, payload, rfl⟩ := (wellFormed_iff_header datagram).mp valid
  have block := header.blockValid
  unfold ExtensionBlock at block
  split at block
  · obtain ⟨profile, data, words, profileLength, _, _, parts⟩ := block
    have four : (profile ++ bytes16 words).length = 4 := by
      rw [List.length_append, profileLength, bytes16_length]
    exact ⟨_, getExtension_header header payload four parts⟩
  · rename_i clear
    exact ⟨none, getExtension_plain clear⟩

/-- With the bit set, a datagram that is read has the whole block. -/
theorem wellFormed_of_getExtension {first : UInt8} {rest : Bytes} {ext : Option Bytes}
    (set : first &&& EXTENSION_BIT = EXTENSION_BIT)
    (read : getExtension (first :: rest) = .ok ext) : WellFormed (first :: rest) := by
  obtain ⟨extension, measured, rest'⟩ := bind_ok_inv read
  have some : extension ≠ 0 := by
    unfold getExtensionLength at measured
    have bit : getExtensionBit (first :: rest) = .ok true := by
      show Except.ok (first &&& EXTENSION_BIT == EXTENSION_BIT) = _
      rw [beq_iff_eq.mpr set]
    rw [bit, ok_bind, if_pos rfl] at measured
    obtain ⟨count, _, measured⟩ := bind_ok_inv measured
    obtain ⟨words, _, last⟩ := bind_ok_inv measured
    cases last
    omega
  rw [if_neg some] at rest'
  obtain ⟨count, counted, rest'⟩ := bind_ok_inv rest'
  obtain ⟨upTo, cut, _⟩ := bind_ok_inv rest'
  refine (wellFormed_iff_offset _).mpr ⟨count * 4 + RTP_HEADER_LEN + extension, ?_,
    (sliceTo_ok_iff.mp cut).1⟩
  unfold payloadOffset
  rw [counted, ok_bind, measured]
  rfl

theorem getExtension_ok_iff (datagram : Bytes) :
    (∃ ext, getExtension datagram = .ok ext) ↔ Extractable datagram := by
  constructor
  · rintro ⟨ext, read⟩
    cases datagram with
    | nil => cases read
    | cons first rest => exact ⟨first, rest, rfl, fun set => wellFormed_of_getExtension set read⟩
  · rintro ⟨first, rest, rfl, fits⟩
    by_cases set : first &&& EXTENSION_BIT = EXTENSION_BIT
    · exact getExtension_wellFormed (fits set)
    · exact ⟨none, getExtension_plain set⟩

end Extraction

section Datagrams

/-- Nothing on the three ways panics, and what is taken lies in the datagram. -/
structure Survives (datagram : Bytes) : Prop where
  extension : ∃ ext, getExtension datagram = .ok ext ∧ ∀ slice, ext = some slice → slice <:+: datagram
  rtp : ∃ ids, remoteRtp datagram = .ok ids ∧
    ∀ src dst, ids = some (src, dst) → src <:+: datagram ∧ dst <:+: datagram
  rtcp : ∃ ids, remoteRtcp datagram = .ok ids ∧
    ∀ id payload, ids = some (id, payload) → id <:+: datagram ∧ payload <:+: datagram
  recording : ∃ id, recording datagram = .ok id ∧ ∀ slice, id = some slice → slice <:+: datagram

theorem fromSlice_some {bytes id : Bytes} (is : fromSlice bytes = some id) : id = bytes := by
  unfold fromSlice at is
  split at is
  · cases is
    rfl
  · cases is

theorem fromSlice_take {bytes : Bytes} (long : 16 ≤ bytes.length) :
    fromSlice (bytes.take 16) = some (bytes.take 16) :=
  if_pos (by rw [List.length_take, Nat.min_eq_left long])

theorem remoteRtp_ok {datagram : Bytes} {ext : Option Bytes}
    (read : getExtension datagram = .ok ext) :
    ∃ ids, remoteRtp datagram = .ok ids ∧
      ∀ src dst, ids = some (src, dst) → src <:+: datagram ∧ dst <:+: datagram := by
  unfold remoteRtp
  rw [read, ok_bind]
  cases ext with
  | none => exact ⟨none, rfl, fun src dst is => by cases is⟩
  | some slice =>
    have inside := getExtension_inside read
    by_cases long : slice.length = 32
    · have first : sliceTo slice 16 = .ok (slice.take 16) := if_pos (by omega)
      have second : sliceFrom slice 16 = .ok (slice.drop 16) := if_pos (by omega)
      have source := @fromSlice_take slice (by omega)
      have destination : fromSlice (slice.drop 16) = some (slice.drop 16) :=
        if_pos (by rw [List.length_drop]; omega)
      simp only [if_pos long, first, second, ok_bind, source, destination]
      refine ⟨_, rfl, fun src dst is => ?_⟩
      cases is
      exact ⟨(List.take_prefix _ _).isInfix.trans inside,
        (List.drop_suffix _ _).isInfix.trans inside⟩
    · simp only [if_neg long]
      exact ⟨none, rfl, fun src dst is => by cases is⟩

theorem remoteRtcp_ok (datagram : Bytes) :
    ∃ ids, remoteRtcp datagram = .ok ids ∧
      ∀ id payload, ids = some (id, payload) → id <:+: datagram ∧ payload <:+: datagram := by
  unfold remoteRtcp
  by_cases long : 16 ≤ datagram.length
  · have first : sliceTo datagram 16 = .ok (datagram.take 16) := if_pos long
    have second : sliceFrom datagram 16 = .ok (datagram.drop 16) := if_pos long
    simp only [if_pos long, first, second, ok_bind, fromSlice_take long]
    refine ⟨_, rfl, fun id payload is => ?_⟩
    cases is
    exact ⟨(List.take_prefix _ _).isInfix, (List.drop_suffix _ _).isInfix⟩
  · rw [if_neg long]
    exact ⟨none, rfl, fun id payload is => by cases is⟩

theorem recording_ok {datagram : Bytes} {ext : Option Bytes}
    (read : getExtension datagram = .ok ext) :
    ∃ id, recording datagram = .ok id ∧ ∀ slice, id = some slice → slice <:+: datagram := by
  unfold recording
  rw [read, ok_bind]
  refine ⟨_, rfl, fun slice is => ?_⟩
  cases ext with
  | none => cases is
  | some own =>
    rw [fromSlice_some is]
    exact getExtension_inside read

/-- The datagrams that the receive loops survive. -/
theorem survives_iff (datagram : Bytes) : Survives datagram ↔ Extractable datagram := by
  rw [← getExtension_ok_iff]
  constructor
  · intro survives
    obtain ⟨ext, read, _⟩ := survives.extension
    exact ⟨ext, read⟩
  · rintro ⟨ext, read⟩
    refine ⟨⟨ext, read, ?_⟩, remoteRtp_ok read, remoteRtcp_ok datagram, recording_ok read⟩
    rintro slice rfl
    exact getExtension_inside read

/-- An empty datagram ends the loop of the socket for media. -/
theorem loops_die : ¬ ∀ datagram, Survives datagram := by
  intro claimed
  obtain ⟨ids, taken, _⟩ := (claimed []).rtp
  cases taken

-- A header that announces an extension, and nothing after it.
example : remoteRtp [0x90, 0, 0, 0, 0, 0, 0, 0, 0, 0, 0, 0] = .error .panic := rfl

end Datagrams

end InterNode
