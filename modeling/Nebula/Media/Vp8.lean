import Nebula.Lib.ByteStrings

/- The start of a VP8 payload: the descriptor and, in the first packet of a frame, the header
   of the frame. -/
namespace Vp8
open ByteStrings

structure PixelSize where
  width : Nat
  height : Nat
  deriving DecidableEq

structure ParsedHeader where
  pictureId : Option Nat := none
  tl0PicIdx : Option Nat := none
  isKeyFrame : Bool := false
  resolution : Option PixelSize := none
  deriving DecidableEq

/-- Counted from the most significant bit. -/
def msBit (byte : UInt8) (index : Nat) : Bool := byte.toNat.testBit (7 - index)

def readU8 : Bytes → Option (UInt8 × Bytes)
  | [] => none
  | byte :: rest => some (byte, rest)

def readU16BE : Bytes → Option (Nat × Bytes)
  | high :: low :: rest => some (word16 high low, rest)
  | _ => none

def readSlice (payload : Bytes) (n : Nat) : Option (Bytes × Bytes) :=
  if payload.length < n then none else some (payload.take n, payload.drop n)

def sizeFromAdditionalKeyFrameHeader : Bytes → Option PixelSize
  | _ :: _ :: _ :: w0 :: w1 :: h0 :: h1 :: _ =>
    some ⟨word16 w1 w0 % 16384, word16 h1 h0 % 16384⟩
  | _ => none

/-- A picture id of 15 bits; one of 7 bits is refused. -/
def readPictureId (has : Bool) (payload : Bytes) : Option (Option Nat × Bytes) :=
  if has then do
    let (first, _) ← readU8 payload
    if msBit first 0 then
      let (word, payload) ← readU16BE payload
      some (some (word % 32768), payload)
    else none
  else some (none, payload)

def readTl0PicIdx (has : Bool) (payload : Bytes) : Option (Option Nat × Bytes) :=
  if has then do
    let (byte, payload) ← readU8 payload
    some (some byte.toNat, payload)
  else some (none, payload)

def readTkByte (has : Bool) (payload : Bytes) : Option Bytes :=
  if has then (readU8 payload).map Prod.snd else some payload

/-- The extensions of the descriptor, after its first byte. -/
def readExtensions (payload : Bytes) : Option (ParsedHeader × Bytes) := do
  let (x, payload) ← readU8 payload
  let (pictureId, payload) ← readPictureId (msBit x 0) payload
  let (tl0PicIdx, payload) ← readTl0PicIdx (msBit x 1) payload
  let payload ← readTkByte (msBit x 2 || msBit x 3) payload
  some ({ pictureId, tl0PicIdx }, payload)

/-- The frame header, where the first byte of the descriptor says that there is one. -/
def readPayloadHeader (has : Bool) (header : ParsedHeader) (payload : Bytes) :
    Option ParsedHeader :=
  if has then do
    let (common, payload) ← readSlice payload 3
    let (byte, _) ← readU8 common
    if msBit byte 7 then some header
    else
      let (additional, _) ← readSlice payload 7
      let resolution ← sizeFromAdditionalKeyFrameHeader additional
      some { header with isKeyFrame := true, resolution := some resolution }
  else some header

def readDescriptor (extended : Bool) (payload : Bytes) : Option (ParsedHeader × Bytes) :=
  if extended then readExtensions payload else some ({}, payload)

def read (payload : Bytes) : Option ParsedHeader := do
  let (byte0, payload) ← readU8 payload
  let (header, payload) ← readDescriptor (msBit byte0 0) payload
  readPayloadHeader (msBit byte0 3 && byte0.toNat % 8 == 0) header payload

/-- The ids are taken to be there; a payload that is too short for them panics. -/
def modifyHeader (payload : Bytes) (pictureId tl0PicIdx : Nat) : Outcome Bytes := do
  let payload ← writeAt payload 2 (bytes16 (pictureId ||| 32768))
  writeAt payload 4 [UInt8.ofNat tl0PicIdx]

/-- A payload that starts with both ids: the bits that say so, and what follows them. -/
structure HasIds (b0 x high : UInt8) : Prop where
  extended : msBit b0 0 = true
  pictureId : msBit x 0 = true
  long : msBit high 0 = true
  tl0PicIdx : msBit x 1 = true

theorem read_with_ids {b0 x high : UInt8} (ids : HasIds b0 x high) (low t : UInt8) (rest : Bytes) :
    read (b0 :: x :: high :: low :: t :: rest) =
      (readTkByte (msBit x 2 || msBit x 3) rest).bind fun payload =>
        readPayloadHeader (msBit b0 3 && b0.toNat % 8 == 0)
          { pictureId := some (word16 high low % 32768), tl0PicIdx := some t.toNat } payload := by
  have picture : readPictureId (msBit x 0) (high :: low :: t :: rest) =
      some (some (word16 high low % 32768), t :: rest) := by
    rw [ids.pictureId]
    show (if msBit high 0 = true then _ else _) = _
    rw [if_pos ids.long]
    rfl
  have index : readTl0PicIdx (msBit x 1) (t :: rest) = some (some t.toNat, rest) := by
    rw [ids.tl0PicIdx]
    rfl
  have extensions : readExtensions (x :: high :: low :: t :: rest) =
      (readTkByte (msBit x 2 || msBit x 3) rest).map fun payload =>
        ({ pictureId := some (word16 high low % 32768), tl0PicIdx := some t.toNat }, payload) := by
    show (readPictureId (msBit x 0) (high :: low :: t :: rest)).bind _ = _
    rw [picture, Option.bind_some]
    show (readTl0PicIdx (msBit x 1) (t :: rest)).bind _ = _
    rw [index, Option.bind_some]
    show (readTkByte (msBit x 2 || msBit x 3) rest).bind _ = _
    cases readTkByte (msBit x 2 || msBit x 3) rest with
    | none => rfl
    | some payload => rfl
  show (readDescriptor (msBit b0 0) (x :: high :: low :: t :: rest)).bind _ = _
  rw [ids.extended]
  show (readExtensions (x :: high :: low :: t :: rest)).bind _ = _
  rw [extensions]
  cases readTkByte (msBit x 2 || msBit x 3) rest with
  | none => rfl
  | some payload => rfl

theorem readPictureId_some {has : Bool} {payload rest : Bytes} {id : Nat}
    (done : readPictureId has payload = some (some id, rest)) :
    has = true ∧ ∃ high low, payload = high :: low :: rest ∧ msBit high 0 = true ∧
      id = word16 high low % 32768 := by
  cases has with
  | false => cases done
  | true =>
    refine ⟨rfl, ?_⟩
    cases payload with
    | nil => cases done
    | cons high payload =>
      have split : (if msBit high 0 = true then (readU16BE (high :: payload)).bind fun read =>
          some (some (read.1 % 32768), read.2) else none) = some (some id, rest) := done
      split at split
      · rename_i long
        cases payload with
        | nil => cases split
        | cons low payload =>
          obtain ⟨value, rfl⟩ := Prod.mk.inj (Option.some.inj split)
          exact ⟨high, low, rfl, long, (Option.some.inj value).symm⟩
      · cases split

theorem readTl0PicIdx_some {has : Bool} {payload rest : Bytes} {idx : Nat}
    (done : readTl0PicIdx has payload = some (some idx, rest)) :
    has = true ∧ ∃ byte, payload = byte :: rest ∧ idx = byte.toNat := by
  cases has with
  | false => cases done
  | true =>
    cases payload with
    | nil => cases done
    | cons byte payload =>
      obtain ⟨value, rfl⟩ := Prod.mk.inj (Option.some.inj done)
      exact ⟨rfl, byte, rfl, (Option.some.inj value).symm⟩

theorem readPayloadHeader_ids {has : Bool} {header read : ParsedHeader} {payload : Bytes}
    (done : readPayloadHeader has header payload = some read) :
    read.pictureId = header.pictureId ∧ read.tl0PicIdx = header.tl0PicIdx := by
  cases has with
  | false =>
    obtain rfl := Option.some.inj done
    exact ⟨rfl, rfl⟩
  | true =>
    obtain ⟨⟨common, payload⟩, _, done⟩ := Option.bind_eq_some_iff.mp done
    obtain ⟨⟨byte, _⟩, _, done⟩ := Option.bind_eq_some_iff.mp done
    simp only at done
    split at done
    · obtain rfl := Option.some.inj done
      exact ⟨rfl, rfl⟩
    · obtain ⟨⟨additional, _⟩, _, done⟩ := Option.bind_eq_some_iff.mp done
      obtain ⟨resolution, _, done⟩ := Option.bind_eq_some_iff.mp done
      obtain rfl := Option.some.inj done
      exact ⟨rfl, rfl⟩

/-- What the frame header says does not depend on the ids. -/
theorem readPayloadHeader_other (has : Bool) (header : ParsedHeader) (id idx : Option Nat)
    (payload : Bytes) :
    readPayloadHeader has { header with pictureId := id, tl0PicIdx := idx } payload =
      (readPayloadHeader has header payload).map fun read =>
        { read with pictureId := id, tl0PicIdx := idx } := by
  cases has with
  | false => rfl
  | true =>
    unfold readPayloadHeader
    rw [if_pos rfl, if_pos rfl]
    cases readSlice payload 3 with
    | none => rfl
    | some common =>
      cases shape : readU8 common.1 with
      | none => simp [shape]
      | some byte =>
        by_cases inter : msBit byte.1 7 = true
        · simp [shape, inter]
        · simp only [shape, Option.bind_eq_bind, Option.bind_some, inter, if_false,
            Bool.false_eq_true]
          cases readSlice common.2 7 with
          | none => rfl
          | some additional =>
            simp only [Option.bind_some]
            cases sizeFromAdditionalKeyFrameHeader additional.1 with
            | none => rfl
            | some size => rfl

/-- A payload that was read with both ids starts with them. -/
theorem read_ids {payload : Bytes} {header : ParsedHeader} (parsed : read payload = some header)
    {pictureId tl0PicIdx : Nat} (id : header.pictureId = some pictureId)
    (idx : header.tl0PicIdx = some tl0PicIdx) :
    ∃ b0 x high low t rest, payload = b0 :: x :: high :: low :: t :: rest ∧ HasIds b0 x high ∧
      pictureId = word16 high low % 32768 ∧ tl0PicIdx = t.toNat := by
  cases payload with
  | nil => cases parsed
  | cons b0 payload =>
    have steps : (readDescriptor (msBit b0 0) payload).bind (fun read =>
        readPayloadHeader (msBit b0 3 && b0.toNat % 8 == 0) read.1 read.2) = some header := parsed
    obtain ⟨⟨first, left⟩, begun, ended⟩ := Option.bind_eq_some_iff.mp steps
    obtain ⟨samePicture, sameIndex⟩ := readPayloadHeader_ids ended
    simp only at samePicture sameIndex
    rw [samePicture] at id
    rw [sameIndex] at idx
    unfold readDescriptor at begun
    split at begun
    · rename_i extended
      cases payload with
      | nil => cases begun
      | cons x payload =>
        obtain ⟨⟨picture, afterPicture⟩, readPicture, begun⟩ := Option.bind_eq_some_iff.mp begun
        obtain ⟨⟨index, afterIndex⟩, readIndex, begun⟩ := Option.bind_eq_some_iff.mp begun
        obtain ⟨afterTk, _, begun⟩ := Option.bind_eq_some_iff.mp begun
        obtain ⟨rfl, rfl⟩ := Prod.mk.inj (Option.some.inj begun)
        simp only at id idx readIndex
        rw [id] at readPicture
        rw [idx] at readIndex
        obtain ⟨hasPicture, high, low, rfl, long, value⟩ := readPictureId_some readPicture
        obtain ⟨hasIndex, t, shape, same⟩ := readTl0PicIdx_some readIndex
        refine ⟨b0, x, high, low, t, afterIndex, ?_, ⟨extended, hasPicture, long, hasIndex⟩,
          value, same⟩
        rw [shape]
    · obtain ⟨rfl, rfl⟩ := Prod.mk.inj (Option.some.inj begun)
      cases id

theorem marked_high (v : Nat) : (UInt8.ofNat ((v ||| 32768) / 256)).toNat.testBit 7 = true := by
  have own : Nat.testBit 32768 15 = true := by decide
  have byte : (UInt8.ofNat ((v ||| 32768) / 256)).toNat = (v ||| 32768) / 256 % 2 ^ 8 :=
    UInt8.toNat_ofNat'
  have cycle : (256 : Nat) = 2 ^ 8 := by decide
  rw [byte, Nat.testBit_mod_two_pow, cycle, Nat.testBit_div_two_pow, Nat.testBit_or, own,
    Bool.or_true]
  decide

theorem marked_low (v : Nat) : (v ||| 32768) % 32768 = v % 32768 := by
  have half : (32768 : Nat) = 2 ^ 15 := by decide
  rw [half, Nat.or_mod_two_pow, Nat.mod_self, Nat.or_zero]

theorem modifyHeader_eq (b0 x high low t : UInt8) (rest : Bytes) (pictureId tl0PicIdx : Nat) :
    modifyHeader (b0 :: x :: high :: low :: t :: rest) pictureId tl0PicIdx =
      .ok (b0 :: x :: UInt8.ofNat ((pictureId ||| 32768) / 256) ::
        UInt8.ofNat (pictureId ||| 32768) :: UInt8.ofNat tl0PicIdx :: rest) := by
  unfold modifyHeader writeAt
  simp [bytes16]

/-- Where both ids were read, modify_header puts others in their place, and nothing else of
    what is read changes. -/
theorem read_modifyHeader {payload : Bytes} {header : ParsedHeader}
    (parsed : read payload = some header) {oldId oldIdx : Nat}
    (id : header.pictureId = some oldId) (idx : header.tl0PicIdx = some oldIdx)
    (pictureId tl0PicIdx : Nat) :
    ∃ modified, modifyHeader payload pictureId tl0PicIdx = .ok modified ∧
      read modified = some { header with
        pictureId := some (pictureId % 32768), tl0PicIdx := some (tl0PicIdx % 256) } := by
  obtain ⟨b0, x, high, low, t, rest, rfl, ids, _, _⟩ := read_ids parsed id idx
  have marked : msBit (UInt8.ofNat ((pictureId ||| 32768) / 256)) 0 = true := marked_high pictureId
  have value : word16 (UInt8.ofNat ((pictureId ||| 32768) / 256)) (UInt8.ofNat (pictureId ||| 32768)) %
      32768 = pictureId % 32768 := by
    rw [word16_bytes, Nat.mod_mod_of_dvd _ (by decide), marked_low]
  have small : (UInt8.ofNat tl0PicIdx).toNat = tl0PicIdx % 256 := UInt8.toNat_ofNat'
  refine ⟨b0 :: x :: UInt8.ofNat ((pictureId ||| 32768) / 256) :: UInt8.ofNat (pictureId ||| 32768) ::
    UInt8.ofNat tl0PicIdx :: rest, ?_, ?_⟩
  · exact modifyHeader_eq b0 x high low t rest pictureId tl0PicIdx
  · rw [read_with_ids ids] at parsed
    rw [read_with_ids ⟨ids.extended, ids.pictureId, marked, ids.tl0PicIdx⟩, value, small]
    cases left : readTkByte (msBit x 2 || msBit x 3) rest with
    | none =>
      rw [left] at parsed
      cases parsed
    | some after =>
      rw [left, Option.bind_some] at parsed
      have other := readPayloadHeader_other (msBit b0 3 && b0.toNat % 8 == 0)
        { pictureId := some (word16 high low % 32768), tl0PicIdx := some t.toNat }
        (some (pictureId % 32768)) (some (tl0PicIdx % 256)) after
      rw [parsed] at other
      exact other

/-- The bytes that modify_header writes are those that both ids were read from, and the ids of
    the machine's widths come back, the picture id without its highest bit. -/
theorem modifyHeader_ids_only {payload : Bytes} {header : ParsedHeader}
    (parsed : read payload = some header) {oldId oldIdx : Nat}
    (id : header.pictureId = some oldId) (idx : header.tl0PicIdx = some oldIdx)
    (pictureId : UInt16) (tl0PicIdx : UInt8) :
    ∃ b0 x high low t rest high' low',
      payload = b0 :: x :: high :: low :: t :: rest ∧
      oldId = word16 high low % 32768 ∧ oldIdx = t.toNat ∧
      modifyHeader payload pictureId.toNat tl0PicIdx.toNat =
        .ok (b0 :: x :: high' :: low' :: tl0PicIdx :: rest) ∧
      read (b0 :: x :: high' :: low' :: tl0PicIdx :: rest) = some { header with
        pictureId := some (pictureId.toNat % 2 ^ 15), tl0PicIdx := some tl0PicIdx.toNat } := by
  obtain ⟨modified, written, again⟩ :=
    read_modifyHeader parsed id idx pictureId.toNat tl0PicIdx.toNat
  obtain ⟨b0, x, high, low, t, rest, rfl, -, oldId_eq, oldIdx_eq⟩ := read_ids parsed id idx
  have shape := modifyHeader_eq b0 x high low t rest pictureId.toNat tl0PicIdx.toNat
  rw [UInt8.ofNat_toNat] at shape
  obtain rfl := Except.ok.inj (shape.symm.trans written)
  rw [Nat.mod_eq_of_lt tl0PicIdx.toNat_lt] at again
  exact ⟨b0, x, high, low, t, rest, _, _, rfl, oldId_eq, oldIdx_eq, shape, again⟩

/-- A key frame of 320 by 240. -/
theorem modifyHeader_ids_only_key_frame : ∃ b0 x high low t rest high' low',
    ([0x90, 0xc0, 0x80, 1, 5, 0, 0, 0, 0x9d, 1, 0x2a, 64, 1, 240, 0] : Bytes) =
      b0 :: x :: high :: low :: t :: rest ∧
    1 = word16 high low % 32768 ∧ 5 = t.toNat ∧
    modifyHeader [0x90, 0xc0, 0x80, 1, 5, 0, 0, 0, 0x9d, 1, 0x2a, 64, 1, 240, 0] 0x9234 7 =
      .ok (b0 :: x :: high' :: low' :: 7 :: rest) ∧
    read (b0 :: x :: high' :: low' :: 7 :: rest) =
      some ⟨some 0x1234, some 7, true, some ⟨320, 240⟩⟩ := by
  have parsed : read [0x90, 0xc0, 0x80, 1, 5, 0, 0, 0, 0x9d, 1, 0x2a, 64, 1, 240, 0] =
      some ⟨some 1, some 5, true, some ⟨320, 240⟩⟩ := by decide
  exact modifyHeader_ids_only parsed rfl rfl 0x9234 7

end Vp8
