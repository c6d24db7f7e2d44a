import Nebula.Codec.H264

/- Packetizing H.264: long units are cut into fragments, and the depacketizer puts back the
   units that the packetizer was given. -/
namespace H264Codec
open ByteStrings

section Model

def chunks (batch : Bytes) : List Bytes :=
  if batch = [] then [] else batch.take 1200 :: chunks (batch.drop 1200)
termination_by batch.length
decreasing_by
  rename_i some_
  have long := List.length_pos_iff.mpr some_
  simp only [List.length_drop]
  omega

/-- The fragments of the chunks from the `i`-th on. -/
def fragments (first nalType : UInt8) (i : Nat) : List Bytes → List Bytes
  | [] => []
  | chunk :: rest =>
    let second := if i = 0 then 0x80 ||| nalType else nalType
    let second := if rest = [] then 0x40 ||| nalType else second
    (first :: second :: chunk) :: fragments first nalType (i + 1) rest

def payloads (batch : Bytes) : List Bytes :=
  match batch with
  | [] => [batch]
  | start :: rest =>
    if 1205 < batch.length then
      fragments ((start &&& 0x60) ||| 28) (start &&& 0x1f) 0 (chunks rest)
    else [batch]

/-- The payloads of units, as the encoder's output is split at its start codes. -/
def encode (batches : List Bytes) : List Bytes := batches.flatMap payloads

end Model

section Chunks

theorem chunks_flatten (batch : Bytes) : (chunks batch).flatten = batch := by
  fun_induction chunks batch with
  | case1 => rfl
  | case2 batch some_ ih => rw [List.flatten_cons, ih, List.take_append_drop]

theorem chunks_short (batch : Bytes) : ∀ chunk ∈ chunks batch, chunk.length ≤ 1200 := by
  fun_induction chunks batch with
  | case1 => simp
  | case2 batch some_ ih =>
    intro chunk member
    rcases List.mem_cons.mp member with rfl | later
    · exact List.length_take_le 1200 batch
    · exact ih chunk later

theorem chunks_cons {batch : Bytes} (some_ : batch ≠ []) :
    chunks batch = batch.take 1200 :: chunks (batch.drop 1200) := by
  rw [chunks, if_neg some_]

/-- More than one chunk's bytes make a first and a last chunk that are not the same. -/
theorem chunks_ends {batch : Bytes} (long : 1200 < batch.length) :
    ∃ first middle last, chunks batch = first :: (middle ++ [last]) := by
  have some_ : batch ≠ [] := List.length_pos_iff.mp (by omega)
  have more : batch.drop 1200 ≠ [] := List.length_pos_iff.mp (by simp; omega)
  have rest : chunks (batch.drop 1200) ≠ [] := by
    rw [chunks_cons more]
    exact List.cons_ne_nil _ _
  refine ⟨batch.take 1200, (chunks (batch.drop 1200)).dropLast,
    (chunks (batch.drop 1200)).getLast rest, ?_⟩
  rw [chunks_cons some_, List.dropLast_concat_getLast rest]

theorem fragments_later (header : UInt8) (i : Nat) (middle : List Bytes) (last : Bytes) :
    fragments ((header &&& 0x60) ||| 28) (header &&& 0x1f) (i + 1) (middle ++ [last]) =
      middle.map (fragment header 0) ++ [fragment header 0x40 last] := by
  induction middle generalizing i with
  | nil => simp [fragments, fragment]
  | cons chunk rest ih => simp [fragments, fragment, ih]

theorem fragments_ends (header : UInt8) (first : Bytes) (middle : List Bytes) (last : Bytes) :
    fragments ((header &&& 0x60) ||| 28) (header &&& 0x1f) 0 (first :: (middle ++ [last])) =
      fragment header 0x80 first :: middle.map (fragment header 0) ++
        [fragment header 0x40 last] := by
  have later := fragments_later header 0 middle last
  simp [fragments, fragment, later]

theorem fragments_length (first nalType : UInt8) (i : Nat) (parts : List Bytes)
    (short : ∀ chunk ∈ parts, chunk.length ≤ 1200) :
    ∀ payload ∈ fragments first nalType i parts, payload.length ≤ 1205 := by
  induction parts generalizing i with
  | nil => simp [fragments]
  | cons chunk rest ih =>
    intro payload member
    rcases List.mem_cons.mp member with rfl | later
    · have own := short chunk List.mem_cons_self
      simp only [List.length_cons]
      omega
    · exact ih (i + 1) (fun other among => short other (.tail _ among)) payload later

end Chunks

section Items

theorem payloads_long {nal : Nal} (long : 1205 < nal.bytes.length) : payloads nal.bytes =
    fragments ((nal.header &&& 0x60) ||| 28) (nal.header &&& 0x1f) 0 (chunks nal.payload) :=
  if_pos long

theorem payloads_short {nal : Nal} (short : ¬ 1205 < nal.bytes.length) :
    payloads nal.bytes = [nal.bytes] :=
  if_neg short

/-- A unit goes out as one item, in fragments of which none is first and last if it is long. -/
theorem payloads_item (nal : Nal) : ∃ item : Item, payloads nal.bytes = item.packets ∧
    item.nals = [nal] ∧ (isParameterSet nal.header = false → item.isParameterSet = false) := by
  by_cases long : 1205 < nal.bytes.length
  · have cut : 1200 < nal.payload.length := by
      simp only [Nal.bytes, List.length_cons] at long
      omega
    obtain ⟨first, middle, last, parts⟩ := chunks_ends cut
    have whole : first ++ middle.flatten ++ last = nal.payload := by
      rw [← chunks_flatten nal.payload, parts]
      simp
    refine ⟨.fragments nal first middle last whole, ?_, rfl, fun _ => rfl⟩
    rw [payloads_long long, parts, fragments_ends]
    rfl
  · exact ⟨.single nal, payloads_short long, rfl, id⟩

theorem encode_items (nals : List Nal) : ∃ items : List Item,
    encode (nals.map Nal.bytes) = items.flatMap Item.packets ∧ items.flatMap Item.nals = nals := by
  induction nals with
  | nil => exact ⟨[], rfl, rfl⟩
  | cons nal rest ih =>
    obtain ⟨item, out, own, _⟩ := payloads_item nal
    obtain ⟨items, others, all⟩ := ih
    refine ⟨item :: items, ?_, ?_⟩
    · rw [encode, List.map_cons, List.flatMap_cons, List.flatMap_cons, out, ← others, encode]
    · rw [List.flatMap_cons, own, all]
      rfl

theorem encode_frame (before : List Nal) {last : Nal} (plain : isParameterSet last.header = false)
    (timestamp : UInt32) : ∃ frame : Frame, frame.nals = before ++ [last] ∧
      frame.last.isParameterSet = false ∧
      frame.packets timestamp = marked timestamp (encode ((before ++ [last]).map Nal.bytes)) := by
  obtain ⟨items, sent, units⟩ := encode_items before
  obtain ⟨item, out, own, kind⟩ := payloads_item last
  refine ⟨⟨items, item⟩, ?_, kind plain, ?_⟩
  · rw [Frame.nals, List.flatMap_append, units, List.flatMap_singleton, own]
  · rw [Frame.packets, List.flatMap_append, ← sent, List.flatMap_singleton, ← out, encode, encode,
      List.map_append, List.flatMap_append, List.map_singleton, List.flatMap_singleton]

end Items

section Bounds

/-- A fragment that is marked as the first and the last of its unit. -/
def isWholeFragment : Bytes → Bool
  | header :: second :: _ =>
    header &&& 0x1f = 28 ∧ 0 < second &&& 0x80 ∧ 0 < second &&& 0x40
  | _ => false

theorem not_whole {header second : UInt8} {chunk : Bytes}
    (apart : ¬ 0 < second &&& 0x80 ∨ ¬ 0 < second &&& 0x40) :
    isWholeFragment (header :: second :: chunk) = false := by
  simp only [isWholeFragment, decide_eq_false_iff_not]
  rintro ⟨_, first, last⟩
  exact apart.elim (fun no => no first) fun no => no last

theorem payloads_bounded (nal : Nal) : ∀ payload ∈ payloads nal.bytes,
    payload.length ≤ 1205 ∧ isWholeFragment payload = false := by
  intro payload member
  by_cases long : 1205 < nal.bytes.length
  · rw [payloads_long long] at member
    have short := fragments_length _ _ _ _ (chunks_short nal.payload) payload member
    refine ⟨short, ?_⟩
    have cut : 1200 < nal.payload.length := by
      simp only [Nal.bytes, List.length_cons] at long
      omega
    obtain ⟨first, middle, last, parts⟩ := chunks_ends cut
    obtain ⟨_, start, _⟩ := first_flags nal.header
    obtain ⟨inner, final⟩ := later_flags nal.header
    rw [parts, fragments_ends] at member
    simp only [List.cons_append, List.mem_cons, List.mem_append, List.mem_map, List.not_mem_nil,
      or_false] at member
    rcases member with rfl | ⟨chunk, _, rfl⟩ | rfl
    · exact not_whole (Or.inr start)
    · exact not_whole (Or.inl inner)
    · exact not_whole (Or.inl final)
  · rw [payloads_short long, List.mem_singleton] at member
    subst member
    refine ⟨by omega, ?_⟩
    have whole := (single_type nal).1
    rw [Nal.bytes]
    cases nal.payload with
    | nil => rfl
    | cons second rest => simp [isWholeFragment, whole]

theorem payloads_several {nal : Nal} (long : 1205 < nal.bytes.length) :
    1 < (payloads nal.bytes).length := by
  have cut : 1200 < nal.payload.length := by
    simp only [Nal.bytes, List.length_cons] at long
    omega
  obtain ⟨first, middle, last, parts⟩ := chunks_ends cut
  rw [payloads_long long, parts, fragments_ends]
  simp

end Bounds

section RoundTrip

/-- The decoder is sent the units the encoder was given; payloads fit, and no unit is cut into
    one fragment. -/
theorem encode_decode (nals : List Nal)
    (plain : ∀ last ∈ nals.getLast?, isParameterSet last.header = false)
    (decoder : H264) (empty : decoder.nalBuf = []) (timestamp : UInt32) :
    (receive decoder (marked timestamp (encode (nals.map Nal.bytes)))).2 =
        (if nals = [] then [] else [annexB nals]) ∧
      (∀ payload ∈ encode (nals.map Nal.bytes),
        payload.length ≤ 1205 ∧ isWholeFragment payload = false) ∧
      ∀ nal ∈ nals, 1205 < nal.bytes.length → 1 < (payloads nal.bytes).length := by
  refine ⟨?_, ?_, fun nal _ => payloads_several⟩
  · rcases List.eq_nil_or_concat nals with rfl | ⟨before, last, shape⟩
    · rfl
    · rw [List.concat_eq_append] at shape
      subst shape
      rw [if_neg (by simp)]
      have own := plain last (by simp)
      obtain ⟨frame, units, kind, sent⟩ := encode_frame before own timestamp
      rw [← sent, frame_closes kind decoder (Or.inl empty), units, empty]
      rfl
  · intro payload member
    simp only [encode, List.flatMap_map, List.mem_flatMap] at member
    obtain ⟨nal, _, among⟩ := member
    exact payloads_bounded nal payload among

theorem two_units_decoded :
    (receive H264.new (marked 7 (encode ([slice 1, slice 2].map Nal.bytes)))).2 =
      [[0, 0, 0, 1, 0x65, 1, 0, 0, 0, 1, 0x65, 2]] :=
  (encode_decode [slice 1, slice 2] (by decide) H264.new rfl 7).1

end RoundTrip

end H264Codec
