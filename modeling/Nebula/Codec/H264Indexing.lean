import Nebula.Codec.H264

/- The depacketizer with its indices into the packet, each of them checked: it takes every packet
   as H264Codec.decode does, and the only index that ever fails is that of a fragment's second
   byte. -/
namespace H264Indexing
open ByteStrings H264Codec

section Model

/-- `&pkt[i..j]` -/
def sliceAt (pkt : Bytes) (i j : Nat) : Outcome Bytes :=
  if i ≤ j ∧ j ≤ pkt.length then .ok ((pkt.take j).drop i) else .error .panic

def fuA (nalBuf pkt : Bytes) (naluIdc : UInt8) (marker : Bool) : Bytes × Outcome Unit :=
  match byteAt pkt 1 with
  | .error fault => (nalBuf, .error fault)
  | .ok second =>
    let start := second &&& 0x80
    let ends := if marker then 1 else second &&& 0x40
    let naluType := second &&& 0x1f
    if 0 < start ∧ 0 < ends then
      (nalBuf, .error (.error "FU-A packet be start and end at the same time"))
    else
      let nalBuf :=
        if 0 < start then nalBuf ++ startCode ++ [naluType ||| (naluIdc <<< 5)] else nalBuf
      match sliceFrom pkt 2 with
      | .error fault => (nalBuf, .error fault)
      | .ok payload => (nalBuf ++ payload, .ok ())

/-- The loop over the units of an aggregate, with `left` bytes after the first `i`. -/
def stapA (nalBuf pkt : Bytes) (i left : Nat) : Bytes × Outcome Unit :=
  if 2 < left then
    match (sliceFrom pkt i).bind fun rest => readU16 rest 0 with
    | .error fault => (nalBuf, .error fault)
    | .ok naluSize =>
      if left - 2 < naluSize then (nalBuf, .error (.error "invalid STAP-A packet"))
      else
        match sliceAt pkt (i + 2) (i + 2 + naluSize) with
        | .error fault => (nalBuf, .error fault)
        | .ok unit =>
          stapA (nalBuf ++ startCode ++ unit) pkt (i + 2 + naluSize) (left - 2 - naluSize)
  else (nalBuf, .ok ())
termination_by left

def unpack (nalBuf pkt : Bytes) (header : UInt8) (marker : Bool) : Bytes × Outcome Unit :=
  if header &&& 0x1f = 28 then fuA nalBuf pkt ((header &&& 0x60) >>> 5) marker
  else if header &&& 0x1f = 24 then stapA nalBuf pkt 1 (pkt.length - 1)
  else (nalBuf ++ startCode ++ pkt, .ok ())

def decode (decoder : H264) (pkt : Bytes) (timestamp : UInt32) (marker : Bool) :
    H264 × Outcome Bytes :=
  if pkt = [] then (decoder, .error (.error "pkt is empty"))
  else
    let decoder :=
      if decoder.nalBuf = [] then { decoder with timestamp := some timestamp } else decoder
    if decoder.timestamp ≠ some timestamp then
      (decoder, .error (.error "timestamp not the same, packet loss happened"))
    else
      match byteAt pkt 0 with
      | .error fault => (decoder, .error fault)
      | .ok header =>
        let marker := if isParameterSet header && marker then false else marker
        let unpacked := unpack decoder.nalBuf pkt header marker
        match unpacked.2 with
        | .error fault => ({ decoder with nalBuf := unpacked.1 }, .error fault)
        | .ok _ =>
          if !marker then
            ({ decoder with nalBuf := unpacked.1 },
              .error (.error "video payload not finished yet"))
          else ({ decoder with nalBuf := [] }, .ok unpacked.1)

/-- The decoder after packets: it goes on after an error, and ends with a panic. -/
def run (decoder : H264) : List Packet → Outcome H264
  | [] => .ok decoder
  | sent :: rest =>
    match decode decoder sent.pkt sent.timestamp sent.marker with
    | (_, .error .panic) => .error .panic
    | (next, .error (.error _)) => run next rest
    | (next, .ok _) => run next rest

end Model

section Lists

theorem fuA_eq (nalBuf rest : Bytes) (header naluIdc : UInt8) (marker : Bool) :
    fuA nalBuf (header :: rest) naluIdc marker = H264Codec.fuA nalBuf naluIdc rest marker := by
  cases rest with
  | nil => rfl
  | cons second payload =>
    have slice : sliceFrom (header :: second :: payload) 2 = .ok payload := by
      simp [sliceFrom]
    simp only [fuA, H264Codec.fuA, byteAt, List.getElem?_cons_succ, List.getElem?_cons_zero, slice]

theorem sliceAt_eq {pkt : Bytes} {i size : Nat} (inside : i + size ≤ pkt.length) :
    sliceAt pkt i (i + size) = .ok ((pkt.drop i).take size) := by
  rw [sliceAt, if_pos ⟨Nat.le_add_right i size, inside⟩, List.drop_take, Nat.add_sub_cancel_left]

theorem size_at {pkt : Bytes} {i : Nat} {high low : UInt8} {rest : Bytes}
    (shape : pkt.drop i = high :: low :: rest) (inside : i ≤ pkt.length) :
    ((sliceFrom pkt i).bind fun rest => readU16 rest 0) = .ok (word16 high low) := by
  rw [sliceFrom, if_pos inside, shape]
  rfl

/-- The loop with its indices takes what is left of the packet as a list. -/
theorem stapA_eq (nalBuf pkt : Bytes) (i left : Nat) (whole : i + left = pkt.length) :
    stapA nalBuf pkt i left = H264Codec.stapA nalBuf (pkt.drop i) := by
  induction left using Nat.strongRecOn generalizing nalBuf i with
  | ind left ih =>
    have long : (pkt.drop i).length = left := by
      rw [List.length_drop]
      omega
    rw [stapA]
    rcases shape : pkt.drop i with _ | ⟨high, _ | ⟨low, _ | ⟨third, rest⟩⟩⟩
    · rw [shape, List.length_nil] at long
      rw [if_neg (by omega), H264Codec.stapA]
      simp
    · rw [shape, List.length_singleton] at long
      rw [if_neg (by omega), H264Codec.stapA]
      simp
    · rw [shape, List.length_cons, List.length_singleton] at long
      rw [if_neg (by omega), H264Codec.stapA]
      simp
    · rw [shape] at long
      simp only [List.length_cons] at long
      have after : pkt.drop (i + 2) = third :: rest := by
        rw [← List.drop_drop, shape]
        rfl
      have size : (third :: rest).length = left - 2 := by
        rw [List.length_cons]
        omega
      rw [if_pos (by omega), size_at shape (by omega), H264Codec.stapA]
      simp only [size]
      split
      · rfl
      · rename_i fits
        rw [sliceAt_eq (by omega), after]
        simp only
        rw [ih (left - 2 - word16 high low) (by omega) _ _ (by omega), ← List.drop_drop, after]

theorem unpack_eq (nalBuf rest : Bytes) (header : UInt8) (marker : Bool) :
    unpack nalBuf (header :: rest) header marker =
      H264Codec.unpack nalBuf header rest marker := by
  unfold unpack H264Codec.unpack
  rw [fuA_eq, stapA_eq nalBuf (header :: rest) 1 _ (by simp; omega)]
  rfl

theorem decode_eq (decoder : H264) (pkt : Bytes) (timestamp : UInt32) (marker : Bool) :
    decode decoder pkt timestamp marker = H264Codec.decode decoder pkt timestamp marker := by
  cases pkt with
  | nil => rfl
  | cons header rest =>
    unfold decode H264Codec.decode
    rw [if_neg (List.cons_ne_nil _ _)]
    simp only [byteAt, List.getElem?_cons_zero, unpack_eq] <;> rfl

end Lists

section Units

/-- The units of an aggregate as they were declared, each with its size before it. -/
def declared (units : List Bytes) : Bytes := units.flatMap fun unit => bytes16 unit.length ++ unit

def appended (units : List Bytes) : Bytes := units.flatMap fun unit => startCode ++ unit

/-- What is left when the loop ends: too little for a unit, or a size that is too large. -/
inductive Ended : Bytes → Outcome Unit → Prop where
  | rest (tail : Bytes) (short : tail.length ≤ 2) : Ended tail (.ok ())
  | invalid (high low : UInt8) (more : Bytes) (some_ : more ≠ [])
      (large : more.length < word16 high low) :
      Ended (high :: low :: more) (.error (.error "invalid STAP-A packet"))

/-- The loop takes exactly the units that are declared, as far as the packet has them. -/
theorem stapA_declared (nalBuf left : Bytes) :
    ∃ units tail, left = declared units ++ tail ∧ (∀ unit ∈ units, unit.length < 65536) ∧
      (H264Codec.stapA nalBuf left).1 = nalBuf ++ appended units ∧
      Ended tail (H264Codec.stapA nalBuf left).2 := by
  fun_induction H264Codec.stapA nalBuf left with
  | case1 nalBuf high low third rest naluSize large =>
    refine ⟨[], high :: low :: third :: rest, rfl, List.forall_mem_nil _, ?_, ?_⟩
    · simp [appended]
    · exact .invalid high low _ (List.cons_ne_nil _ _) large
  | case2 nalBuf high low third rest naluSize fits ih =>
    obtain ⟨units, tail, shape, small, taken, ended⟩ := ih
    have size : ((third :: rest).take naluSize).length = word16 high low := by
      rw [List.length_take, Nat.min_eq_left (by omega)]
    refine ⟨(third :: rest).take naluSize :: units, tail, ?_, ?_, ?_, ended⟩
    · rw [declared, List.flatMap_cons, size, bytes16_word16, List.append_assoc, List.append_assoc]
      rw [declared] at shape
      rw [← shape, List.take_append_drop]
      rfl
    · exact List.forall_mem_cons.mpr ⟨size ▸ word16_lt high low, small⟩
    · rw [taken, appended, appended, List.flatMap_cons]
      simp only [List.append_assoc]
  | case3 nalBuf left short =>
    refine ⟨[], left, rfl, List.forall_mem_nil _, ?_, .rest left ?_⟩
    · simp [appended]
    · rcases left with _ | ⟨high, _ | ⟨low, _ | ⟨third, rest⟩⟩⟩
      · simp
      · simp
      · simp
      · exact absurd rfl (short high low third rest)

end Units

section Panics

/-- A fragment with nothing after its first byte. -/
def Bare (pkt : Bytes) : Prop := ∃ header, pkt = [header] ∧ header &&& 0x1f = 28

theorem fuA_panics_iff (nalBuf rest : Bytes) (naluIdc : UInt8) (marker : Bool) :
    (H264Codec.fuA nalBuf naluIdc rest marker).2 = .error .panic ↔ rest = [] := by
  cases rest with
  | nil => simp [H264Codec.fuA]
  | cons second payload =>
    unfold H264Codec.fuA
    by_cases both : 0 < second &&& 0x80 ∧ 0 < if marker then 1 else second &&& 0x40
    · simp only [if_pos both]
      simp
    · simp only [if_neg both]
      simp

theorem Ended.ne_panic {tail : Bytes} {outcome : Outcome Unit} (ended : Ended tail outcome) :
    outcome ≠ .error .panic := by
  cases ended <;> simp

theorem unpack_panics_iff (nalBuf rest : Bytes) (header : UInt8) (marker : Bool) :
    (H264Codec.unpack nalBuf header rest marker).2 = .error .panic ↔
      header &&& 0x1f = 28 ∧ rest = [] := by
  unfold H264Codec.unpack
  by_cases fragment : header &&& 0x1f = 28
  · rw [if_pos fragment, fuA_panics_iff]
    simp [fragment]
  · rw [if_neg fragment]
    split
    · obtain ⟨units, tail, -, -, -, ended⟩ := stapA_declared nalBuf rest
      simp [ended.ne_panic, fragment]
    · simp [fragment]

theorem decode_panics_iff (decoder : H264) (pkt : Bytes) (timestamp : UInt32) (marker : Bool) :
    (decode decoder pkt timestamp marker).2 = .error .panic ↔
      Bare pkt ∧ decoder.Accepts timestamp := by
  rw [decode_eq]
  cases pkt with
  | nil => simp [H264Codec.decode, Bare]
  | cons header rest =>
    have bare : Bare (header :: rest) ↔ header &&& 0x1f = 28 ∧ rest = [] := by
      simp [Bare, and_comm]
    rw [bare]
    by_cases accepts : decoder.Accepts timestamp
    · have panics := unpack_panics_iff decoder.nalBuf rest header
        (if isParameterSet header && marker then false else marker)
      simp only [H264Codec.decode, accepts.stamped, and_true, accepts, ← panics]
      generalize H264Codec.unpack decoder.nalBuf header rest
        (if isParameterSet header && marker then false else marker) = unpacked
      obtain ⟨nalBuf, outcome⟩ := unpacked
      cases outcome with
      | error fault => simp
      | ok done =>
        simp only
        split_ifs <;> simp_all
    · obtain ⟨held, other⟩ := not_or.mp accepts
      simp [H264Codec.decode, held, other, accepts]

theorem run_ok_or_panic (decoder : H264) (packets : List Packet) :
    (∃ last, run decoder packets = .ok last) ∨ run decoder packets = .error .panic := by
  fun_induction run decoder packets with
  | case1 decoder => exact Or.inl ⟨decoder, rfl⟩
  | case2 => exact Or.inr rfl
  | case3 decoder sent rest next text step ih => exact ih
  | case4 decoder sent rest next bytes step ih => exact ih

/-- A packet that a run ends with: a bare fragment that its state does not refuse. -/
def Fatal (decoder : H264) (packets : List Packet) : Prop :=
  ∃ before sent after state, packets = before ++ sent :: after ∧
    run decoder before = .ok state ∧ Bare sent.pkt ∧ state.Accepts sent.timestamp

theorem run_cons (decoder : H264) (sent : Packet) (rest : List Packet) :
    run decoder (sent :: rest) =
      if (decode decoder sent.pkt sent.timestamp sent.marker).2 = .error .panic then .error .panic
      else run (decode decoder sent.pkt sent.timestamp sent.marker).1 rest := by
  rw [run]
  obtain ⟨next, outcome⟩ := decode decoder sent.pkt sent.timestamp sent.marker
  rcases outcome with fault | bytes
  · cases fault <;> simp
  · simp

theorem fatal_cons (decoder : H264) (sent : Packet) (rest : List Packet) :
    Fatal decoder (sent :: rest) ↔
      (Bare sent.pkt ∧ decoder.Accepts sent.timestamp) ∨
        (¬ (Bare sent.pkt ∧ decoder.Accepts sent.timestamp) ∧
          Fatal (decode decoder sent.pkt sent.timestamp sent.marker).1 rest) := by
  have panics := decode_panics_iff decoder sent.pkt sent.timestamp sent.marker
  constructor
  · rintro ⟨before, other, after, state, shape, ran, bare, accepts⟩
    cases before with
    | nil =>
      obtain ⟨rfl, rfl⟩ := List.cons.inj shape
      obtain rfl := Except.ok.inj ran
      exact Or.inl ⟨bare, accepts⟩
    | cons first before =>
      obtain ⟨rfl, rfl⟩ := List.cons.inj shape
      rw [run_cons] at ran
      split_ifs at ran with stopped
      exact Or.inr ⟨fun both => stopped (panics.mpr both), before, other, after, state, rfl, ran,
        bare, accepts⟩
  · rintro (⟨bare, accepts⟩ | ⟨passed, before, other, after, state, rfl, ran, bare, accepts⟩)
    · exact ⟨[], sent, rest, decoder, rfl, rfl, bare, accepts⟩
    · refine ⟨sent :: before, other, after, state, rfl, ?_, bare, accepts⟩
      rw [run_cons, if_neg fun stopped => passed (panics.mp stopped), ran]

theorem run_panics_iff (decoder : H264) (packets : List Packet) :
    run decoder packets = .error .panic ↔ Fatal decoder packets := by
  induction packets generalizing decoder with
  | nil =>
    constructor
    · intro stopped
      cases stopped
    · rintro ⟨before, sent, after, state, shape, -⟩
      exact absurd shape.symm (List.append_ne_nil_of_right_ne_nil _ (List.cons_ne_nil _ _))
  | cons sent rest ih =>
    have panics := decode_panics_iff decoder sent.pkt sent.timestamp sent.marker
    rw [run_cons, fatal_cons, ← panics, ← ih]
    split_ifs with stopped
    · simp [stopped]
    · simp [stopped]

/-- Every packet of a run is decoded or refused where no bare fragment comes that the state at its
    time takes, and in no other run; an aggregate's loop takes exactly the declared units. -/
theorem run_ok_iff (decoder : H264) :
    (∀ packets, (∃ last, run decoder packets = .ok last) ↔
      ∀ before sent after state, packets = before ++ sent :: after →
        run decoder before = .ok state → Bare sent.pkt → ¬ state.Accepts sent.timestamp) ∧
      ∀ (nalBuf : Bytes) (header : UInt8) (left : Bytes), ∃ units tail,
        left = declared units ++ tail ∧ (∀ unit ∈ units, unit.length < 65536) ∧
        (stapA nalBuf (header :: left) 1 ((header :: left).length - 1)).1 =
          nalBuf ++ appended units ∧
        Ended tail (stapA nalBuf (header :: left) 1 ((header :: left).length - 1)).2 := by
  constructor
  · intro packets
    have fatal := run_panics_iff decoder packets
    constructor
    · rintro ⟨last, ran⟩ before sent after state shape reached bare accepts
      have stopped := fatal.mpr ⟨before, sent, after, state, shape, reached, bare, accepts⟩
      rw [ran] at stopped
      cases stopped
    · intro never
      rcases run_ok_or_panic decoder packets with ran | stopped
      · exact ran
      · obtain ⟨before, sent, after, state, shape, reached, bare, accepts⟩ := fatal.mp stopped
        exact absurd accepts (never before sent after state shape reached bare)
  · intro nalBuf header left
    rw [stapA_eq nalBuf (header :: left) 1 _ (by simp; omega)]
    exact stapA_declared nalBuf left

/-- A new decoder that gets a bare fragment. -/
theorem bare_fragment_panics : ¬ ∃ last, run H264.new [⟨[0x7c], 0, true⟩] = .ok last := by
  have stopped : run H264.new [⟨[0x7c], 0, true⟩] = .error .panic := by decide
  rw [stopped]
  rintro ⟨last, ran⟩
  cases ran

end Panics

end H264Indexing
