import Nebula.Lib.ByteStrings
import Nebula.Lib.Repeats

/- The datagrams of a T.38 fax: the handler sends each message with those before it, the stream
   hands on what comes in. -/
namespace Udptl
open ByteStrings

section Model

def DEFAULT_FEC_ENTRIES : Int := 3

/-- What a sender knows of a fax; its numbers are 32 bits wide. -/
structure FaxInfo where
  tx_buf : Int → Option Bytes
  tx_seq : Int
  outbound_sender : Bool

def FaxInfo.new : FaxInfo := ⟨fun _ => none, 0, false⟩

/-- What the stream knows of it. -/
structure Fax where
  rx_seq : Nat
  t38 : Bool

def Fax.new : Fax := ⟨0, false⟩

def init_t38 (info : FaxInfo) (fax : Fax) : FaxInfo × Fax :=
  if fax.t38 then (info, fax) else ({ info with outbound_sender := true }, { fax with t38 := true })

def encode_length (length : Int) : Option Bytes :=
  if length < 0x80 then some [UInt8.ofNat (length % 256).toNat]
  else if length < 0x4000 then
    some [UInt8.ofNat ((0x8000 ||| length.toNat) >>> 8), UInt8.ofNat (length.toNat &&& 0xFF)]
  else none

def encode_open_type (msg : Bytes) : Option Bytes :=
  (encode_length msg.length).map (· ++ msg)

/-- The messages before, the last one first. -/
def secondaries (info : FaxInfo) (entry : Int) : List Nat → Option Bytes
  | [] => some []
  | m :: rest =>
    match info.tx_buf ((entry - m - 1) % 16) with
    | some buf => do
      let own ← encode_open_type buf
      let others ← secondaries info entry rest
      some (own ++ others)
    | none => secondaries info entry rest

/-- A message that has no encoding is a panic. -/
def t38_tx_packet_handler (info : FaxInfo) (msg : Bytes) (count : Nat) :
    Option (FaxInfo × List Bytes) :=
  let seq := info.tx_seq % 65536
  let entry := seq % 16
  let info := { info with tx_buf := Function.update info.tx_buf entry (some msg) }
  let entries := if info.tx_seq < DEFAULT_FEC_ENTRIES then info.tx_seq else DEFAULT_FEC_ENTRIES
  do
    let primary ← encode_open_type msg
    let length ← encode_length entries
    let others ← secondaries info entry (List.range entries.toNat)
    let data := bytes16 seq.toNat ++ primary ++ [0] ++ length ++ others
    some ({ info with tx_seq := (info.tx_seq + 1).bmod (2 ^ 32) },
      if info.outbound_sender then List.replicate count data else [])

def send (info : FaxInfo) : List (Bytes × Nat) → Option (FaxInfo × List Bytes)
  | [] => some (info, [])
  | (msg, count) :: rest => do
    let (info, first) ← t38_tx_packet_handler info msg count
    let (info, others) ← send info rest
    some (info, first ++ others)

def decode_length (buf : Bytes) (ptr : Nat) : Outcome (Option (Nat × Nat)) := do
  let first ← byteAt buf ptr
  if first &&& 0x80 = 0 then pure (some (first.toNat, ptr + 1))
  else if first &&& 0x40 = 0 then do
    let second ← byteAt buf (ptr + 1)
    pure (some ((first &&& 0x3F).toNat <<< 8 ||| second.toNat, ptr + 2))
  else pure none

def decode_open_type (buf : Bytes) (ptr : Nat) : Outcome (Option (Bytes × Nat)) := do
  match ← decode_length buf ptr with
  | none => pure none
  | some (length, ptr) =>
    if ptr + length ≤ buf.length then pure (some ((buf.drop ptr).take length, ptr + length))
    else .error .panic

/-- The fax after a datagram, and the message that the T.38 core gets with its number. -/
def process_udptl (fax : Fax) (buf : Bytes) : Outcome (Fax × Option (Nat × Bytes)) :=
  if buf.length < 2 then pure (fax, none)
  else do
    let seq ← readU16 buf 0
    if fax.t38 then do
      match ← decode_open_type buf 2 with
      | some (msg, _) =>
        pure ({ fax with rx_seq := (seq + 1) % 65536 },
          if fax.rx_seq ≤ seq then some (seq, msg) else none)
      | none => pure (fax, none)
    else pure (fax, none)

def is_valid (buf : Bytes) : Bool := buf.head?.any fun first => decide (0 < first &&& 0x80)

/-- What looks like RTP is not for the fax; after a panic the fax is as before. -/
def process_inbound_recording (fax : Fax) (packet : Bytes) : Fax × Option (Nat × Bytes) :=
  if fax.t38 && !is_valid packet then
    match process_udptl fax packet with
    | .ok result => result
    | .error _ => (fax, none)
  else (fax, none)

def receive (fax : Fax) : List Bytes → List (Nat × Bytes)
  | [] => []
  | packet :: rest =>
    (process_inbound_recording fax packet).2.toList ++
      receive (process_inbound_recording fax packet).1 rest

end Model

section Format

/-- What a datagram says. -/
structure Datagram where
  seq : Nat
  primary : Bytes
  secondary : List Bytes

def decode_open_types (buf : Bytes) (ptr : Nat) : Nat → Outcome (Option (List Bytes))
  | 0 => pure (if ptr = buf.length then some [] else none)
  | count + 1 => do
    match ← decode_open_type buf ptr with
    | none => pure none
    | some (msg, ptr) => do
      let rest ← decode_open_types buf ptr count
      pure (rest.map (msg :: ·))

/-- A datagram as a receiver reads it that goes on after the first message. -/
def readDatagram (buf : Bytes) : Outcome (Option Datagram) := do
  let seq ← readU16 buf 0
  match ← decode_open_type buf 2 with
  | none => pure none
  | some (primary, ptr) => do
    let recovery ← byteAt buf ptr
    match ← decode_length buf (ptr + 1) with
    | none => pure none
    | some (count, ptr) => do
      let secondary ← decode_open_types buf ptr count
      pure (if recovery = 0 then secondary.map (⟨seq, primary, ·⟩) else none)

/-- The datagrams for messages that come after others, of which the last is the first. -/
def datagrams (before : List Bytes) : List (Bytes × Nat) → List Datagram
  | [] => []
  | (msg, count) :: rest =>
    List.replicate count ⟨before.length % 65536, msg, before.take 3⟩ ++
      datagrams (msg :: before) rest

def reads (packets : List Bytes) : List Datagram :=
  packets.filterMap fun packet => (readDatagram packet).toOption.join

def Datagram.handed (datagram : Datagram) : Nat × Bytes := (datagram.seq, datagram.primary)

end Format

section Lengths

theorem short_byte : ∀ n < 0x80, UInt8.ofNat n &&& 0x80 = 0 := by decide +kernel

theorem long_byte : ∀ q < 0x40, UInt8.ofNat (0x80 + q) &&& 0x80 ≠ 0 ∧
    UInt8.ofNat (0x80 + q) &&& 0x40 = 0 ∧ (UInt8.ofNat (0x80 + q) &&& 0x3F).toNat = q := by
  decide +kernel

theorem high_byte {n : Nat} (small : n < 0x4000) : (0x8000 ||| n) >>> 8 = 0x80 + n / 256 := by
  have sum := Nat.two_pow_add_eq_or_of_lt (i := 15) (b := n) (by omega) 1
  rw [show 0x8000 ||| n = 2 ^ 15 * 1 ||| n from rfl, ← sum, Nat.shiftRight_eq_div_pow]
  omega

/-- A length that has an encoding is decoded where it stands. -/
theorem decode_encode {n : Nat} {code : Bytes} (encoded : encode_length n = some code)
    (pre post : Bytes) : decode_length (pre ++ code ++ post) pre.length =
      .ok (some (n, pre.length + code.length)) := by
  unfold encode_length at encoded
  split at encoded
  · rename_i short
    obtain rfl := Option.some.inj encoded
    have first : byteAt (pre ++ [UInt8.ofNat ((n : Int) % 256).toNat] ++ post) pre.length =
        .ok (UInt8.ofNat n) := by
      rw [show ((n : Int) % 256).toNat = n by omega]
      simp [byteAt]
    unfold decode_length
    rw [first, ok_bind, if_pos (short_byte n (by omega))]
    have same : (UInt8.ofNat n).toNat = n := by
      rw [UInt8.toNat_ofNat', Nat.mod_eq_of_lt (by omega)]
    rw [same]
    rfl
  · split at encoded
    · rename_i long small
      obtain rfl := Option.some.inj encoded
      have fits : n < 0x4000 := by omega
      rw [Int.toNat_natCast, high_byte fits]
      obtain ⟨top, next, quotient⟩ := long_byte (n / 256) (by omega)
      have first : byteAt (pre ++ [UInt8.ofNat (0x80 + n / 256), UInt8.ofNat (n &&& 0xFF)] ++ post)
          pre.length = .ok (UInt8.ofNat (0x80 + n / 256)) := by
        simp [byteAt]
      have second : byteAt (pre ++ [UInt8.ofNat (0x80 + n / 256), UInt8.ofNat (n &&& 0xFF)] ++ post)
          (pre.length + 1) = .ok (UInt8.ofNat (n &&& 0xFF)) := by
        simp [byteAt]
      have low : (UInt8.ofNat (n &&& 0xFF)).toNat = n % 256 := by
        rw [UInt8.toNat_ofNat', show n &&& 0xFF = n % 2 ^ 8 from Nat.and_two_pow_sub_one_eq_mod n 8]
        omega
      have whole : (n / 256) <<< 8 ||| n % 256 = n := by
        rw [← Nat.shiftLeft_add_eq_or_of_lt (by omega), Nat.shiftLeft_eq]
        omega
      unfold decode_length
      rw [first, ok_bind, if_neg top, if_pos next, second, ok_bind, quotient, low, whole]
      rfl
    · cases encoded

theorem decode_type {msg code : Bytes} (encoded : encode_open_type msg = some code)
    (pre post : Bytes) : decode_open_type (pre ++ code ++ post) pre.length =
      .ok (some (msg, pre.length + code.length)) := by
  obtain ⟨length, found, rfl⟩ := Option.map_eq_some_iff.mp encoded
  have decoded := decode_encode found pre (msg ++ post)
  have same : pre ++ (length ++ msg) ++ post = pre ++ length ++ (msg ++ post) := by
    simp only [List.append_assoc]
  have dropped : (pre ++ length ++ (msg ++ post)).drop (pre.length + length.length) =
      msg ++ post := by
    rw [← List.length_append, List.drop_left]
  unfold decode_open_type
  rw [same, decoded, ok_bind]
  simp only [dropped, List.take_left, List.length_append]
  rw [if_pos (by omega), Nat.add_assoc]
  rfl

end Lengths

section Sent
variable {info : FaxInfo} {before : List Bytes}

theorem encoded_length {n : Nat} (fits : n < 0x4000) : ∃ code, encode_length n = some code := by
  unfold encode_length
  split
  · exact ⟨_, rfl⟩
  · rw [if_pos (by omega)]
    exact ⟨_, rfl⟩

theorem encoded_type {msg : Bytes} (fits : msg.length < 0x4000) :
    ∃ code, encode_open_type msg = some code := by
  obtain ⟨length, found⟩ := encoded_length fits
  exact ⟨length ++ msg, by rw [encode_open_type, found]; rfl⟩

/-- The last messages are stored, each under its number. -/
structure Stored (info : FaxInfo) (before : List Bytes) : Prop where
  count : info.tx_seq = before.length
  recent : ∀ m < 16, m < before.length →
    info.tx_buf (((before.length : Int) - m - 1) % 16) = before[m]?
  short : ∀ msg ∈ before, msg.length < 0x4000
  connected : info.outbound_sender = true

theorem stored_next (stored : Stored info before) {msg : Bytes} (fits : msg.length < 0x4000)
    (few : before.length + 1 < 2 ^ 31) :
    Stored { info with
      tx_buf := Function.update info.tx_buf (info.tx_seq % 65536 % 16) (some msg)
      tx_seq := (info.tx_seq + 1).bmod (2 ^ 32) } (msg :: before) where
  count := by
    show (info.tx_seq + 1).bmod (2 ^ 32) = _
    rw [stored.count, Int.bmod_eq_of_le (by omega) (by omega), List.length_cons]
    rfl
  recent := by
    intro m near inside
    rw [List.length_cons] at inside ⊢
    cases m with
    | zero =>
      have here : (((before.length + 1 : Nat) : Int) - (0 : Nat) - 1) % 16 =
          info.tx_seq % 65536 % 16 := by
        rw [stored.count]
        omega
      rw [here]
      exact Function.update_self _ _ _
    | succ m =>
      have there : (((before.length + 1 : Nat) : Int) - (m + 1 : Nat) - 1) % 16 =
          ((before.length : Int) - m - 1) % 16 := by omega
      have other : ((before.length : Int) - m - 1) % 16 ≠ info.tx_seq % 65536 % 16 := by
        rw [stored.count]
        omega
      rw [List.getElem?_cons_succ, ← stored.recent m (by omega) (by omega), there]
      exact Function.update_of_ne other _ _
  short := fun other listed => (List.mem_cons.mp listed).elim (fun same => same ▸ fits)
    (stored.short other)
  connected := stored.connected

/-- Messages that are stored are written one after another, and read so. -/
theorem secondaries_read {entry : Int} {message : Nat → Bytes} (ms : List Nat)
    (found : ∀ m ∈ ms, info.tx_buf ((entry - m - 1) % 16) = some (message m) ∧
      (message m).length < 0x4000) :
    ∃ others, secondaries info entry ms = some others ∧ ∀ pre : Bytes,
      decode_open_types (pre ++ others) pre.length ms.length = .ok (some (ms.map message)) := by
  induction ms with
  | nil =>
    refine ⟨[], rfl, fun pre => ?_⟩
    simp [decode_open_types]
  | cons m rest ih =>
    obtain ⟨held, fits⟩ := found m List.mem_cons_self
    obtain ⟨own, encoded⟩ := encoded_type fits
    obtain ⟨others, made, read⟩ := ih fun other listed => found other (List.mem_cons_of_mem _ listed)
    refine ⟨own ++ others, ?_, fun pre => ?_⟩
    · rw [secondaries, held]
      simp only [encoded, made]
      rfl
    · have first := decode_type encoded pre others
      have next := read (pre ++ own)
      rw [List.length_append] at next
      rw [← List.append_assoc, List.length_cons, decode_open_types, first, ok_bind]
      simp only [next, ok_bind]
      rfl

theorem read_parts {seq count : Nat} {msg primary length others : Bytes} {messages : List Bytes}
    (word : seq < 65536) (primaryMade : encode_open_type msg = some primary)
    (lengthMade : encode_length count = some length)
    (read : ∀ pre : Bytes,
      decode_open_types (pre ++ others) pre.length count = .ok (some messages)) :
    readDatagram (bytes16 seq ++ primary ++ [0] ++ length ++ others) =
      .ok (some ⟨seq, msg, messages⟩) := by
  have number := readU16_bytes16 [] (primary ++ [0] ++ length ++ others) seq
  have first := decode_type primaryMade (bytes16 seq) ([0] ++ length ++ others)
  have recovery : byteAt (bytes16 seq ++ primary ++ [0] ++ length ++ others)
      (2 + primary.length) = .ok 0 := by
    rw [byteAt, ← bytes16_length seq, ← List.length_append]
    simp
  have many := decode_encode lengthMade (bytes16 seq ++ primary ++ [0]) others
  have last := read (bytes16 seq ++ primary ++ [0] ++ length)
  simp only [List.nil_append, List.length_nil, List.length_append, List.length_singleton,
    bytes16_length, List.append_assoc, Nat.add_assoc, Nat.mod_eq_of_lt word]
    at number first recovery many last ⊢
  rw [readDatagram, number, ok_bind, first, ok_bind]
  simp only [recovery, ok_bind, Nat.add_assoc, many, last]
  rfl

theorem taken_range (before : List Bytes) :
    (List.range (min before.length 3)).map (fun m => before.getD m []) = before.take 3 :=
  match before with
  | [] | [_] | [_, _] => rfl
  | _ :: _ :: _ :: _ => by
    rw [Nat.min_eq_right (by simp)]
    rfl

/-- A datagram has its message and the three before it. -/
theorem handler_sent (stored : Stored info before) {msg : Bytes} (fits : msg.length < 0x4000)
    (few : before.length + 1 < 2 ^ 31) (count : Nat) :
    ∃ after data, t38_tx_packet_handler info msg count = some (after, List.replicate count data) ∧
      Stored after (msg :: before) ∧
      readDatagram data = .ok (some ⟨before.length % 65536, msg, before.take 3⟩) := by
  have next := stored_next stored fits few
  obtain ⟨primary, primaryMade⟩ := encoded_type fits
  obtain ⟨length, lengthMade⟩ := @encoded_length (min before.length 3) (by omega)
  have entries : (if info.tx_seq < DEFAULT_FEC_ENTRIES then info.tx_seq else DEFAULT_FEC_ENTRIES) =
      (min before.length 3 : Nat) := by
    rw [stored.count, DEFAULT_FEC_ENTRIES]
    split <;> omega
  obtain ⟨others, othersMade, read⟩ := @secondaries_read
    { info with tx_buf := Function.update info.tx_buf (info.tx_seq % 65536 % 16) (some msg) }
    (info.tx_seq % 65536 % 16) (fun m => before.getD m []) (List.range (min before.length 3)) (by
      intro m listed
      have near := List.mem_range.mp listed
      have inside : m < before.length := by omega
      have held := next.recent (m + 1) (by omega) (Nat.succ_lt_succ inside)
      rw [List.getElem?_cons_succ, List.getElem?_eq_getElem inside] at held
      have place : (info.tx_seq % 65536 % 16 - m - 1) % 16 =
          (((msg :: before).length : Int) - (m + 1 : Nat) - 1) % 16 := by
        rw [stored.count, List.length_cons]
        omega
      rw [List.getD_eq_getElem _ _ inside, place]
      exact ⟨held, stored.short _ (List.getElem_mem inside)⟩)
  refine ⟨_, bytes16 (before.length % 65536) ++ primary ++ [0] ++ length ++ others, ?_, next, ?_⟩
  · have number : (info.tx_seq % 65536).toNat = before.length % 65536 := by
      rw [stored.count]
      omega
    unfold t38_tx_packet_handler
    simp only [entries, Int.toNat_natCast, primaryMade, lengthMade, othersMade, number,
      if_pos stored.connected]
    rfl
  · rw [taken_range] at read
    rw [List.length_range] at read
    exact read_parts (Nat.mod_lt _ (by decide)) primaryMade lengthMade read

/-- Every datagram of a run says what it is to say. -/
theorem send_reads (messages : List (Bytes × Nat)) : ∀ {info : FaxInfo} {before : List Bytes},
    Stored info before → (∀ message ∈ messages, message.1.length < 0x4000) →
      before.length + messages.length < 2 ^ 31 →
      ∃ after packets, send info messages = some (after, packets) ∧
        packets.map readDatagram =
          (datagrams before messages).map fun datagram => .ok (some datagram) := by
  induction messages with
  | nil => exact fun _ _ _ => ⟨_, _, rfl, rfl⟩
  | cons message rest ih =>
    intro info before stored short few
    obtain ⟨msg, count⟩ := message
    rw [List.length_cons] at few
    obtain ⟨middle, data, handled, next, read⟩ :=
      handler_sent stored (short _ List.mem_cons_self) (by omega) count
    obtain ⟨after, packets, sent, all⟩ := ih next
      (fun other listed => short other (List.mem_cons_of_mem _ listed))
      (by rw [List.length_cons]; omega)
    refine ⟨after, List.replicate count data ++ packets, ?_, ?_⟩
    · rw [send, handled]
      show (send middle rest >>= _) = _
      rw [sent]
      rfl
    · rw [List.map_append, List.map_replicate, read, all, datagrams, List.map_append,
        List.map_replicate]

end Sent

section Received

theorem valid_byte : ∀ first : UInt8, decide (0 < first &&& 0x80) = decide (0x80 ≤ first.toNat) :=
  forall_byte (by decide +kernel)

theorem readDatagram_ok {packet : Bytes} {datagram : Datagram}
    (read : readDatagram packet = .ok (some datagram)) :
    readU16 packet 0 = .ok datagram.seq ∧
      ∃ ptr, decode_open_type packet 2 = .ok (some (datagram.primary, ptr)) := by
  obtain ⟨seq, number, read⟩ := bind_ok_inv read
  obtain ⟨found, first, read⟩ := bind_ok_inv read
  cases found with
  | none => cases read
  | some found =>
    obtain ⟨recovery, _, read⟩ := bind_ok_inv read
    obtain ⟨many, _, read⟩ := bind_ok_inv read
    cases many with
    | none => cases read
    | some many =>
      obtain ⟨secondary, _, read⟩ := bind_ok_inv read
      have read := Except.ok.inj read
      split at read
      · obtain ⟨_, _, rfl⟩ := Option.map_eq_some_iff.mp read
        exact ⟨number, found.2, first⟩
      · cases read

/-- What the stream does with a datagram: from the middle of the numbers on, it takes it for RTP. -/
theorem inbound_datagram {packet : Bytes} {datagram : Datagram} (rx_seq : Nat)
    (read : readDatagram packet = .ok (some datagram)) :
    process_inbound_recording ⟨rx_seq, true⟩ packet =
      if datagram.seq < 0x8000 then
        (⟨datagram.seq + 1, true⟩, if rx_seq ≤ datagram.seq then some datagram.handed else none)
      else (⟨rx_seq, true⟩, none) := by
  obtain ⟨number, ptr, first⟩ := readDatagram_ok read
  match packet, number with
  | [], number => cases number
  | [_], number => cases number
  | high :: low :: rest, number =>
    have value : datagram.seq = word16 high low := (Except.ok.inj number).symm
    have less := low.toNat_lt
    have valid : is_valid (high :: low :: rest) = decide (0x80 ≤ high.toNat) := valid_byte high
    unfold process_inbound_recording
    rw [valid]
    by_cases rtp : 0x80 ≤ high.toNat
    · have big : ¬ datagram.seq < 0x8000 := by
        rw [value, word16]
        omega
      simp [rtp, big]
    · have small : datagram.seq < 0x8000 := by
        rw [value, word16]
        omega
      have same : (datagram.seq + 1) % 65536 = datagram.seq + 1 := by omega
      have long : ¬ (high :: low :: rest).length < 2 := by simp
      unfold process_udptl
      rw [if_neg long, number]
      simp only [ok_bind, if_true, first, same, decide_eq_false rtp, if_pos small]
      rfl

/-- What the stream hands on of datagrams, whatever their order. -/
def handed (rx_seq : Nat) : List Datagram → List (Nat × Bytes)
  | [] => []
  | datagram :: rest =>
    if datagram.seq < 0x8000 then
      (if rx_seq ≤ datagram.seq then [datagram.handed] else []) ++ handed (datagram.seq + 1) rest
    else handed rx_seq rest

theorem receive_handed (packets : List Bytes) : ∀ {rx_seq : Nat} {arrived : List Datagram},
    packets.map readDatagram = arrived.map (fun datagram => .ok (some datagram)) →
      receive ⟨rx_seq, true⟩ packets = handed rx_seq arrived := by
  induction packets with
  | nil =>
    intro rx_seq arrived read
    obtain rfl := List.map_eq_nil_iff.mp read.symm
    rfl
  | cons packet rest ih =>
    intro rx_seq arrived read
    cases arrived with
    | nil => cases read
    | cons datagram others =>
      obtain ⟨own, later⟩ := List.cons.inj read
      rw [receive, inbound_datagram rx_seq own, handed]
      by_cases small : datagram.seq < 0x8000
      · rw [if_pos small, if_pos small]
        simp only
        rw [ih later]
        split <;> rfl
      · rw [if_neg small, if_neg small]
        exact ih later

theorem handed_sent (arrived : List Datagram) : ∀ {rx_seq : Nat} {given : Nat × Bytes},
    given ∈ handed rx_seq arrived →
      ∃ datagram ∈ arrived, given = datagram.handed ∧ datagram.seq < 0x8000 := by
  induction arrived with
  | nil => nofun
  | cons datagram rest ih =>
    intro rx_seq given among
    rw [handed] at among
    split at among
    · rename_i small
      rcases List.mem_append.mp among with own | later
      · split at own
        · exact ⟨datagram, List.mem_cons_self, List.mem_singleton.mp own, small⟩
        · cases own
      · obtain ⟨other, listed, found⟩ := ih later
        exact ⟨other, List.mem_cons_of_mem _ listed, found⟩
    · obtain ⟨other, listed, found⟩ := ih among
      exact ⟨other, List.mem_cons_of_mem _ listed, found⟩

/-- In order, each is handed on once. -/
theorem handed_in_order (arrived : List Datagram) : ∀ {last : Option Nat},
    (∀ datagram ∈ arrived, datagram.seq < 0x8000 ∧ ∀ before, last = some before → before ≤ datagram.seq) →
      arrived.Pairwise (fun early late => early.seq ≤ late.seq) →
      handed (last.elim 0 (· + 1)) arrived =
        (Repeats.firsts Datagram.seq last arrived).map Datagram.handed := by
  induction arrived with
  | nil => exact fun _ _ => rfl
  | cons datagram rest ih =>
    intro last within order
    obtain ⟨small, above⟩ := within datagram List.mem_cons_self
    obtain ⟨first, others⟩ := List.pairwise_cons.mp order
    have next := @ih (some datagram.seq) (fun other listed =>
      ⟨(within other (List.mem_cons_of_mem _ listed)).1, fun before same =>
        Option.some.inj same ▸ first other listed⟩) others
    rw [handed, if_pos small, Repeats.firsts_cons, List.map_append]
    congr 1
    cases last with
    | none => rfl
    | some before =>
      have least := above before rfl
      by_cases again : before = datagram.seq
      · rw [if_neg (by simp only [Option.elim_some]; omega), if_pos (congrArg some again)]
        rfl
      · rw [if_pos (by simp only [Option.elim_some]; omega),
          if_neg (fun same => again (Option.some.inj same))]
        rfl

end Received

section Run

/-- Up to the middle of the numbers they only grow. -/
theorem datagrams_order (messages : List (Bytes × Nat)) : ∀ {before : List Bytes},
    before.length + messages.length ≤ 0x8000 →
      (datagrams before messages).Pairwise (fun early late => early.seq ≤ late.seq) ∧
        ∀ datagram ∈ datagrams before messages,
          before.length ≤ datagram.seq ∧ datagram.seq < 0x8000 := by
  induction messages with
  | nil => exact fun _ => ⟨List.Pairwise.nil, nofun⟩
  | cons message rest ih =>
    intro before few
    obtain ⟨msg, count⟩ := message
    rw [List.length_cons] at few
    obtain ⟨order, within⟩ := @ih (msg :: before) (by rw [List.length_cons]; omega)
    have own : ∀ datagram ∈ List.replicate count (⟨before.length % 65536, msg, before.take 3⟩ : Datagram),
        datagram.seq = before.length := by
      intro datagram listed
      rw [List.eq_of_mem_replicate listed]
      exact Nat.mod_eq_of_lt (by omega)
    constructor
    · refine List.pairwise_append.mpr ⟨?_, order, ?_⟩
      · exact List.pairwise_replicate.mpr (Or.inr (Nat.le_refl _))
      · intro early first late second
        have later := (within late second).1
        rw [List.length_cons] at later
        rw [own early first]
        omega
    · intro datagram listed
      rcases List.mem_append.mp listed with first | second
      · rw [own datagram first]
        omega
      · have later := within datagram second
        rw [List.length_cons] at later
        omega

theorem reads_map {packets : List Bytes} {arrived : List Datagram}
    (read : packets.map readDatagram = arrived.map fun datagram => .ok (some datagram)) :
    reads packets = arrived := by
  have composed : reads packets =
      (packets.map readDatagram).filterMap fun read => read.toOption.join := by
    rw [List.filterMap_map]
    rfl
  rw [composed, read, List.filterMap_map]
  exact List.filterMap_some

/-- What arrives of the packets of a run reads as datagrams of it. -/
theorem arrived_read {packets arrived : List Bytes} {sent : List Datagram}
    (read : packets.map readDatagram = sent.map fun datagram => .ok (some datagram))
    (among : arrived ⊆ packets) :
    arrived.map readDatagram = (reads arrived).map fun datagram => .ok (some datagram) := by
  induction arrived with
  | nil => rfl
  | cons packet rest ih =>
    have inside := List.mem_map_of_mem (f := readDatagram) (among List.mem_cons_self)
    rw [read] at inside
    obtain ⟨datagram, _, same⟩ := List.mem_map.mp inside
    have own : reads (packet :: rest) = datagram :: reads rest := by
      rw [reads, List.filterMap_cons, ← same]
      rfl
    rw [own, List.map_cons, List.map_cons, ← same,
      ih fun other listed => among (List.mem_cons_of_mem _ listed)]

/-- What comes of messages and the packets they are sent in. -/
structure Carried (messages : List (Bytes × Nat)) (packets : List Bytes) : Prop where
  sent : packets.map readDatagram =
    (datagrams [] messages).map fun datagram => .ok (some datagram)
  handed : ∀ arrived ⊆ packets, ∀ given ∈ receive (init_t38 .new .new).2 arrived,
    ∃ datagram ∈ datagrams [] messages, given = datagram.handed ∧ datagram.seq < 0x8000
  in_order : messages.length ≤ 0x8000 → ∀ arrived : List Bytes, arrived.Sublist packets →
    receive (init_t38 .new .new).2 arrived =
      (Repeats.firsts Datagram.seq none (reads arrived)).map Datagram.handed

/-- The first message is sent three times, the last two once. -/
def page : List (Bytes × Nat) := [([6, 0], 3), ([192, 1, 128], 1), ([5], 1)]

end Run

end Udptl
