import Nebula.Media.Packet

/- The number and the timestamp of a packet template over a run of next. The number wraps at
   2^16. The timestamp does not wrap at 2^32: it starts again at zero, whatever was left over. -/
namespace RtpClock
open ByteStrings RtpPacket

/-- A packet with a whole header, with its number and timestamp. -/
structure Clock (packet : Bytes) (seq ts : Nat) : Prop where
  long : RTP_HEADER_LEN ≤ packet.length
  sequence : getSequence packet = .ok seq
  timestamp : getTimestamp packet = .ok ts

/-- The template after so many calls of next, one for each number of samples. -/
def advance (packet : Bytes) : List UInt32 → Outcome Bytes
  | [] => pure packet
  | ptime :: rest => do
    let moved ← RtpPacket.next packet ptime.toNat
    advance moved rest

/-- The samples of all packets. -/
def samples (ptimes : List UInt32) : Nat := (ptimes.map UInt32.toNat).sum

/-- The modular law at every step of a run. -/
def InStep (packet : Bytes) (seq ts : Nat) (ptimes : List UInt32) : Prop :=
  ∀ k, k ≤ ptimes.length → ∃ moved, advance packet (ptimes.take k) = .ok moved ∧
    getSequence moved = .ok ((seq + k) % 2 ^ 16) ∧
    getTimestamp moved = .ok ((ts + samples (ptimes.take k)) % 2 ^ 32)

/-- No timestamp goes past the last one, except to exactly zero. -/
def Lands (ts : Nat) (ptimes : List UInt32) : Prop :=
  ∀ k ptime, ptimes[k]? = some ptime →
    (ts + samples (ptimes.take k)) % 2 ^ 32 + ptime.toNat ≤ 2 ^ 32

theorem samples_cons (ptime : UInt32) (rest : List UInt32) :
    samples (ptime :: rest) = ptime.toNat + samples rest := rfl

theorem stamp_zero {ts : Nat} (stamp : ts < 2 ^ 32) (ptimes : List UInt32) :
    (ts + samples (ptimes.take 0)) % 2 ^ 32 = ts := by
  rw [List.take_zero, show samples [] = 0 from rfl, Nat.add_zero, Nat.mod_eq_of_lt stamp]

theorem stamp_succ (ts : Nat) (ptime : UInt32) (rest : List UInt32) (k : Nat) :
    (ts + samples ((ptime :: rest).take (k + 1))) % 2 ^ 32 =
      ((ts + ptime.toNat) % 2 ^ 32 + samples (rest.take k)) % 2 ^ 32 := by
  rw [List.take_succ_cons, samples_cons]
  omega

theorem clock_bounds {packet : Bytes} {seq ts : Nat} (clock : Clock packet seq ts) :
    seq < 2 ^ 16 ∧ ts < 2 ^ 32 :=
  ⟨readU16_lt clock.sequence, readU32_lt clock.timestamp⟩

theorem clock_setSequence {packet : Bytes} {seq ts : Nat} (clock : Clock packet seq ts)
    (value : Nat) :
    ∃ out, setSequence packet value = .ok out ∧ Clock out (value % 65536) ts := by
  have long := clock.long
  simp only [RTP_HEADER_LEN] at long
  have run : writeAt packet 2 (bytes16 value) = .ok _ :=
    writeAt_ok_iff.mpr ⟨by rw [bytes16_length]; omega, rfl⟩
  refine ⟨_, run, ?_, readU16_writeAt_same run, ?_⟩
  · rw [writeAt_length run]
    exact clock.long
  · have kept := readU32_writeAt_outside (j := 4) run (by rw [bytes16_length]; omega)
    exact kept.trans clock.timestamp

theorem clock_setTimestamp {packet : Bytes} {seq ts : Nat} (clock : Clock packet seq ts)
    (value : Nat) :
    ∃ out, setTimestamp packet value = .ok out ∧ Clock out seq (value % 4294967296) := by
  have long := clock.long
  simp only [RTP_HEADER_LEN] at long
  have run : writeAt packet 4 (bytes32 value) = .ok _ :=
    writeAt_ok_iff.mpr ⟨by rw [bytes32_length]; omega, rfl⟩
  refine ⟨_, run, ?_, ?_, readU32_writeAt_same run⟩
  · rw [writeAt_length run]
    exact clock.long
  · have kept := readU16_writeAt_outside (j := 2) run (by omega)
    exact kept.trans clock.sequence

/-- One step: the number wraps, the timestamp is the sum or zero. -/
theorem clock_next {packet : Bytes} {seq ts : Nat} (clock : Clock packet seq ts) (ptime : Nat) :
    ∃ moved, RtpPacket.next packet ptime = .ok moved ∧
      Clock moved ((seq + 1) % 65536) (checkedAddU32 ts ptime) := by
  have small := (clock_bounds clock).1
  obtain ⟨advanced, numbered, between⟩ := clock_setSequence clock (succU16 seq)
  obtain ⟨moved, stamped, after⟩ := clock_setTimestamp between (checkedAddU32 ts ptime)
  rw [succU16_eq_mod small, Nat.mod_mod] at after
  have inside : checkedAddU32 ts ptime < 4294967296 := by
    unfold checkedAddU32
    split <;> omega
  rw [Nat.mod_eq_of_lt inside] at after
  refine ⟨moved, ?_, after⟩
  unfold RtpPacket.next nextSeq
  rw [clock.sequence, ok_bind, numbered, ok_bind, between.timestamp, ok_bind, stamped]

theorem checkedAddU32_eq_mod_iff {ts ptime : Nat} (stamp : ts < 2 ^ 32) (step : ptime < 2 ^ 32) :
    checkedAddU32 ts ptime = (ts + ptime) % 2 ^ 32 ↔ ts + ptime ≤ 2 ^ 32 := by
  unfold checkedAddU32
  split <;> omega

/-- Before the first packet the law is what the template says. -/
theorem inStep_start {packet : Bytes} {seq ts : Nat} (clock : Clock packet seq ts)
    (ptimes : List UInt32) :
    ∃ moved, advance packet (ptimes.take 0) = .ok moved ∧
      getSequence moved = .ok ((seq + 0) % 2 ^ 16) ∧
      getTimestamp moved = .ok ((ts + samples (ptimes.take 0)) % 2 ^ 32) := by
  obtain ⟨small, stamp⟩ := clock_bounds clock
  refine ⟨packet, rfl, ?_, ?_⟩
  · rw [Nat.add_zero, Nat.mod_eq_of_lt small]
    exact clock.sequence
  · rw [stamp_zero stamp]
    exact clock.timestamp

/-- A run that is in step with its law was so after the first packet. -/
theorem inStep_cons_iff {packet : Bytes} {seq ts : Nat} (clock : Clock packet seq ts)
    (ptime : UInt32) (rest : List UInt32) :
    InStep packet seq ts (ptime :: rest) ↔
      ts + ptime.toNat ≤ 2 ^ 32 ∧ ∃ moved, RtpPacket.next packet ptime.toNat = .ok moved ∧
        InStep moved ((seq + 1) % 2 ^ 16) ((ts + ptime.toNat) % 2 ^ 32) rest := by
  have stamp := (clock_bounds clock).2
  obtain ⟨moved, first, after⟩ := clock_next clock ptime.toNat
  have law : ∀ k, (seq + (k + 1)) % 2 ^ 16 = ((seq + 1) % 2 ^ 16 + k) % 2 ^ 16 := fun k => by omega
  have shifted : ∀ k, advance packet ((ptime :: rest).take (k + 1)) = advance moved (rest.take k) := by
    intro k
    rw [List.take_succ_cons, advance, first, ok_bind]
  constructor
  · intro kept
    refine ⟨?_, moved, first, fun k within => ?_⟩
    · obtain ⟨other, ran, _, stamped⟩ := kept 1 (by rw [List.length_cons]; omega)
      rw [shifted 0] at ran
      cases ran
      have both := after.timestamp.symm.trans stamped
      rw [stamp_succ, stamp_zero (Nat.mod_lt _ (Nat.two_pow_pos 32))] at both
      exact (checkedAddU32_eq_mod_iff stamp ptime.toNat_lt).mp (Except.ok.inj both)
    · have later := kept (k + 1) (by rw [List.length_cons]; omega)
      rwa [shifted, law, stamp_succ] at later
  · rintro ⟨_, other, again, kept⟩ k within
    cases first.symm.trans again
    cases k with
    | zero => exact inStep_start clock (ptime :: rest)
    | succ k =>
      rw [shifted, law, stamp_succ]
      exact kept k (by rw [List.length_cons] at within; omega)

theorem lands_cons_iff (ts : Nat) (ptime : UInt32) (rest : List UInt32) (stamp : ts < 2 ^ 32) :
    Lands ts (ptime :: rest) ↔
      ts + ptime.toNat ≤ 2 ^ 32 ∧ Lands ((ts + ptime.toNat) % 2 ^ 32) rest := by
  constructor
  · intro lands
    refine ⟨?_, fun k other found => ?_⟩
    · have first := lands 0 ptime rfl
      rwa [stamp_zero stamp] at first
    · have later := lands (k + 1) other found
      rwa [stamp_succ] at later
  · rintro ⟨first, later⟩ k other found
    cases k with
    | zero =>
      cases found
      rwa [stamp_zero stamp]
    | succ k =>
      rw [stamp_succ]
      exact later k other found

theorem inStep_iff_lands (ptimes : List UInt32) : ∀ {packet : Bytes} {seq ts : Nat},
    Clock packet seq ts → (InStep packet seq ts ptimes ↔ Lands ts ptimes) := by
  induction ptimes with
  | nil =>
    intro packet seq ts clock
    refine ⟨fun _ k ptime found => absurd found (by simp), fun _ k within => ?_⟩
    rw [List.length_nil, Nat.le_zero] at within
    subst within
    exact inStep_start clock []
  | cons ptime rest ih =>
    intro packet seq ts clock
    obtain ⟨_, stamp⟩ := clock_bounds clock
    obtain ⟨moved, first, after⟩ := clock_next clock ptime.toNat
    rw [inStep_cons_iff clock, lands_cons_iff ts ptime rest stamp]
    refine and_congr_right fun fits => ?_
    have wrapped := (checkedAddU32_eq_mod_iff stamp ptime.toNat_lt).mpr fits
    rw [wrapped] at after
    constructor
    · rintro ⟨other, again, kept⟩
      cases first.symm.trans again
      exact (ih after).mp kept
    · intro lands
      exact ⟨moved, first, (ih after).mpr lands⟩

/-- Number and timestamp follow their modular laws through a whole run exactly when no step
    takes the timestamp past 2^32, other than to exactly 2^32. -/
theorem clock_progression_iff (packet : Bytes) (long : RTP_HEADER_LEN ≤ packet.length)
    (ptimes : List UInt32) :
    ∃ seq ts, getSequence packet = .ok seq ∧ getTimestamp packet = .ok ts ∧
      (InStep packet seq ts ptimes ↔ Lands ts ptimes) := by
  have whole := long
  simp only [RTP_HEADER_LEN] at whole
  obtain ⟨seq, numbered, _⟩ := getSequence_ok long
  have high : readU16 packet TIMESTAMP_OFFSET = .ok _ :=
    readU16_eq_ok (by simp only [TIMESTAMP_OFFSET, SEQUENCE_OFFSET]; omega)
  have low : readU16 packet (TIMESTAMP_OFFSET + 2) = .ok _ :=
    readU16_eq_ok (by simp only [TIMESTAMP_OFFSET, SEQUENCE_OFFSET]; omega)
  have stamped : ∃ ts, getTimestamp packet = .ok ts := by
    unfold getTimestamp readU32
    rw [high, low]
    exact ⟨_, rfl⟩
  obtain ⟨ts, read⟩ := stamped
  exact ⟨seq, ts, numbered, read, inStep_iff_lands ptimes ⟨long, numbered, read⟩⟩

/-- A template with the number 65535 and the timestamp 2^32 - 160. -/
def late : Bytes := [0x80, 0, 0xff, 0xff, 0xff, 0xff, 0xff, 0x60, 0, 0, 0, 1]

/-- Two packets of 20 ms at 8 kHz land on zero, and the run goes on from there. -/
theorem late_template_lands :
    RTP_HEADER_LEN ≤ late.length ∧ ∃ seq ts, getSequence late = .ok seq ∧
      getTimestamp late = .ok ts ∧ (InStep late seq ts [160, 160] ↔ Lands ts [160, 160]) :=
  ⟨by decide, clock_progression_iff late (by decide) [160, 160]⟩

/-- A packet of 10 ms and one of 20 ms later the timestamp should be 80. -/
theorem timestamp_starts_again :
    getSequence late = .ok 65535 ∧ getTimestamp late = .ok 4294967136 ∧
      (∃ moved, advance late [80, 160] = .ok moved ∧ getTimestamp moved = .ok 0) ∧
      ¬ InStep late 65535 4294967136 [80, 160] := by
  refine ⟨by decide, by decide, ⟨_, rfl, by decide⟩, fun kept => ?_⟩
  obtain ⟨moved, ran, _, stamped⟩ := kept 2 (Nat.le_refl 2)
  cases ran
  revert stamped
  decide

end RtpClock
