import Nebula.Lib.CyclicCounter
import Nebula.Media.AudioSender
import Nebula.Media.SrtpAuth

/- Sequence numbers over whole runs of the audio sender. The end of a digit is
   sent three times from a local packet while the template advances once, so the
   numbers stay consecutive exactly as long as nothing is sent after it. -/
namespace AudioSequence
open ByteStrings Srtp SrtpAuth AudioSender CyclicCounter

/-- A packet without CSRC list or extension, with its number and source. -/
structure Header (packet : Bytes) (seq ssrc : Nat) : Prop where
  long : 12 ≤ packet.length
  first : byteAt packet 0 = .ok 0x80
  sequence : RtpPacket.getSequence packet = .ok seq
  source : RtpPacket.getSsrc packet = .ok ssrc

theorem header_lt {packet : Bytes} {seq ssrc : Nat} (h : Header packet seq ssrc) : seq < 65536 :=
  readU16_lt h.sequence

/- The header fields other than number and source lie in bytes 1 and 4 to 7. -/
theorem header_writeAt {packet word : Bytes} {seq ssrc i : Nat} (h : Header packet seq ssrc)
    (place : 1 ≤ i ∧ i + word.length ≤ 2 ∨ 4 ≤ i ∧ i + word.length ≤ 8) :
    ∃ out, writeAt packet i word = .ok out ∧ Header out seq ssrc := by
  have long := h.long
  refine ⟨_, writeAt_ok_iff.mpr ⟨by omega, rfl⟩, ?_⟩
  have run : writeAt packet i word =
      .ok (packet.take i ++ word ++ packet.drop (i + word.length)) :=
    writeAt_ok_iff.mpr ⟨by omega, rfl⟩
  constructor
  · rw [writeAt_length run]
    exact long
  · rw [byteAt_writeAt_outside run (by omega)]
    exact h.first
  · have kept := readU16_writeAt_outside (j := 2) run (by omega)
    exact kept.trans h.sequence
  · have kept := readU32_writeAt_outside (j := 8) run (by omega)
    exact kept.trans h.source

theorem header_setSequence {packet : Bytes} {seq ssrc : Nat} (h : Header packet seq ssrc)
    (value : Nat) :
    ∃ out, RtpPacket.setSequence packet value = .ok out ∧ Header out (value % 65536) ssrc := by
  have long := h.long
  have run : writeAt packet 2 (bytes16 value) = .ok _ :=
    writeAt_ok_iff.mpr ⟨by rw [bytes16_length]; omega, rfl⟩
  refine ⟨_, run, ?_⟩
  constructor
  · rw [writeAt_length run]
    exact long
  · rw [byteAt_writeAt_outside run (by omega)]
    exact h.first
  · exact readU16_writeAt_same run
  · have kept := readU32_writeAt_outside (j := 8) run (by rw [bytes16_length]; omega)
    exact kept.trans h.source

theorem header_setTimestamp {packet : Bytes} {seq ssrc : Nat} (h : Header packet seq ssrc)
    (ts : Nat) : ∃ out, RtpPacket.setTimestamp packet ts = .ok out ∧ Header out seq ssrc :=
  header_writeAt h (Or.inr ⟨Nat.le_refl 4, Nat.le_refl 8⟩)

theorem header_setPayloadType {packet : Bytes} {seq ssrc : Nat} (h : Header packet seq ssrc)
    (pt : UInt8) : ∃ out, RtpPacket.setPayloadType packet pt = .ok out ∧ Header out seq ssrc := by
  have long := h.long
  unfold RtpPacket.setPayloadType
  rw [byteAt_eq_ok (by simp only [RtpPacket.MARKER_PT_OFFSET]; omega), ok_bind]
  exact header_writeAt h (Or.inl ⟨Nat.le_refl 1, Nat.le_refl 2⟩)

theorem header_setMarker {packet : Bytes} {seq ssrc : Nat} (h : Header packet seq ssrc)
    (m : Bool) : ∃ out, RtpPacket.setMarker packet m = .ok out ∧ Header out seq ssrc := by
  have long := h.long
  unfold RtpPacket.setMarker
  rw [byteAt_eq_ok (by simp only [RtpPacket.MARKER_PT_OFFSET]; omega), ok_bind]
  exact header_writeAt h (Or.inl ⟨Nat.le_refl 1, Nat.le_refl 2⟩)

theorem header_payloadOffset {packet : Bytes} {seq ssrc : Nat} (h : Header packet seq ssrc) :
    RtpPacket.payloadOffset packet = .ok 12 := by
  simp only [RtpPacket.payloadOffset, RtpPacket.getCsrcCount, RtpPacket.getExtensionLength,
    RtpPacket.getExtensionBit, h.first, ok_bind, pure_eq_ok]
  rfl

theorem header_setPaylod {packet : Bytes} {seq ssrc : Nat} (h : Header packet seq ssrc)
    (payload : Bytes) : ∃ out, RtpPacket.setPaylod packet payload = .ok out ∧
      Header out seq ssrc := by
  have long := h.long
  have same : (packet.take 12 ++ payload).take 12 = packet.take 12 := by
    rw [List.take_append_of_le_length (by simp; omega), List.take_take, Nat.min_self]
  refine ⟨packet.take 12 ++ payload, ?_, ?_⟩
  · simp [RtpPacket.setPaylod, header_payloadOffset h]
  · constructor
    · simp
      omega
    · exact (byteAt_agree same (by omega)).trans h.first
    · exact (RtpPacket.getSequence_agree same (Nat.le_refl 12)).trans h.sequence
    · exact (RtpPacket.getSsrc_agree same (Nat.le_refl 12)).trans h.source

theorem header_nextSeq {packet : Bytes} {seq ssrc : Nat} (h : Header packet seq ssrc) :
    ∃ out, RtpPacket.nextSeq packet = .ok out ∧ Header out (succ 65536 seq) ssrc := by
  obtain ⟨out, run, header⟩ := header_setSequence h (RtpPacket.succU16 seq)
  refine ⟨out, ?_, ?_⟩
  · rw [RtpPacket.nextSeq, h.sequence, ok_bind, run]
  · rw [RtpPacket.succU16_eq_mod (header_lt h), Nat.mod_mod] at header
    exact header

theorem header_next {packet : Bytes} {seq ssrc : Nat} (h : Header packet seq ssrc) (ptime : Nat) :
    ∃ out, RtpPacket.next packet ptime = .ok out ∧ Header out (succ 65536 seq) ssrc := by
  obtain ⟨advanced, run, header⟩ := header_nextSeq h
  have long := header.long
  have stamped : ∃ ts, RtpPacket.getTimestamp advanced = .ok ts := by
    unfold RtpPacket.getTimestamp readU32
    rw [readU16_eq_ok (by simp only [RtpPacket.TIMESTAMP_OFFSET, RtpPacket.SEQUENCE_OFFSET]; omega),
      readU16_eq_ok (by simp only [RtpPacket.TIMESTAMP_OFFSET, RtpPacket.SEQUENCE_OFFSET]; omega)]
    exact ⟨_, rfl⟩
  obtain ⟨ts, read⟩ := stamped
  obtain ⟨out, written, kept⟩ := header_setTimestamp header (RtpPacket.checkedAddU32 ts ptime)
  refine ⟨out, ?_, kept⟩
  rw [RtpPacket.next, run, ok_bind, read, ok_bind, written]

/-- Packets of one source numbered consecutively from seq on. -/
def Numbered (ssrc : Nat) : Nat → List Bytes → Prop
  | _, [] => True
  | seq, packet :: rest => Header packet seq ssrc ∧ Numbered ssrc (succ 65536 seq) rest

theorem header_dtmfPacket {packet : Bytes} {seq ssrc : Nat} (h : Header packet seq ssrc)
    (pt : UInt8) (ts : Nat) (payload : Bytes) :
    ∃ out, dtmfPacket packet pt ts payload = .ok out ∧ Header out seq ssrc := by
  obtain ⟨typed, setType, typedHeader⟩ := header_setPayloadType h pt
  obtain ⟨stamped, setStamp, stampedHeader⟩ := header_setTimestamp typedHeader ts
  obtain ⟨out, setBody, header⟩ := header_setPaylod stampedHeader payload
  refine ⟨out, ?_, header⟩
  rw [dtmfPacket, setType, ok_bind, setStamp, ok_bind, setBody]

theorem dtmfPackets_numbered {packet : Bytes} {seq ssrc : Nat} (h : Header packet seq ssrc)
    (pt : UInt8) (first : Bool) (ts : Nat) {payload : Bytes} (sized : payload.length = 4) :
    ∃ packets, dtmfPackets packet pt first ts payload = .ok packets ∧
      Numbered ssrc seq packets ∧
      packets.length = if 128 < payload.getD 1 0 then 3 else 1 := by
  obtain ⟨filled, run, filledHeader⟩ := header_dtmfPacket h pt ts payload
  have marking : ∃ marked, markFirst first filled = .ok marked ∧ Header marked seq ssrc := by
    cases first with
    | true => exact header_setMarker filledHeader true
    | false => exact ⟨filled, rfl, filledHeader⟩
  obtain ⟨marked, mark, markedHeader⟩ := marking
  obtain ⟨second, next, secondHeader⟩ := header_nextSeq markedHeader
  obtain ⟨repeated, refill, repeatedHeader⟩ := header_dtmfPacket secondHeader pt ts payload
  obtain ⟨third, again, thirdHeader⟩ := header_nextSeq secondHeader
  obtain ⟨final, last, finalHeader⟩ := header_dtmfPacket thirdHeader pt ts payload
  unfold dtmfPackets
  rw [run, ok_bind, mark, ok_bind, byteAt_eq_ok (by omega), ok_bind]
  by_cases ending : 128 < payload.getD 1 0
  · rw [if_pos ending, if_pos ending, next, ok_bind, refill, ok_bind, again, ok_bind, last, ok_bind]
    exact ⟨_, rfl, ⟨markedHeader, repeatedHeader, finalHeader, trivial⟩, rfl⟩
  · rw [if_neg ending, if_neg ending]
    exact ⟨_, rfl, ⟨markedHeader, trivial⟩, rfl⟩

/- Encryption. The counter in use is in step with the last number sent, or no
   packet of the source was sent yet. -/
structure Counted (ctx : CryptoContext) (ssrc seq roc : Nat) : Prop where
  processed : (ctx.entry ssrc).rocHasProcessed = true
  lastSeq : (ctx.entry ssrc).lastSeq = seq
  counter : (ctx.entry ssrc).roc = roc
  small : roc < 4294967296

def index (roc seq : Nat) : Nat := roc * 65536 + seq

theorem entry_branch_next {entry : SSRCState} {seq : Nat} (processed : entry.rocHasProcessed = true)
    (last : entry.lastSeq = seq) (bound : seq < 65536) :
    entry.branch (succ 65536 seq) = if seq = 65535 then .increment else .keep := by
  unfold SSRCState.branch
  rw [if_neg (by simp [processed]), last]
  by_cases top : seq = 65535
  · subst top
    rfl
  · have next : succ 65536 seq = seq + 1 := Nat.mod_eq_of_lt (by omega)
    rw [next, if_neg (Nat.succ_ne_zero seq), if_neg top,
      if_neg (by simp only [MAX_ROCDISORDER, MAX_SEQUENCE_NUMBER]; omega),
      if_neg (by simp only [MAX_ROCDISORDER, MAX_SEQUENCE_NUMBER]; omega)]

theorem wrapIncr_lt (roc : Nat) : wrapIncr roc < 4294967296 := Nat.mod_lt _ (by decide)

/- The 48-bit index of the next packet is the next one, wrap included. -/
theorem index_next {roc seq : Nat} (small : roc < 4294967296) (bound : seq < 65536) :
    index (if seq = 65535 then wrapIncr roc else roc) (succ 65536 seq) =
      succ 281474976710656 (index roc seq) := by
  unfold index succ
  by_cases top : seq = 65535
  · rw [if_pos top, wrapIncr]
    omega
  · rw [if_neg top]
    omega

theorem updateRoc_counted {ctx : CryptoContext} {ssrc seq roc : Nat} {packet : Bytes}
    (counted : Counted ctx ssrc seq roc) (h : Header packet (succ 65536 seq) ssrc)
    (bound : seq < 65536) (redis : RocStore) :
    ∃ roc' ctx' redis', ctx.updateRoc redis packet = .ok (roc', ctx', redis') ∧
      ctx'.state = ctx.state ∧ Counted ctx' ssrc (succ 65536 seq) roc' ∧
      index roc' (succ 65536 seq) = succ 281474976710656 (index roc seq) := by
  have branched := entry_branch_next counted.processed counted.lastSeq bound
  have value : ((ctx.entry ssrc).updateRoc ctx.uuid redis (succ 65536 seq)).1.roc =
      if seq = 65535 then wrapIncr roc else roc := by
    rw [updateRoc_roc, branched, counted.counter]
    by_cases top : seq = 65535
    · rw [if_pos top, if_pos top]
    · rw [if_neg top, if_neg top]
  refine ⟨_, _, _, updateRoc_run h.sequence h.source redis, rfl, ?_, ?_⟩
  · constructor
    · rw [entry_record, updateRoc_entry]
    · rw [entry_record, updateRoc_entry]
    · rw [entry_record]
    · rw [value]
      have grown := wrapIncr_lt roc
      have small := counted.small
      split <;> assumption
  · rw [value]
    exact index_next counted.small bound

theorem hget_lt {redis : RocStore} {uuid : String} {ssrc : Nat} :
    (redis.hget uuid ssrc).getD 0 < 4294967296 := by
  cases read : redis.hget uuid ssrc with
  | none => decide
  | some roc =>
    obtain ⟨fields, _, kept⟩ := Option.bind_eq_some_iff.mp read
    simpa using (Option.filter_eq_some_iff.mp kept).2

theorem updateRoc_started {ctx : CryptoContext} {ssrc seq : Nat} {packet : Bytes}
    (fresh : ctx.ssrc ssrc = none) (h : Header packet seq ssrc) (redis : RocStore) :
    ∃ roc' ctx' redis', ctx.updateRoc redis packet = .ok (roc', ctx', redis') ∧
      ctx'.state = ctx.state ∧ Counted ctx' ssrc seq roc' := by
  have unseen : ctx.entry ssrc = ⟨ssrc, 0, false, 0⟩ := by simp [CryptoContext.entry, fresh]
  refine ⟨_, _, _, updateRoc_run h.sequence h.source redis, rfl, ?_⟩
  constructor
  · rw [entry_record, updateRoc_entry]
  · rw [entry_record, updateRoc_entry]
  · rw [entry_record]
  · rw [unseen, updateRoc_roc]
    exact hget_lt

/-- Encryption leaves the header in the clear. -/
theorem encryptRtp_header {prim : Primitives} {cs : CryptoState} (short : cs.tagLen ≤ 20)
    (roc : Nat) {packet : Bytes} {seq ssrc : Nat} (h : Header packet seq ssrc) :
    ∃ wire, Srtp.encryptRtp prim cs roc packet = .ok wire ∧ Header wire seq ssrc := by
  have long := h.long
  obtain ⟨data, tag, layout, _, run⟩ :=
    encryptRtp_layout prim short roc h.sequence h.source (header_payloadOffset h) long
  refine ⟨data ++ tag, run, ?_⟩
  have same : (data ++ tag).take 12 = packet.take 12 := by
    rw [layout, List.append_assoc, List.take_append_of_le_length (by simp; omega), List.take_take,
      Nat.min_self]
  constructor
  · rw [layout]
    simp
    omega
  · exact (byteAt_agree same (by omega)).trans h.first
  · exact (RtpPacket.getSequence_agree same (Nat.le_refl 12)).trans h.sequence
  · exact (RtpPacket.getSsrc_agree same (Nat.le_refl 12)).trans h.source

/-- A sender whose next packet takes the number after seq. -/
structure Clocked (sender : Sender) (ssrc seq : Nat) : Prop where
  template : Header sender.rtpPacket seq ssrc
  queued : ∀ digit ∈ sender.dtmf, digit.2 ≠ [] ∧ ∀ payload ∈ digit.2, payload.length = 4

structure Ready (sender : Sender) (ssrc seq : Nat) : Prop extends Clocked sender ssrc seq where
  short : ∀ ctx, sender.crypto = some ctx → ctx.state.tagLen ≤ 20

/- How the context stands to a number: nothing was sent, or the last packet sent
   had the number seq and the roc given. -/
def InStep (crypto : Option CryptoContext) (ssrc seq : Nat) : Option Nat → Prop
  | none => ∀ ctx, crypto = some ctx → ctx.ssrc ssrc = none
  | some roc => ∀ ctx, crypto = some ctx → Counted ctx ssrc seq roc

/-- The emission's counter is the next one after the number seq. -/
def Follows (seq : Nat) (last : Option Nat) (emission : Emission) : Prop :=
  ∀ roc, emission.roc = some roc → roc < 4294967296 ∧ ∀ before, last = some before →
    index roc (succ 65536 seq) = succ 281474976710656 (index before seq)

/-- Emissions numbered consecutively after seq, with their counters in step. -/
def Linked (ssrc : Nat) : Nat → Option Nat → List Emission → Prop
  | _, _, [] => True
  | seq, last, emission :: rest =>
    Header emission.plain (succ 65536 seq) ssrc ∧ Header emission.wire (succ 65536 seq) ssrc ∧
      Follows seq last emission ∧ Linked ssrc (succ 65536 seq) emission.roc rest

theorem updateRoc_inStep {ctx : CryptoContext} {crypto : Option CryptoContext}
    (present : crypto = some ctx) {ssrc seq : Nat} {packet : Bytes}
    (h : Header packet (succ 65536 seq) ssrc) (bound : seq < 65536) (redis : RocStore) :
    ∃ roc ctx' redis', ctx.updateRoc redis packet = .ok (roc, ctx', redis') ∧
      ctx'.state = ctx.state ∧ ∀ last, InStep crypto ssrc seq last →
        Counted ctx' ssrc (succ 65536 seq) roc ∧ ∀ before, last = some before →
          index roc (succ 65536 seq) = succ 281474976710656 (index before seq) := by
  refine ⟨_, _, _, updateRoc_run h.sequence h.source redis, rfl, ?_⟩
  intro last step
  cases last with
  | none =>
    obtain ⟨roc, ctx', redis', run, _, counted⟩ := updateRoc_started (step ctx present) h redis
    cases (updateRoc_run h.sequence h.source redis).symm.trans run
    exact ⟨counted, by simp⟩
  | some before =>
    obtain ⟨roc, ctx', redis', run, _, counted, next⟩ :=
      updateRoc_counted (step ctx present) h bound redis
    cases (updateRoc_run h.sequence h.source redis).symm.trans run
    exact ⟨counted, by simpa using next⟩

/- One packet through the encryption stage. -/
theorem encryptRtp_ok (prim : Primitives) {sender : Sender} (redis : RocStore) {ssrc seq : Nat}
    {packet : Bytes} (short : ∀ ctx, sender.crypto = some ctx → ctx.state.tagLen ≤ 20)
    (h : Header packet (succ 65536 seq) ssrc) (bound : seq < 65536) :
    ∃ emission crypto redis', AudioSender.encryptRtp prim sender redis packet =
        (.ok emission, { sender with crypto := crypto }, redis') ∧
      emission.plain = packet ∧ Header emission.wire (succ 65536 seq) ssrc ∧
      emission.roc.isSome = sender.crypto.isSome ∧
      crypto.map (·.state) = sender.crypto.map (·.state) ∧
      ∀ last, InStep sender.crypto ssrc seq last →
        InStep crypto ssrc (succ 65536 seq) emission.roc ∧ Follows seq last emission := by
  cases present : sender.crypto with
  | none =>
    refine ⟨⟨packet, none, packet⟩, none, redis, ?_, rfl, h, rfl, rfl, ?_⟩
    · simp only [AudioSender.encryptRtp, present]
      rw [← present]
    · intro last _
      constructor
      · intro ctx impossible
        cases impossible
      · intro roc impossible
        cases impossible
  | some ctx =>
    obtain ⟨roc, ctx', redis', run, kept, next⟩ := updateRoc_inStep present h bound redis
    obtain ⟨wire, encrypted, clear⟩ :=
      @encryptRtp_header prim ctx'.state (kept ▸ short ctx present) roc packet _ ssrc h
    refine ⟨⟨packet, some roc, wire⟩, some ctx', redis', ?_, rfl, clear, rfl, ?_, ?_⟩
    · simp only [AudioSender.encryptRtp, present, run, encrypted]
      rfl
    · simp [kept]
    · intro last step
      obtain ⟨counted, following⟩ := next last (present ▸ step)
      constructor
      · intro other same
        cases same
        exact counted
      · intro other same
        cases same
        exact ⟨counted.small, following⟩

theorem short_of_kept {crypto crypto' : Option CryptoContext}
    (kept : crypto'.map (·.state) = crypto.map (·.state))
    (short : ∀ ctx, crypto = some ctx → ctx.state.tagLen ≤ 20) :
    ∀ ctx, crypto' = some ctx → ctx.state.tagLen ≤ 20 := by
  intro ctx present
  rw [present] at kept
  obtain ⟨before, earlier, same⟩ := Option.map_eq_some_iff.mp kept.symm
  have limit := short before earlier
  rw [same] at limit
  exact limit

theorem encryptAll_ok (prim : Primitives) {packets : List Bytes} {sender : Sender}
    (redis : RocStore) {ssrc seq : Nat}
    (short : ∀ ctx, sender.crypto = some ctx → ctx.state.tagLen ≤ 20)
    (numbered : Numbered ssrc (succ 65536 seq) packets) (bound : seq < 65536) :
    ∃ emissions crypto redis', encryptAll prim sender redis packets =
        (.ok emissions, { sender with crypto := crypto }, redis') ∧
      emissions.length = packets.length ∧
      Numbered ssrc (succ 65536 seq) (emissions.map (·.wire)) ∧
      (∀ emission ∈ emissions, emission.roc.isSome = sender.crypto.isSome) ∧
      crypto.map (·.state) = sender.crypto.map (·.state) ∧
      ∀ last, InStep sender.crypto ssrc seq last → Linked ssrc seq last emissions ∧
        ∀ emission, emissions = [emission] → InStep crypto ssrc (succ 65536 seq) emission.roc := by
  induction packets generalizing sender redis seq with
  | nil =>
    refine ⟨[], sender.crypto, redis, rfl, rfl, trivial, by simp, rfl, ?_⟩
    intro last _
    exact ⟨trivial, by simp⟩
  | cons packet packets ih =>
    obtain ⟨h, rest⟩ := numbered
    obtain ⟨emission, crypto, redis', run, plain, wire, known, kept, next⟩ :=
      encryptRtp_ok prim redis short h bound
    have lower : succ 65536 seq < 65536 := Nat.mod_lt _ (by decide)
    obtain ⟨emissions, final, redis'', runRest, count, numberedRest, others, keptRest, linked⟩ :=
      @ih { sender with crypto := crypto } redis' (succ 65536 seq) (short_of_kept kept short)
        rest lower
    have someSame : crypto.isSome = sender.crypto.isSome := by
      simpa using congrArg Option.isSome kept
    refine ⟨emission :: emissions, final, redis'', ?_, by simp [count], ⟨wire, numberedRest⟩,
      ?_, keptRest.trans kept, ?_⟩
    · simp only [encryptAll, run, runRest]
      rfl
    · intro other inside
      rcases List.mem_cons.mp inside with same | later
      · rw [same]
        exact known
      · rw [others other later, ← someSame]
    · intro last step
      obtain ⟨stepNext, following⟩ := next last step
      obtain ⟨linkedRest, _⟩ := linked emission.roc stepNext
      refine ⟨⟨plain ▸ h, wire, following, linkedRest⟩, ?_⟩
      intro other single
      obtain ⟨same, none⟩ := List.cons.inj single
      subst same
      rw [none] at runRest count
      cases packets with
      | nil =>
        simp only [encryptAll, Prod.mk.injEq] at runRest
        have unchanged := congrArg Sender.crypto runRest.2.1
        simp only at unchanged
        rw [← unchanged]
        exact stepNext
      | cons another packets => simp at count

/- A call of the sender. -/
def endsBurst (sender : Sender) : Bool :=
  match sender.dtmf with
  | [] => false
  | (_, payloads) :: _ =>
    match payloads.getLast? with
    | none => false
    | some payload => 128 < payload.getD 1 0

theorem queued_next {sender : Sender}
    (queued : ∀ digit ∈ sender.dtmf, digit.2 ≠ [] ∧ ∀ payload ∈ digit.2, payload.length = 4)
    (ts : Nat) :
    ∀ digit ∈ (getSendingDtmf sender ts).2.dtmf,
      digit.2 ≠ [] ∧ ∀ payload ∈ digit.2, payload.length = 4 := by
  intro digit inside
  unfold getSendingDtmf at inside
  cases waiting : sender.dtmf with
  | nil =>
    simp only [waiting] at inside
    cases inside
  | cons head queue =>
    obtain ⟨dtmfTs, payloads⟩ := head
    simp only [waiting] at inside
    split at inside
    · exact queued digit (waiting ▸ List.mem_cons_of_mem _ inside)
    · rename_i left
      rcases List.mem_cons.mp inside with same | later
      · rw [same]
        refine ⟨left, ?_⟩
        intro payload member
        exact (queued (dtmfTs, payloads) (waiting ▸ List.mem_cons_self)).2 payload
          (List.dropLast_subset payloads member)
      · exact queued digit (waiting ▸ List.mem_cons_of_mem _ later)

theorem rtpPackets_ok {sender : Sender} {ssrc seq : Nat} (ready : Clocked sender ssrc seq)
    (payload : Bytes) :
    ∃ packets dtmf, rtpPackets sender payload = (.ok packets, { sender with dtmf := dtmf }) ∧
      Numbered ssrc seq packets ∧ packets.length = (if endsBurst sender then 3 else 1) ∧
      ∀ digit ∈ dtmf, digit.2 ≠ [] ∧ ∀ payload ∈ digit.2, payload.length = 4 := by
  have long := ready.template.long
  have stamped : ∃ now, RtpPacket.getTimestamp sender.rtpPacket = .ok now := by
    unfold RtpPacket.getTimestamp readU32
    rw [readU16_eq_ok (by simp only [RtpPacket.TIMESTAMP_OFFSET, RtpPacket.SEQUENCE_OFFSET]; omega),
      readU16_eq_ok (by simp only [RtpPacket.TIMESTAMP_OFFSET, RtpPacket.SEQUENCE_OFFSET]; omega)]
    exact ⟨_, rfl⟩
  obtain ⟨now, read⟩ := stamped
  have kept := queued_next ready.queued now
  cases waiting : sender.dtmf with
  | nil =>
    obtain ⟨out, filled, header⟩ := header_setPaylod ready.template payload
    refine ⟨[out], sender.dtmf, ?_, ⟨header, trivial⟩, by simp [endsBurst, waiting], ?_⟩
    · simp only [rtpPackets, read, getSendingDtmf, waiting, filled]
      rw [← waiting]
      rfl
    · exact ready.queued
  | cons head queue =>
    obtain ⟨dtmfTs, payloads⟩ := head
    obtain ⟨nonempty, sized⟩ := ready.queued (dtmfTs, payloads) (waiting ▸ List.mem_cons_self)
    have last := List.getLast?_eq_some_getLast nonempty
    obtain ⟨packets, run, numbered, count⟩ := dtmfPackets_numbered ready.template
      (sender.dtmfRtpmap.getD 101) dtmfTs.isNone (dtmfTs.getD now)
      (sized _ (List.getLast_mem nonempty))
    refine ⟨packets, (getSendingDtmf sender now).2.dtmf, ?_, numbered, ?_, kept⟩
    · simp only [rtpPackets, read, getSendingDtmf, waiting, last, Option.map_some]
      rw [run]
    · rw [count]
      simp [endsBurst, waiting, last]

/- The part of a call before encryption. -/
theorem getRtpPackets_run (prim : Primitives) {sender : Sender} (redis : RocStore)
    {ssrc seq : Nat} (clocked : Clocked sender ssrc seq) (payload : Bytes) :
    ∃ packets template dtmf, getRtpPackets prim sender redis payload =
        encryptAll prim { sender with rtpPacket := template, dtmf := dtmf } redis packets ∧
      Clocked { sender with rtpPacket := template, dtmf := dtmf } ssrc (succ 65536 seq) ∧
      Numbered ssrc (succ 65536 seq) packets ∧
      packets.length = if endsBurst sender then 3 else 1 := by
  obtain ⟨template, advance, header⟩ := header_next clocked.template sender.tsLen
  have clockedNext : Clocked { sender with rtpPacket := template } ssrc (succ 65536 seq) :=
    ⟨header, clocked.queued⟩
  obtain ⟨packets, dtmf, build, numbered, count, queued⟩ := rtpPackets_ok clockedNext payload
  have next : nextRtpPacket sender = .ok { sender with rtpPacket := template } := by
    rw [nextRtpPacket, advance]
    rfl
  refine ⟨packets, template, dtmf, ?_, ⟨header, queued⟩, numbered, count⟩
  unfold getRtpPackets
  rw [next]
  simp only [build]

theorem getRtpPackets_ok (prim : Primitives) {sender : Sender} (redis : RocStore)
    {ssrc seq : Nat} (ready : Ready sender ssrc seq) (payload : Bytes) :
    ∃ emissions sender' redis', getRtpPackets prim sender redis payload =
        (.ok emissions, sender', redis') ∧
      Ready sender' ssrc (succ 65536 seq) ∧
      emissions.length = (if endsBurst sender then 3 else 1) ∧
      Numbered ssrc (succ 65536 seq) (emissions.map (·.wire)) ∧
      (∀ emission ∈ emissions, emission.roc.isSome = sender.crypto.isSome) ∧
      sender'.crypto.map (·.state) = sender.crypto.map (·.state) ∧
      ∀ last, InStep sender.crypto ssrc seq last → Linked ssrc seq last emissions ∧
        ∀ emission, emissions = [emission] →
          InStep sender'.crypto ssrc (succ 65536 seq) emission.roc := by
  obtain ⟨packets, template, dtmf, build, clocked, numbered, count⟩ :=
    getRtpPackets_run prim redis ready.toClocked payload
  obtain ⟨emissions, crypto, redis', run, same, wires, known, kept, linked⟩ :=
    @encryptAll_ok prim packets { sender with rtpPacket := template, dtmf := dtmf } redis ssrc seq
      ready.short numbered (header_lt ready.template)
  exact ⟨emissions, { sender with rtpPacket := template, dtmf := dtmf, crypto := crypto },
    redis', build.trans run, ⟨⟨clocked.template, clocked.queued⟩, short_of_kept kept ready.short⟩,
    same.trans count, wires, known, kept, linked⟩

theorem sendDtmf_cases (sender : Sender) (dtmf : String) :
    sendDtmf sender dtmf = sender ∨
      ∃ id duration, sendDtmf sender dtmf =
        { sender with dtmf := sender.dtmf ++ [(none, dtmfPayloads id duration)] } := by
  unfold sendDtmf
  split
  · exact Or.inl rfl
  · split
    · exact Or.inl rfl
    · cases dtmfByte dtmf with
      | none => exact Or.inl rfl
      | some id => exact Or.inr ⟨id, _, rfl⟩

theorem dtmfPayloads_sized (id : UInt8) (duration : Nat) :
    dtmfPayloads id duration ≠ [] ∧
      ∀ payload ∈ dtmfPayloads id duration, payload.length = 4 := by
  constructor
  · simp [dtmfPayloads]
  · intro payload member
    simp only [dtmfPayloads, List.map_cons, List.map_nil, List.mem_cons, List.not_mem_nil,
      or_false] at member
    rcases member with same | same | same | same | same <;> rw [same] <;> rfl

theorem sendDtmf_clocked {sender : Sender} {ssrc seq : Nat} (clocked : Clocked sender ssrc seq)
    (dtmf : String) :
    Clocked (sendDtmf sender dtmf) ssrc seq ∧ (sendDtmf sender dtmf).crypto = sender.crypto := by
  rcases sendDtmf_cases sender dtmf with same | ⟨id, duration, pushed⟩
  · rw [same]
    exact ⟨clocked, rfl⟩
  · rw [pushed]
    refine ⟨⟨clocked.template, ?_⟩, rfl⟩
    intro digit inside
    rcases List.mem_append.mp inside with earlier | last
    · exact clocked.queued digit earlier
    · cases List.mem_singleton.mp last
      exact dtmfPayloads_sized id duration

theorem sendDtmf_ready {sender : Sender} {ssrc seq : Nat} (ready : Ready sender ssrc seq)
    (dtmf : String) :
    Ready (sendDtmf sender dtmf) ssrc seq ∧ (sendDtmf sender dtmf).crypto = sender.crypto := by
  obtain ⟨clocked, same⟩ := sendDtmf_clocked ready.toClocked dtmf
  exact ⟨⟨clocked, same ▸ ready.short⟩, same⟩

/- No call follows one that sends the end of a digit. -/
def BurstsOnlyLast (prim : Primitives) (sender : Sender) (redis : RocStore) : List Event → Prop
  | [] => True
  | .sendDtmf dtmf :: rest => BurstsOnlyLast prim (sendDtmf sender dtmf) redis rest
  | .getRtpPackets payload :: rest =>
    (endsBurst sender = true → ∀ event ∈ rest, ∃ dtmf, event = .sendDtmf dtmf) ∧
      BurstsOnlyLast prim (getRtpPackets prim sender redis payload).2.1
        (getRtpPackets prim sender redis payload).2.2 rest

theorem emitted_silent (prim : Primitives) {events : List Event} {sender : Sender}
    (redis : RocStore) (silent : ∀ event ∈ events, ∃ dtmf, event = .sendDtmf dtmf) :
    emitted prim sender redis events = [] := by
  induction events generalizing sender with
  | nil => rfl
  | cons event rest ih =>
    obtain ⟨dtmf, same⟩ := silent event List.mem_cons_self
    subst same
    exact ih fun other later => silent other (List.mem_cons_of_mem _ later)

theorem emitted_call {prim : Primitives} {sender sender' : Sender} {redis redis' : RocStore}
    {payload : Bytes} {emissions : List Emission} (rest : List Event)
    (run : getRtpPackets prim sender redis payload = (.ok emissions, sender', redis')) :
    emitted prim sender redis (.getRtpPackets payload :: rest) =
      emissions ++ emitted prim sender' redis' rest := by
  simp only [emitted, run]

/- Over a run that spares its bursts for the end, numbers and counters are linked. -/
theorem emitted_linked {prim : Primitives} {events : List Event} {sender : Sender}
    {redis : RocStore} {ssrc seq : Nat} {last : Option Nat} (ready : Ready sender ssrc seq)
    (step : InStep sender.crypto ssrc seq last) (spared : BurstsOnlyLast prim sender redis events) :
    Linked ssrc seq last (emitted prim sender redis events) ∧
      ∀ emission ∈ emitted prim sender redis events,
        emission.roc.isSome = sender.crypto.isSome := by
  induction events generalizing sender redis seq last with
  | nil => exact ⟨trivial, by simp [emitted]⟩
  | cons event rest ih =>
    cases event with
    | sendDtmf dtmf =>
      obtain ⟨readyNext, same⟩ := sendDtmf_ready ready dtmf
      have tail := ih readyNext (same ▸ step) spared
      rw [same] at tail
      exact tail
    | getRtpPackets payload =>
      obtain ⟨emissions, sender', redis', run, readyNext, count, _, known, kept, linked⟩ :=
        getRtpPackets_ok prim redis ready payload
      obtain ⟨here, later⟩ := spared
      obtain ⟨linkedHere, alone⟩ := linked last step
      rw [emitted_call rest run]
      rw [run] at later
      by_cases ending : endsBurst sender = true
      · rw [emitted_silent prim redis' (here ending), List.append_nil]
        exact ⟨linkedHere, known⟩
      · rw [if_neg ending] at count
        obtain ⟨emission, single⟩ := List.length_eq_one_iff.mp count
        subst single
        obtain ⟨linkedRest, others⟩ := ih readyNext (alone emission rfl) later
        have someSame : sender'.crypto.isSome = sender.crypto.isSome := by
          simpa using congrArg Option.isSome kept
        refine ⟨⟨linkedHere.1, linkedHere.2.1, linkedHere.2.2.1, linkedRest⟩, ?_⟩
        intro other inside
        rcases List.mem_cons.mp inside with same | inRest
        · rw [same]
          exact known emission List.mem_cons_self
        · rw [others other inRest, someSame]

theorem emitted_head {prim : Primitives} {events : List Event} {sender : Sender}
    {redis : RocStore} {ssrc seq : Nat} (ready : Ready sender ssrc seq)
    (calls : ¬ ∀ event ∈ events, ∃ dtmf, event = .sendDtmf dtmf) :
    ∃ emission rest, emitted prim sender redis events = emission :: rest ∧
      Header emission.wire (succ 65536 seq) ssrc := by
  induction events generalizing sender with
  | nil => simp at calls
  | cons event rest ih =>
    cases event with
    | sendDtmf dtmf =>
      apply ih (sendDtmf_ready ready dtmf).1
      intro silent
      apply calls
      intro event inside
      rcases List.mem_cons.mp inside with same | later
      · exact ⟨dtmf, same⟩
      · exact silent event later
    | getRtpPackets payload =>
      obtain ⟨emissions, sender', redis', run, _, count, numbered, _⟩ :=
        getRtpPackets_ok prim redis ready payload
      cases emissions with
      | nil => split at count <;> simp at count
      | cons emission others =>
        exact ⟨emission, _, emitted_call rest run, numbered.1⟩

/-- The later packet carries the number after the earlier one. -/
def NextNumber (a b : Emission) : Prop :=
  ∃ seq, RtpPacket.getSequence a.wire = .ok seq ∧
    RtpPacket.getSequence b.wire = .ok (succ 65536 seq)

theorem nextNumber_of_headers {a b : Emission} {seq ssrc : Nat} (linked : NextNumber a b)
    (first : Header a.wire seq ssrc) {next : Nat} (second : Header b.wire next ssrc) :
    next = succ 65536 seq := by
  obtain ⟨number, left, right⟩ := linked
  cases left.symm.trans first.sequence
  cases right.symm.trans second.sequence
  rfl

/- A call after a burst repeats the second number of the burst. -/
theorem emitted_broken {prim : Primitives} {events : List Event} {sender : Sender}
    {redis : RocStore} {ssrc seq : Nat} (ready : Ready sender ssrc seq)
    (burst : ¬ BurstsOnlyLast prim sender redis events) :
    ¬ List.IsChain NextNumber (emitted prim sender redis events) := by
  induction events generalizing sender redis seq with
  | nil => exact absurd trivial burst
  | cons event rest ih =>
    cases event with
    | sendDtmf dtmf => exact ih (sendDtmf_ready ready dtmf).1 burst
    | getRtpPackets payload =>
      obtain ⟨emissions, sender', redis', run, readyNext, count, numbered, _⟩ :=
        getRtpPackets_ok prim redis ready payload
      rw [emitted_call rest run]
      simp only [BurstsOnlyLast, run, not_and_or] at burst
      intro chain
      rcases burst with here | later
      · obtain ⟨ending, calls⟩ := Classical.not_imp.mp here
        rw [if_pos ending] at count
        obtain ⟨first, second, third, three⟩ := List.length_eq_three.mp count
        obtain ⟨next, others, headed, nextHeader⟩ := emitted_head readyNext calls
        subst three
        rw [headed] at chain
        simp only [List.cons_append, List.nil_append, List.isChain_cons_cons] at chain
        have repeated := nextNumber_of_headers chain.2.2.1 numbered.2.2.1 nextHeader
        simp only [succ] at repeated
        omega
      · exact ih readyNext later chain.right_of_append

def counterBlock (salt : Bytes) (emission : Emission) : Outcome Bytes := do
  let seq ← RtpPacket.getSequence emission.plain
  let ssrc ← RtpPacket.getSsrc emission.plain
  pure (generateCounter salt ssrc seq (emission.roc.getD 0))

/-- What a run of the sender owes its receiver: consecutive numbers, no number
    twice within a cycle and no counter block twice within the life of a key. -/
structure Consecutive (crypto : Option CryptoContext) (emissions : List Emission) : Prop where
  next : List.IsChain NextNumber emissions
  distinct : ∀ i j a b, i < j → j < i + 65536 → emissions[i]? = some a → emissions[j]? = some b →
    RtpPacket.getSequence a.wire ≠ RtpPacket.getSequence b.wire
  counters : ∀ ctx, crypto = some ctx → ∀ i j a b, i < j → j < i + 281474976710656 →
    emissions[i]? = some a → emissions[j]? = some b →
    counterBlock ctx.state.salt a ≠ counterBlock ctx.state.salt b

theorem linked_next {ssrc seq : Nat} {last : Option Nat} {emissions : List Emission}
    (linked : Linked ssrc seq last emissions) : List.IsChain NextNumber emissions := by
  induction emissions generalizing seq last with
  | nil => exact .nil
  | cons emission rest ih =>
    obtain ⟨_, wire, _, later⟩ := linked
    cases rest with
    | nil => exact .singleton _
    | cons other rest =>
      exact .cons_cons ⟨_, wire.sequence, later.2.1.sequence⟩ (ih later)

/-- The number on the wire and the 48-bit index of an emission. -/
def number (emission : Emission) : Nat :=
  match RtpPacket.getSequence emission.wire with
  | .ok seq => seq
  | .error _ => 0

def packetIndex (emission : Emission) : Nat := index (emission.roc.getD 0) (number emission)

theorem number_of_header {emission : Emission} {seq ssrc : Nat}
    (h : Header emission.wire seq ssrc) : number emission = seq := by
  rw [number, h.sequence]

theorem linked_numbers {ssrc seq : Nat} {last : Option Nat} {emissions : List Emission}
    (linked : Linked ssrc seq last emissions) :
    List.IsChain (fun a b => b = succ 65536 a) (emissions.map number) := by
  induction emissions generalizing seq last with
  | nil => exact .nil
  | cons emission rest ih =>
    obtain ⟨_, wire, _, later⟩ := linked
    cases rest with
    | nil => exact .singleton _
    | cons other rest =>
      refine .cons_cons ?_ (ih later)
      rw [number_of_header wire, number_of_header later.2.1]

theorem linked_indices {ssrc seq : Nat} {last : Option Nat} {emissions : List Emission}
    (linked : Linked ssrc seq last emissions)
    (encrypted : ∀ emission ∈ emissions, emission.roc.isSome = true) :
    List.IsChain (fun a b => b = succ 281474976710656 a) (emissions.map packetIndex) := by
  induction emissions generalizing seq last with
  | nil => exact .nil
  | cons emission rest ih =>
    obtain ⟨_, wire, _, later⟩ := linked
    cases rest with
    | nil => exact .singleton _
    | cons other rest =>
      refine .cons_cons ?_ (ih later fun e inside => encrypted e (List.mem_cons_of_mem _ inside))
      obtain ⟨roc, known⟩ := Option.isSome_iff_exists.mp (encrypted emission (by simp))
      obtain ⟨roc', known'⟩ := Option.isSome_iff_exists.mp (encrypted other (by simp))
      have step := (later.2.2.1 roc' known').2 roc known
      rw [packetIndex, packetIndex, number_of_header wire, number_of_header later.2.1, known,
        known']
      exact step

theorem linked_mem {ssrc seq : Nat} {last : Option Nat} {emissions : List Emission}
    (linked : Linked ssrc seq last emissions) {emission : Emission} (inside : emission ∈ emissions) :
    ∃ seq, Header emission.plain seq ssrc ∧ Header emission.wire seq ssrc ∧
      ∀ roc, emission.roc = some roc → roc < 4294967296 := by
  induction emissions generalizing seq last with
  | nil => cases inside
  | cons head rest ih =>
    obtain ⟨plain, wire, following, later⟩ := linked
    rcases List.mem_cons.mp inside with same | inRest
    · subst same
      exact ⟨_, plain, wire, fun roc known => (following roc known).1⟩
    · exact ih later inRest

/- The counter block spells the index out, masked by the salt. -/
theorem index_or {roc seq : Nat} (bound : seq < 65536) : (roc <<< 16) ||| seq = index roc seq := by
  have disjoint := Nat.two_pow_add_eq_or_of_lt (i := 16) (b := seq) bound roc
  rw [index, Nat.shiftLeft_eq, Nat.mul_comm roc, ← disjoint]

theorem counter_byte {salt : Bytes} {ssrc seq roc : Nat} (bound : seq < 65536) {k : Nat}
    (inside : k < 6) :
    (generateCounter salt ssrc seq roc).getD (8 + k) 0 =
      UInt8.ofNat (index roc seq >>> ((5 - k) * 8)) ^^^ salt.getD (8 + k) 0 := by
  rw [← index_or bound]
  have cases : k = 0 ∨ k = 1 ∨ k = 2 ∨ k = 3 ∨ k = 4 ∨ k = 5 := by omega
  rcases cases with at_k | at_k | at_k | at_k | at_k | at_k <;> subst at_k <;> rfl

theorem counter_injective {salt : Bytes} {ssrc ssrc' seq seq' roc roc' : Nat}
    (bound : seq < 65536) (bound' : seq' < 65536) (small : roc < 4294967296)
    (small' : roc' < 4294967296)
    (same : generateCounter salt ssrc seq roc = generateCounter salt ssrc' seq' roc') :
    index roc seq = index roc' seq' := by
  have bytes : ∀ k, k < 6 → index roc seq / 2 ^ ((5 - k) * 8) % 256 =
      index roc' seq' / 2 ^ ((5 - k) * 8) % 256 := by
    intro k inside
    have byte := congrArg (fun counter => counter.getD (8 + k) 0) same
    simp only [counter_byte bound inside, counter_byte bound' inside] at byte
    have plain := congrArg UInt8.toNat ((UInt8.xor_left_inj _).mp byte)
    rw [UInt8.toNat_ofNat', UInt8.toNat_ofNat', Nat.shiftRight_eq_div_pow,
      Nat.shiftRight_eq_div_pow] at plain
    exact plain
  have b0 := bytes 0 (by decide)
  have b1 := bytes 1 (by decide)
  have b2 := bytes 2 (by decide)
  have b3 := bytes 3 (by decide)
  have b4 := bytes 4 (by decide)
  have b5 := bytes 5 (by decide)
  simp only [Nat.reduceSub, Nat.reduceMul, Nat.reducePow] at b0 b1 b2 b3 b4 b5
  have limit : index roc seq < 281474976710656 := by unfold index; omega
  have limit' : index roc' seq' < 281474976710656 := by unfold index; omega
  omega

theorem counterBlock_of_header {emission : Emission} {seq ssrc : Nat}
    (h : Header emission.plain seq ssrc) (salt : Bytes) :
    counterBlock salt emission = .ok (generateCounter salt ssrc seq (emission.roc.getD 0)) := by
  simp [counterBlock, h.sequence, h.source]

theorem consecutive_of_linked {crypto : Option CryptoContext} {emissions : List Emission}
    {ssrc seq : Nat} {last : Option Nat} (linked : Linked ssrc seq last emissions)
    (known : ∀ emission ∈ emissions, emission.roc.isSome = crypto.isSome) :
    Consecutive crypto emissions := by
  constructor
  · exact linked_next linked
  · intro i j a b before within first second same
    obtain ⟨seqA, _, wireA, _⟩ := linked_mem linked (List.mem_of_getElem? first)
    obtain ⟨seqB, _, wireB, _⟩ := linked_mem linked (List.mem_of_getElem? second)
    have differ := distinct_of_chain (linked_numbers linked) before within
      (by rw [List.getElem?_map, first]; rfl) (by rw [List.getElem?_map, second]; rfl)
    rw [number_of_header wireA, number_of_header wireB] at differ
    rw [wireA.sequence, wireB.sequence] at same
    exact differ (Except.ok.inj same)
  · intro ctx present i j a b before within first second same
    have encrypted : ∀ emission ∈ emissions, emission.roc.isSome = true := by
      intro emission inside
      rw [known emission inside, present]
      rfl
    have insideA := List.mem_of_getElem? first
    have insideB := List.mem_of_getElem? second
    obtain ⟨seqA, plainA, wireA, smallA⟩ := linked_mem linked insideA
    obtain ⟨seqB, plainB, wireB, smallB⟩ := linked_mem linked insideB
    obtain ⟨rocA, knownA⟩ := Option.isSome_iff_exists.mp (encrypted a insideA)
    obtain ⟨rocB, knownB⟩ := Option.isSome_iff_exists.mp (encrypted b insideB)
    have differ := distinct_of_chain (linked_indices linked encrypted) before within
      (by rw [List.getElem?_map, first]; rfl) (by rw [List.getElem?_map, second]; rfl)
    rw [packetIndex, packetIndex, number_of_header wireA, number_of_header wireB, knownA,
      knownB] at differ
    rw [counterBlock_of_header plainA, counterBlock_of_header plainB, knownA, knownB] at same
    exact differ (counter_injective (header_lt plainA) (header_lt plainB) (smallA rocA knownA)
      (smallB rocB knownB) (Except.ok.inj same))

/- A tag longer than the digest makes every encryption fail, so nothing is sent. -/
def Mute (crypto : Option CryptoContext) : Prop :=
  ∃ ctx, crypto = some ctx ∧ 20 < ctx.state.tagLen

theorem encryptRtp_long {prim : Primitives} {cs : CryptoState} (long : 20 < cs.tagLen) (roc : Nat)
    (packet : Bytes) : ∃ fault, Srtp.encryptRtp prim cs roc packet = .error fault := by
  cases run : Srtp.encryptRtp prim cs roc packet with
  | error fault => exact ⟨fault, rfl⟩
  | ok wire =>
    obtain ⟨_, _, run⟩ := bind_ok_inv run
    obtain ⟨_, _, run⟩ := bind_ok_inv run
    obtain ⟨_, _, run⟩ := bind_ok_inv run
    obtain ⟨_, _, run⟩ := bind_ok_inv run
    obtain ⟨tag, tagged, _⟩ := bind_ok_inv run
    have inside := (sliceTo_ok_iff.mp tagged).1
    simp only [prim.hmacSha1_length] at inside
    omega

theorem encryptAll_mute {prim : Primitives} {sender : Sender} {redis : RocStore} {packet : Bytes}
    (rest : List Bytes) (mute : Mute sender.crypto) :
    ∃ fault crypto redis', encryptAll prim sender redis (packet :: rest) =
        (.error fault, { sender with crypto := crypto }, redis') ∧ Mute crypto := by
  obtain ⟨ctx, present, long⟩ := mute
  cases run : ctx.updateRoc redis packet with
  | error fault =>
    refine ⟨fault, sender.crypto, redis, ?_, ctx, present, long⟩
    simp only [encryptAll, AudioSender.encryptRtp, present, run]
    rw [← present]
  | ok out =>
    obtain ⟨roc, ctx', redis'⟩ := out
    obtain ⟨_, _, _, _, _, recorded, _⟩ := updateRoc_inv run
    have kept : ctx'.state = ctx.state := by
      rw [recorded]
      rfl
    obtain ⟨fault, failed⟩ := @encryptRtp_long prim ctx'.state (kept ▸ long) roc packet
    refine ⟨fault, some ctx', redis', ?_, ctx', rfl, kept ▸ long⟩
    simp only [encryptAll, AudioSender.encryptRtp, present, run, failed]
    rfl

theorem emitted_mute {prim : Primitives} {events : List Event} {sender : Sender}
    {redis : RocStore} {ssrc seq : Nat} (clocked : Clocked sender ssrc seq)
    (mute : Mute sender.crypto) : emitted prim sender redis events = [] := by
  induction events generalizing sender redis seq with
  | nil => rfl
  | cons event rest ih =>
    cases event with
    | sendDtmf dtmf =>
      obtain ⟨next, same⟩ := sendDtmf_clocked clocked dtmf
      exact ih next (same ▸ mute)
    | getRtpPackets payload =>
      obtain ⟨packets, template, dtmf, build, next, _, count⟩ :=
        getRtpPackets_run prim redis clocked payload
      cases packets with
      | nil => split at count <;> simp at count
      | cons packet others =>
        obtain ⟨fault, crypto, redis', failed, still⟩ := @encryptAll_mute prim
          { sender with rtpPacket := template, dtmf := dtmf } redis packet others mute
        simp only [emitted, build, failed, List.nil_append]
        exact ih ⟨next.template, next.queued⟩ still

theorem new_clocked (seq ts ssrc : Nat) (typeNumber : UInt8) (rate ptime : Nat)
    (dtmfRtpmap : Option UInt8) (crypto : Option CryptoContext) :
    Clocked (StreamLocalState.new seq ts ssrc typeNumber rate ptime dtmfRtpmap crypto)
      (ssrc % 4294967296) (seq % 65536) := by
  constructor
  · constructor
    · simp [StreamLocalState.new, bytes32, bytes16]
    · rfl
    · have read := readU16_bytes16 [0x80, typeNumber &&& RtpPacket.PT_MASK]
        (bytes32 ts ++ bytes32 ssrc) seq
      simpa [StreamLocalState.new, RtpPacket.getSequence, RtpPacket.SEQUENCE_OFFSET] using read
    · have read := readU32_bytes32
        ([0x80, typeNumber &&& RtpPacket.PT_MASK] ++ bytes16 seq ++ bytes32 ts) [] ssrc
      simpa [StreamLocalState.new, RtpPacket.getSsrc, RtpPacket.SSRC_OFFSET_RTP,
        RtpPacket.TIMESTAMP_OFFSET, RtpPacket.SEQUENCE_OFFSET, bytes16_length, bytes32_length]
        using read
  · intro digit inside
    cases inside

/- A stream keeps its numbers and counters in order over a run exactly when no
   packet is sent after the end of a digit, or when it cannot send at all. -/
theorem emitted_consecutive_iff {prim : Primitives} {seq ts ssrc : Nat} {typeNumber : UInt8}
    {rate ptime : Nat} {dtmfRtpmap : Option UInt8} {crypto : Option CryptoContext}
    (fresh : ∀ ctx, crypto = some ctx → ctx.ssrc (ssrc % 4294967296) = none)
    (redis : RocStore) (events : List Event) :
    Consecutive crypto (emitted prim
        (StreamLocalState.new seq ts ssrc typeNumber rate ptime dtmfRtpmap crypto) redis events) ↔
      BurstsOnlyLast prim
          (StreamLocalState.new seq ts ssrc typeNumber rate ptime dtmfRtpmap crypto) redis events ∨
        Mute crypto := by
  have clocked := new_clocked seq ts ssrc typeNumber rate ptime dtmfRtpmap crypto
  by_cases mute : Mute crypto
  · have silent : emitted prim _ redis events = [] := emitted_mute clocked mute
    rw [silent]
    exact ⟨fun _ => Or.inr mute, fun _ => ⟨.nil, by simp, by simp⟩⟩
  · have ready : Ready _ (ssrc % 4294967296) (seq % 65536) := ⟨clocked, by
      intro ctx present
      by_contra long
      exact mute ⟨ctx, present, Nat.lt_of_not_le long⟩⟩
    constructor
    · intro law
      by_contra neither
      exact emitted_broken ready (fun spared => neither (Or.inl spared)) law.next
    · intro either
      rcases either with spared | silent
      · obtain ⟨linked, known⟩ := @emitted_linked prim events _ redis _ _ none ready fresh spared
        exact consecutive_of_linked linked known
      · exact absurd silent mute

theorem emitted_consecutive_encrypted :
    Consecutive (some CryptoContext.sample) (emitted Primitives.vectors
        (StreamLocalState.new 0 4294967136 1 0 8000 20 (some 101) (some CryptoContext.sample))
        RocStore.started [.getRtpPackets [170]]) ↔
      BurstsOnlyLast Primitives.vectors
          (StreamLocalState.new 0 4294967136 1 0 8000 20 (some 101) (some CryptoContext.sample))
          RocStore.started [.getRtpPackets [170]] ∨
        Mute (some CryptoContext.sample) := by
  apply emitted_consecutive_iff
  intro ctx same
  cases same
  rfl

/- One digit and one media packet after it: the media packet has the number of
   the second end packet. -/
theorem emitted_number_repeated :
    (emitted Primitives.vectors (StreamLocalState.new 10 5 1 0 8000 20 (some 101) none)
        RocStore.started (.sendDtmf "5" :: List.replicate 6 (.getRtpPackets [7]))).map number =
        [11, 12, 13, 14, 15, 16, 17, 16] ∧
      ¬ Consecutive none (emitted Primitives.vectors
        (StreamLocalState.new 10 5 1 0 8000 20 (some 101) none) RocStore.started
        (.sendDtmf "5" :: List.replicate 6 (.getRtpPackets [7]))) := by
  constructor
  · decide +kernel
  · intro law
    have differ := law.distinct 5 7 _ _ (by decide) (by decide)
      (List.getElem?_eq_getElem (by decide +kernel)) (List.getElem?_eq_getElem (by decide +kernel))
    exact differ (by decide +kernel)

end AudioSequence
