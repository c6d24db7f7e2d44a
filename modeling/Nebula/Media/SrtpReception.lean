import Nebula.Media.SrtpAuth

/- The receive path: the rollover state is updated from the clear header first
   and the packet is authenticated afterwards. What a rejected packet leaves
   behind is characterised for one packet and for whole interleavings. -/
namespace SrtpReception
open ByteStrings Srtp

def receiveRtpPacket (prim : Primitives) (ctx : CryptoContext) (redis : RocStore)
    (packet : Bytes) : Outcome Bytes × CryptoContext × RocStore :=
  match ctx.updateRoc redis packet with
  | .error fault => (.error fault, ctx, redis)
  | .ok (roc, ctx', redis') => (decryptRtp prim ctx'.state roc packet, ctx', redis')

/-- Contexts a call can hold. The store is shared, so it is arbitrary at each step. -/
inductive Reachable (prim : Primitives) : CryptoContext → Prop where
  | new {uuid : String} {masterKey masterSalt : Bytes} {tagLen : Nat} {ctx : CryptoContext} :
      CryptoContext.new prim uuid masterKey masterSalt tagLen = .ok ctx → Reachable prim ctx
  | updateRoc {ctx ctx' : CryptoContext} {redis redis' : RocStore} {packet : Bytes} {roc : Nat} :
      Reachable prim ctx → ctx.updateRoc redis packet = .ok (roc, ctx', redis') →
      Reachable prim ctx'
  | nextRtcpIndex {ctx : CryptoContext} : Reachable prim ctx → Reachable prim ctx.nextRtcpIndex

/- Runs on packets marked genuine or forged, with the results of the genuine
   ones and the state at the end. -/
def receiveAll (prim : Primitives) (ctx : CryptoContext) (redis : RocStore) :
    List (Bool × Bytes) → List (Outcome Bytes) × CryptoContext × RocStore
  | [] => ([], ctx, redis)
  | (genuine, packet) :: rest =>
    let (result, ctx', redis') := receiveRtpPacket prim ctx redis packet
    let (results, final) := receiveAll prim ctx' redis' rest
    (if genuine then result :: results else results, final)

/-- The packet carries the sequence number last recorded for its SSRC. -/
def RepeatsLastSeq (ctx : CryptoContext) (packet : Bytes) : Prop :=
  ∀ seq ssrc, RtpPacket.getSequence packet = .ok seq → RtpPacket.getSsrc packet = .ok ssrc →
    ∃ entry, ctx.ssrc ssrc = some entry ∧ entry.lastSeq = seq

/-- Every forged packet of a run is rejected and repeats a sequence number. -/
def ForgedRepeat (prim : Primitives) (ctx : CryptoContext) (redis : RocStore) :
    List (Bool × Bytes) → Prop
  | [] => True
  | (genuine, packet) :: rest =>
    (genuine = false → RepeatsLastSeq ctx packet ∧
      ∃ fault, (receiveRtpPacket prim ctx redis packet).1 = .error fault) ∧
    ForgedRepeat prim (receiveRtpPacket prim ctx redis packet).2.1
      (receiveRtpPacket prim ctx redis packet).2.2 rest

/- An entry of a reachable context has seen a packet, so it never loads again. -/
theorem reachable_processed {prim : Primitives} {ctx : CryptoContext}
    (reached : Reachable prim ctx) {ssrc : Nat} {entry : SSRCState}
    (present : ctx.ssrc ssrc = some entry) : entry.rocHasProcessed = true := by
  induction reached generalizing ssrc entry with
  | new made =>
    rw [(new_fresh made).1] at present
    cases present
  | @updateRoc ctx ctx' redis redis' packet roc reached run ih =>
    obtain ⟨seq, number, _, _, _, recorded, _⟩ := updateRoc_inv run
    rw [recorded] at present
    by_cases same : ssrc = number
    · subst same
      simp only [CryptoContext.record, Function.update_self, Option.some.injEq] at present
      rw [← present, updateRoc_entry]
    · simp only [CryptoContext.record, Function.update_of_ne same] at present
      exact ih present
  | @nextRtcpIndex ctx reached ih =>
    have kept : ctx.nextRtcpIndex.ssrc = ctx.ssrc := by
      unfold CryptoContext.nextRtcpIndex
      split <;> rfl
    rw [kept] at present
    exact ih present

theorem receive_reachable {prim : Primitives} {ctx : CryptoContext} (reached : Reachable prim ctx)
    (redis : RocStore) (packet : Bytes) :
    Reachable prim (receiveRtpPacket prim ctx redis packet).2.1 := by
  unfold receiveRtpPacket
  cases run : ctx.updateRoc redis packet with
  | error fault => exact reached
  | ok out => exact .updateRoc reached run

/-- A repeated sequence number takes no branch that writes. -/
theorem updateRoc_repeat {entry : SSRCState} (processed : entry.rocHasProcessed = true)
    (uuid : String) (redis : RocStore) :
    entry.updateRoc uuid redis entry.lastSeq = (entry, redis) := by
  have keeps : entry.branch entry.lastSeq = .keep := by
    unfold SSRCState.branch
    rw [if_neg (by simp [processed])]
    by_cases zero : entry.lastSeq = 0
    · rw [if_pos zero, if_neg (by rw [zero]; decide)]
    · rw [if_neg zero, if_neg (by simp only [MAX_ROCDISORDER, MAX_SEQUENCE_NUMBER]; omega),
        if_neg (by simp only [MAX_ROCDISORDER, MAX_SEQUENCE_NUMBER]; omega)]
  unfold SSRCState.updateRoc
  rw [keeps]

theorem receive_of_repeat {prim : Primitives} {ctx : CryptoContext}
    (reached : Reachable prim ctx) (redis : RocStore) {packet : Bytes}
    (repeated : RepeatsLastSeq ctx packet) :
    (receiveRtpPacket prim ctx redis packet).2 = (ctx, redis) := by
  unfold receiveRtpPacket
  cases run : ctx.updateRoc redis packet with
  | error fault => rfl
  | ok out =>
    obtain ⟨roc, ctx', redis'⟩ := out
    obtain ⟨seq, ssrc, numbered, sourced, _, recorded, saved⟩ := updateRoc_inv run
    obtain ⟨entry, present, last⟩ := repeated seq ssrc numbered sourced
    have current : ctx.entry ssrc = entry := by simp [CryptoContext.entry, present]
    rw [current, ← last, updateRoc_repeat (reachable_processed reached present)] at recorded saved
    have unchanged : ctx.record ssrc entry = ctx := by
      rw [CryptoContext.record, ← present, Function.update_eq_self]
    simp only [recorded, saved, unchanged]

theorem repeat_of_receive {prim : Primitives} {ctx : CryptoContext} {redis : RocStore}
    {packet : Bytes} (unchanged : (receiveRtpPacket prim ctx redis packet).2 = (ctx, redis)) :
    RepeatsLastSeq ctx packet := by
  intro seq ssrc numbered sourced
  unfold receiveRtpPacket at unchanged
  simp only [CryptoContext.updateRoc, numbered, sourced, ok_bind, pure_eq_ok] at unchanged
  have same := congrArg (fun state : CryptoContext × RocStore => state.1.ssrc ssrc) unchanged
  simp only [CryptoContext.record, Function.update_self] at same
  exact ⟨_, same.symm, by rw [updateRoc_entry]⟩

/- Over a run: forged packets that repeat a sequence number might as well not
   have been sent. -/
theorem receiveAll_filter {prim : Primitives} {packets : List (Bool × Bytes)}
    {ctx : CryptoContext} {redis : RocStore} (reached : Reachable prim ctx)
    (forged : ForgedRepeat prim ctx redis packets) :
    receiveAll prim ctx redis packets = receiveAll prim ctx redis (packets.filter (·.1)) := by
  induction packets generalizing ctx redis with
  | nil => rfl
  | cons arrival rest ih =>
    obtain ⟨genuine, packet⟩ := arrival
    obtain ⟨here, later⟩ := forged
    cases genuine with
    | true =>
      rw [List.filter_cons_of_pos rfl]
      simp only [receiveAll]
      rw [ih (receive_reachable reached redis packet) later]
    | false =>
      have kept := receive_of_repeat reached redis (here rfl).1
      rw [kept] at later
      rw [List.filter_cons_of_neg (by simp), ← ih reached later]
      simp only [receiveAll, kept]
      rfl

/- A rejected packet leaves the rollover state alone exactly when it repeats the
   last sequence number, and a run of such forgeries changes no genuine result. -/
theorem rejected_unchanged_iff_repeats {prim : Primitives} {ctx : CryptoContext}
    (reached : Reachable prim ctx) (redis : RocStore) :
    (∀ packet fault, (receiveRtpPacket prim ctx redis packet).1 = .error fault →
      ((receiveRtpPacket prim ctx redis packet).2 = (ctx, redis) ↔ RepeatsLastSeq ctx packet)) ∧
      ∀ packets, ForgedRepeat prim ctx redis packets →
        receiveAll prim ctx redis packets =
          receiveAll prim ctx redis (packets.filter (·.1)) := by
  constructor
  · intro packet fault _
    constructor
    · intro unchanged
      exact repeat_of_receive unchanged
    · intro repeated
      exact receive_of_repeat reached redis repeated
  · intro packets forged
    exact receiveAll_filter reached forged

theorem sample_reachable : Reachable Primitives.vectors CryptoContext.sample :=
  .new (show CryptoContext.new _ "m1" masterKey masterSalt 10 = .ok _ from rfl)

/- A forgery with the tag missing repeats the number of the packet before it. -/
theorem rejected_unchanged_repeated :
    ((receiveRtpPacket Primitives.vectors CryptoContext.sample RocStore.started
        ([128, 0, 255, 255, 0, 0, 0, 0, 0, 0, 0, 1] ++ List.replicate 10 0)).2 =
          (CryptoContext.sample, RocStore.started) ↔
        RepeatsLastSeq CryptoContext.sample
          ([128, 0, 255, 255, 0, 0, 0, 0, 0, 0, 0, 1] ++ List.replicate 10 0)) ∧
      receiveAll Primitives.vectors CryptoContext.sample RocStore.started
          [(true, [128, 0, 0, 1, 0, 0, 0, 0, 0, 0, 0, 1,
              132, 239, 156, 68, 92, 158, 60, 190, 79, 140]),
            (false, [128, 0, 0, 1, 0, 0, 0, 0, 0, 0, 0, 1] ++ List.replicate 10 0)] =
        receiveAll Primitives.vectors CryptoContext.sample RocStore.started
          [(true, [128, 0, 0, 1, 0, 0, 0, 0, 0, 0, 0, 1,
              132, 239, 156, 68, 92, 158, 60, 190, 79, 140])] := by
  have law := rejected_unchanged_iff_repeats sample_reachable RocStore.started
  refine ⟨law.1 _ (.error "can't auth the srtp packet") (by decide +kernel), law.2 _ ⟨?_, ?_, trivial⟩⟩
  · intro impossible
    cases impossible
  · intro _
    refine ⟨?_, .error "can't auth the srtp packet", by decide +kernel⟩
    intro seq ssrc numbered sourced
    cases Except.ok.inj (numbered.symm.trans (show _ = Except.ok 1 from rfl))
    cases Except.ok.inj (sourced.symm.trans (show _ = Except.ok 1 from rfl))
    exact ⟨⟨1, 0, true, 1⟩, by decide +kernel, rfl⟩

/- A forgery numbered 65535 makes the receiver expect a wrap: the genuine packet
   numbered 1 is accepted without it and rejected after it. -/
theorem forged_packet_blocks_genuine :
    Reachable Primitives.vectors CryptoContext.sample ∧
      (receiveRtpPacket Primitives.vectors CryptoContext.sample RocStore.started
        ([128, 0, 255, 255, 0, 0, 0, 0, 0, 0, 0, 1] ++ List.replicate 10 0)).1 =
        .error (.error "can't auth the srtp packet") ∧
      (receiveRtpPacket Primitives.vectors CryptoContext.sample RocStore.started
        ([128, 0, 255, 255, 0, 0, 0, 0, 0, 0, 0, 1] ++ List.replicate 10 0)).2 ≠
        (CryptoContext.sample, RocStore.started) ∧
      (receiveAll Primitives.vectors CryptoContext.sample RocStore.started
        [(true, [128, 0, 0, 1, 0, 0, 0, 0, 0, 0, 0, 1,
          132, 239, 156, 68, 92, 158, 60, 190, 79, 140])]).1 =
        [.ok [128, 0, 0, 1, 0, 0, 0, 0, 0, 0, 0, 1]] ∧
      (receiveAll Primitives.vectors CryptoContext.sample RocStore.started
        [(false, [128, 0, 255, 255, 0, 0, 0, 0, 0, 0, 0, 1] ++ List.replicate 10 0),
          (true, [128, 0, 0, 1, 0, 0, 0, 0, 0, 0, 0, 1,
            132, 239, 156, 68, 92, 158, 60, 190, 79, 140])]).1 =
        [.error (.error "can't auth the srtp packet")] := by
  refine ⟨sample_reachable, by decide +kernel, ?_, by decide +kernel, by decide +kernel⟩
  intro unchanged
  have same := congrArg (fun state : CryptoContext × RocStore => state.1.ssrc 1) unchanged
  exact absurd same (by decide +kernel)

end SrtpReception
