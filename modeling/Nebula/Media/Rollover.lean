import Mathlib.Data.List.Forall2
import Nebula.Media.Srtp

/- Rollover tracking on one SSRC. A packet carries the low 16 bits of its 48-bit
   index; the receiver guesses the upper 32 bits from the previous packet alone.
   The guess is characterised exactly, packet by packet and over whole runs. -/
namespace Rollover
open ByteStrings Srtp

def CarriesIndex (ssrc : Nat) (index : Nat) (packet : Bytes) : Prop :=
  RtpPacket.getSsrc packet = .ok ssrc ∧ RtpPacket.getSequence packet = .ok (index % 65536)

/-- Losses and reordering within half the sequence space of the largest index. -/
def ToleratedFrom (largest : Nat) : List Nat → Prop
  | [] => True
  | index :: rest =>
    index ≤ largest + 32767 ∧ largest ≤ index + 32767 ∧ ToleratedFrom (max largest index) rest

instance : (largest : Nat) → (indices : List Nat) → Decidable (ToleratedFrom largest indices)
  | _, [] => isTrue trivial
  | largest, index :: rest =>
    have := instDecidableToleratedFrom (max largest index) rest
    inferInstanceAs (Decidable (_ ∧ _ ∧ _))

/- When the guess for cur, made after prev, is right. Within one cycle the two
   must not be mistaken for a wrap; across a wrap both must be recognisably near
   it. The thresholds are the window of 100 of the source. -/
def InWindow (prev cur : Nat) : Prop :=
  if cur / 65536 = prev / 65536 then
    (cur % 65536 = 0 → prev % 65536 ≤ 100) ∧
      ¬ (prev % 65536 < 100 ∧ 65435 < cur % 65536) ∧
      ¬ (0 < cur % 65536 ∧ cur % 65536 < 100 ∧ 65435 < prev % 65536)
  else if prev / 65536 < cur / 65536 then
    (cur % 65536 = 0 ∧ 100 < prev % 65536) ∨
      (0 < cur % 65536 ∧ cur % 65536 < 100 ∧ 65435 < prev % 65536)
  else prev % 65536 < 100 ∧ 65435 < cur % 65536

instance (prev cur : Nat) : Decidable (InWindow prev cur) := by
  unfold InWindow
  infer_instance

/-- The step about to be taken decrements a counter that is zero. -/
def decrementsZero (ctx : CryptoContext) (packet : Bytes) : Outcome Bool := do
  let seq ← RtpPacket.getSequence packet
  let ssrc ← RtpPacket.getSsrc packet
  pure ((ctx.entry ssrc).branch seq = .decrement ∧ (ctx.entry ssrc).roc = 0)

/- Every packet of a run with the roc returned for it and whether its update
   decremented a zero counter. -/
def rocTrace (ctx : CryptoContext) (redis : RocStore) : List Bytes → Outcome (List (Nat × Bool))
  | [] => .ok []
  | packet :: rest => do
    let below ← decrementsZero ctx packet
    let (roc, ctx', redis') ← ctx.updateRoc redis packet
    let reports ← rocTrace ctx' redis' rest
    pure ((roc, below) :: reports)

/-- The entry after a packet of the given index was counted correctly. -/
structure InStep (entry : SSRCState) (index : Nat) : Prop where
  processed : entry.rocHasProcessed = true
  roc : entry.roc = index / 65536
  lastSeq : entry.lastSeq = index % 65536

/- Once an entry is processed the branch depends on two numbers of 16 bits. -/
theorem branch_of_processed {entry : SSRCState} {prev : Nat} (h : InStep entry prev) (seq : Nat) :
    entry.branch seq =
      if seq = 0 then if 100 < prev % 65536 then .increment else .keep
      else if prev % 65536 < 100 ∧ 65435 < seq then .decrement
      else if seq < 100 ∧ 65435 < prev % 65536 then .increment
      else .keep := by
  simp [SSRCState.branch, h.processed, h.lastSeq, MAX_ROCDISORDER, MAX_SEQUENCE_NUMBER]

theorem branch_keep_iff {entry : SSRCState} {prev : Nat} (h : InStep entry prev) (seq : Nat) :
    entry.branch seq = .keep ↔
      (seq = 0 → prev % 65536 ≤ 100) ∧ ¬ (prev % 65536 < 100 ∧ 65435 < seq) ∧
        ¬ (0 < seq ∧ seq < 100 ∧ 65435 < prev % 65536) := by
  rw [branch_of_processed h]
  clear h
  generalize prev % 65536 = last
  split_ifs <;> simp <;> omega

theorem branch_increment_iff {entry : SSRCState} {prev : Nat} (h : InStep entry prev)
    (seq : Nat) :
    entry.branch seq = .increment ↔
      (seq = 0 ∧ 100 < prev % 65536) ∨ (0 < seq ∧ seq < 100 ∧ 65435 < prev % 65536) := by
  rw [branch_of_processed h]
  clear h
  generalize prev % 65536 = last
  split_ifs <;> simp <;> omega

theorem branch_decrement_iff {entry : SSRCState} {prev : Nat} (h : InStep entry prev)
    (seq : Nat) :
    entry.branch seq = .decrement ↔ prev % 65536 < 100 ∧ 65435 < seq := by
  rw [branch_of_processed h]
  clear h
  generalize prev % 65536 = last
  split_ifs <;> simp <;> omega

theorem branch_of_inStep {entry : SSRCState} {prev : Nat} (h : InStep entry prev) (seq : Nat) :
    entry.branch seq = .keep ∨ entry.branch seq = .increment ∨
      entry.branch seq = .decrement := by
  have started : entry.branch seq ≠ .load := by
    simp only [SSRCState.branch, h.processed]
    split_ifs <;> simp_all
  cases eq : entry.branch seq <;> simp_all

/-- Indices less than a cycle apart are in the same or in adjacent cycles. -/
theorem cycle_cases {prev cur : Nat} (upper : cur ≤ prev + 65534) (lower : prev ≤ cur + 65534) :
    cur / 65536 = prev / 65536 ∨ cur / 65536 = prev / 65536 + 1 ∨
      prev / 65536 = cur / 65536 + 1 := by
  omega

theorem inWindow_iff_branch {entry : SSRCState} {prev cur : Nat} (h : InStep entry prev)
    (upper : cur ≤ prev + 65534) (lower : prev ≤ cur + 65534) :
    InWindow prev cur ↔
      (entry.branch (cur % 65536) = .keep ∧ cur / 65536 = prev / 65536) ∨
        (entry.branch (cur % 65536) = .increment ∧ cur / 65536 = prev / 65536 + 1) ∨
          (entry.branch (cur % 65536) = .decrement ∧ prev / 65536 = cur / 65536 + 1) := by
  rw [branch_keep_iff h, branch_increment_iff h, branch_decrement_iff h]
  unfold InWindow
  rcases cycle_cases upper lower with same | after | before
  · rw [if_pos same]
    simp [same]
  · rw [if_neg (by omega), if_pos (by omega)]
    simp [after]
    omega
  · rw [if_neg (by omega), if_neg (by omega)]
    simp [before]
    omega

theorem wrapIncr_cases {roc : Nat} (small : roc < 4294967296) :
    wrapIncr roc = roc + 1 ∨ wrapIncr roc = 0 ∧ roc = 4294967295 := by
  unfold wrapIncr
  omega

theorem wrapDecr_cases {roc : Nat} (small : roc < 4294967296) :
    wrapDecr roc + 1 = roc ∨ wrapDecr roc = 4294967295 ∧ roc = 0 := by
  unfold wrapDecr
  omega

/- One packet: the counter is right and was not taken below zero exactly when
   the packet is in the window of the one before it. -/
theorem guess_right_iff {entry : SSRCState} {prev : Nat} (h : InStep entry prev) (cur : Nat)
    (upper : cur ≤ prev + 65534) (lower : prev ≤ cur + 65534)
    (boundPrev : prev < 281474976710656) (boundCur : cur < 281474976710656)
    (uuid : String) (redis : RocStore) :
    ((entry.updateRoc uuid redis (cur % 65536)).1.roc = cur / 65536 ∧
      ¬ (entry.branch (cur % 65536) = .decrement ∧ entry.roc = 0)) ↔ InWindow prev cur := by
  rw [inWindow_iff_branch h upper lower, updateRoc_roc, h.roc]
  have smallPrev : prev / 65536 < 4294967296 := by omega
  have smallCur : cur / 65536 < 4294967296 := by omega
  have near := cycle_cases upper lower
  clear upper lower boundPrev boundCur
  generalize prev / 65536 = a at *
  generalize cur / 65536 = c at *
  rcases branch_of_inStep h (cur % 65536) with eq | eq | eq
  · simp [eq, eq_comm]
  · rcases wrapIncr_cases smallPrev with up | ⟨up, top⟩
    · simp [eq, up, eq_comm]
    · simp [eq, up]
      omega
  · rcases wrapDecr_cases smallPrev with down | ⟨down, bottom⟩
    · simp [eq]
      omega
    · simp [eq, bottom]

theorem decrementsZero_run {ctx : CryptoContext} {ssrc index : Nat} {packet : Bytes}
    (carries : CarriesIndex ssrc index packet) :
    decrementsZero ctx packet = .ok (decide ((ctx.entry ssrc).branch (index % 65536) = .decrement ∧
      (ctx.entry ssrc).roc = 0)) := by
  simp [decrementsZero, carries.1, carries.2]

theorem report_eq_iff {x : Outcome (List (Nat × Bool))} {r a : Nat × Bool}
    {l : List (Nat × Bool)} :
    (x >>= fun reports => pure (r :: reports)) = .ok (a :: l) ↔ r = a ∧ x = .ok l := by
  cases x <;> simp

/- A run from a counted packet. The last index is never behind the largest one
   by more than the tolerated distance, so consecutive indices stay less than a
   cycle apart. -/
theorem rocTrace_iff {ssrc prev largest : Nat} {indices : List Nat} {packets : List Bytes}
    {ctx : CryptoContext} (redis : RocStore) (h : InStep (ctx.entry ssrc) prev)
    (behind : prev ≤ largest) (near : largest ≤ prev + 32767)
    (tolerated : ToleratedFrom largest indices)
    (bound : ∀ index ∈ prev :: indices, index < 281474976710656)
    (carried : List.Forall₂ (CarriesIndex ssrc) indices packets) :
    rocTrace ctx redis packets = .ok (indices.map fun index => (index / 65536, false)) ↔
      List.IsChain InWindow (prev :: indices) := by
  induction carried generalizing prev largest ctx redis with
  | nil => simp [rocTrace]
  | @cons cur packet indices packets carries rest ih =>
    obtain ⟨upper, lower, later⟩ := tolerated
    have boundPrev := bound prev (by simp)
    have boundCur := bound cur (by simp)
    have step := guess_right_iff h cur (by omega) (by omega) boundPrev boundCur
      ctx.uuid redis
    have seen := updateRoc_entry (ctx.entry ssrc) ctx.uuid redis (cur % 65536)
    rw [List.isChain_cons_cons, ← step]
    simp only [rocTrace, decrementsZero_run carries, updateRoc_run carries.2 carries.1, ok_bind, List.map_cons,
      report_eq_iff, Prod.mk.injEq, decide_eq_false_iff_not]
    apply and_congr_right
    intro right
    have next : InStep ((ctx.record ssrc
        ((ctx.entry ssrc).updateRoc ctx.uuid redis (cur % 65536)).1).entry ssrc) cur := by
      rw [entry_record, seen]
      exact ⟨rfl, right.1, rfl⟩
    exact ih _ next (Nat.le_max_right _ _) (by omega) later
      fun index inside => bound index (List.mem_cons_of_mem _ inside)

/- Over a whole call: every counter is right and none goes below zero exactly
   when each packet is in the window of the packet received before it. -/
theorem rocTrace_exact_iff_inWindow {ssrc first : Nat} {rest : List Nat} {packets : List Bytes}
    {ctx : CryptoContext} {redis : RocStore} (fresh : ctx.ssrc ssrc = none)
    (stored : (redis.hget ctx.uuid ssrc).getD 0 = first / 65536)
    (tolerated : ToleratedFrom first rest)
    (bound : ∀ index ∈ first :: rest, index < 281474976710656)
    (carried : List.Forall₂ (CarriesIndex ssrc) (first :: rest) packets) :
    rocTrace ctx redis packets =
        .ok ((first :: rest).map fun index => (index / 65536, false)) ↔
      List.IsChain InWindow (first :: rest) := by
  obtain _ | @⟨_, packet, _, others, carries, later⟩ := carried
  have unseen : ctx.entry ssrc = ⟨ssrc, 0, false, 0⟩ := by simp [CryptoContext.entry, fresh]
  have loads : (ctx.entry ssrc).branch (first % 65536) = .load := by
    simp [unseen, SSRCState.branch]
  have started : ((ctx.entry ssrc).updateRoc ctx.uuid redis (first % 65536)) =
      (⟨ssrc, first / 65536, true, first % 65536⟩, redis) := by
    unfold SSRCState.updateRoc
    rw [loads, unseen]
    simp only [stored]
  have first_step : InStep ((ctx.record ssrc
      ⟨ssrc, first / 65536, true, first % 65536⟩).entry ssrc) first := by
    rw [entry_record]
    exact ⟨rfl, rfl, rfl⟩
  have run := rocTrace_iff redis first_step (Nat.le_refl _) (by omega) tolerated
    bound later
  rw [← run]
  simp only [rocTrace, decrementsZero_run carries, updateRoc_run carries.2 carries.1, started, loads, ok_bind,
    List.map_cons, report_eq_iff]
  simp

/- Indices 65400 and 65586 with the 185 packets between them lost. -/
theorem rocTrace_lost_over_wrap :
    ToleratedFrom 65400 [65586] ∧
      List.Forall₂ (CarriesIndex 1) [65400, 65586]
        [[0x80, 0, 0xff, 0x78, 0, 0, 0, 0, 0, 0, 0, 1], [0x80, 0, 0, 50, 0, 0, 0, 0, 0, 0, 0, 1]] ∧
      rocTrace CryptoContext.sample RocStore.started
        [[0x80, 0, 0xff, 0x78, 0, 0, 0, 0, 0, 0, 0, 1], [0x80, 0, 0, 50, 0, 0, 0, 0, 0, 0, 0, 1]] ≠
        .ok ([65400, 65586].map fun index => (index / 65536, false)) := by
  refine ⟨by decide, ?_, by decide⟩
  exact .cons ⟨by decide, by decide⟩ (.cons ⟨by decide, by decide⟩ .nil)

/- Indices 65530 and 65541 on both sides of a wrap. -/
theorem rocTrace_near_wrap :
    rocTrace CryptoContext.sample RocStore.started
        [[0x80, 0, 0xff, 0xfa, 0, 0, 0, 0, 0, 0, 0, 1], [0x80, 0, 0, 5, 0, 0, 0, 0, 0, 0, 0, 1]] =
        .ok ([65530, 65541].map fun index => (index / 65536, false)) ↔
      List.IsChain InWindow [65530, 65541] :=
  @rocTrace_exact_iff_inWindow 1 65530 [65541] _ _ _ rfl (by decide) (by decide)
    (by intro index inside; simp at inside; omega)
    (.cons ⟨by decide, by decide⟩ (.cons ⟨by decide, by decide⟩ .nil))

end Rollover
