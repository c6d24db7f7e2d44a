import Nebula.Media.RtxRecovery
import Nebula.Media.TwoGenerationCache

/- The packets that a sender keeps to send them again, and the numbers that they get then: one
   sequence of numbers for each retransmission stream. -/

structure RtxSender where
  previouslySentBySeqnum : TwoGenerationCache (UInt32 × UInt16) ByteStrings.Bytes
  nextOutgoingSeqnumBySsrc : IndexMap UInt32 UInt64

namespace RtxSender
open ByteStrings RtpPacket
open VideoReceiver (packetToRtx packetToRtx_header)

section Sender

def RTX_SSRC_OFFSET : UInt32 := 1

def toRtxSsrc (ssrc : UInt32) : UInt32 := ssrc + RTX_SSRC_OFFSET

def new (limit now : Nat) : RtxSender := ⟨.new limit now, .empty⟩

def getNextSeqnumMut (sender : RtxSender) (rtxSsrc : UInt32) : RtxSender × UInt64 :=
  match sender.nextOutgoingSeqnumBySsrc.entries.lookup rtxSsrc with
  | some seqnum => (sender, seqnum)
  | none =>
    ({ sender with
      nextOutgoingSeqnumBySsrc := sender.nextOutgoingSeqnumBySsrc.insert rtxSsrc 1 }, 1)

def incrementSeqnum (sender : RtxSender) (rtxSsrc : UInt32) : RtxSender × UInt64 :=
  let next := getNextSeqnumMut sender rtxSsrc
  ({ next.1 with
    nextOutgoingSeqnumBySsrc := next.1.nextOutgoingSeqnumBySsrc.insert rtxSsrc (next.2 + 1) },
    next.2)

def rememberSent (sender : RtxSender) (outgoing : Bytes) (departed : Nat) : Outcome RtxSender := do
  let ssrc ← getSsrc outgoing
  let seq ← getSequence outgoing
  pure { sender with
    previouslySentBySeqnum := sender.previouslySentBySeqnum.insert
      (UInt32.ofNat ssrc, UInt16.ofNat seq) outgoing departed }

def resendAsRtx (sender : RtxSender) (ssrc : UInt32) (seqnum : UInt16) :
    Outcome (RtxSender × Option Bytes) :=
  let rtxSsrc := toRtxSsrc ssrc
  let next := getNextSeqnumMut sender rtxSsrc
  match next.1.previouslySentBySeqnum.get (ssrc, seqnum) with
  | none => .ok (next.1, none)
  | some previouslySent => do
    let rtx ← packetToRtx previouslySent rtxSsrc.toNat next.2.toUInt16.toNat
    pure ((incrementSeqnum next.1 rtxSsrc).1, some rtx)

inductive Call where
  | rememberSent (outgoing : Bytes) (departed : Nat)
  | resendAsRtx (ssrc : UInt32) (seqnum : UInt16)

def step (sender : RtxSender) : Call → Outcome (RtxSender × Option Bytes)
  | .rememberSent outgoing departed => do
    let after ← rememberSent sender outgoing departed
    pure (after, none)
  | .resendAsRtx ssrc seqnum => resendAsRtx sender ssrc seqnum

/-- The calls one after another, with the packets that they return. -/
def run (sender : RtxSender) : List Call → Outcome (RtxSender × List Bytes)
  | [] => pure (sender, [])
  | call :: rest => do
    let after ← step sender call
    let last ← run after.1 rest
    pure (last.1, after.2.toList ++ last.2)

end Sender

section Counters

/-- The number that the stream gets next. -/
def nextSeqnum (sender : RtxSender) (rtxSsrc : UInt32) : UInt64 :=
  (sender.nextOutgoingSeqnumBySsrc.entries.lookup rtxSsrc).getD 1

theorem getNextSeqnumMut_value (sender : RtxSender) (rtxSsrc : UInt32) :
    (getNextSeqnumMut sender rtxSsrc).2 = nextSeqnum sender rtxSsrc := by
  unfold getNextSeqnumMut nextSeqnum
  cases sender.nextOutgoingSeqnumBySsrc.entries.lookup rtxSsrc <;> rfl

theorem getNextSeqnumMut_next (sender : RtxSender) (rtxSsrc other : UInt32) :
    nextSeqnum (getNextSeqnumMut sender rtxSsrc).1 other = nextSeqnum sender other := by
  unfold getNextSeqnumMut
  cases known : sender.nextOutgoingSeqnumBySsrc.entries.lookup rtxSsrc with
  | some seqnum => rfl
  | none =>
    unfold nextSeqnum
    rw [IndexMap.lookup_insert]
    by_cases same : other = rtxSsrc
    · simp [same, known]
    · simp [same]

theorem getNextSeqnumMut_cache (sender : RtxSender) (rtxSsrc : UInt32) :
    (getNextSeqnumMut sender rtxSsrc).1.previouslySentBySeqnum =
      sender.previouslySentBySeqnum := by
  unfold getNextSeqnumMut
  cases sender.nextOutgoingSeqnumBySsrc.entries.lookup rtxSsrc <;> rfl

theorem incrementSeqnum_next (sender : RtxSender) (rtxSsrc other : UInt32) :
    nextSeqnum (incrementSeqnum sender rtxSsrc).1 other =
      nextSeqnum sender other + if other = rtxSsrc then 1 else 0 := by
  have value := getNextSeqnumMut_value sender rtxSsrc
  have kept := getNextSeqnumMut_next sender rtxSsrc other
  unfold nextSeqnum at kept
  unfold incrementSeqnum nextSeqnum
  rw [IndexMap.lookup_insert]
  by_cases same : other = rtxSsrc
  · rw [if_pos same, if_pos same, value, same]
    rfl
  · rw [if_neg same, if_neg same, kept, UInt64.add_zero]

theorem incrementSeqnum_cache (sender : RtxSender) (rtxSsrc : UInt32) :
    (incrementSeqnum sender rtxSsrc).1.previouslySentBySeqnum = sender.previouslySentBySeqnum :=
  getNextSeqnumMut_cache sender rtxSsrc

end Counters

section Requests

theorem packetToRtx_inv {packet rtx : Bytes} {ssrc : UInt32} {seq : UInt16}
    (made : packetToRtx packet ssrc.toNat seq.toNat = .ok rtx) :
    ∃ (header : RtpHeader) (payload : Bytes), packet = header.bytes ++ payload ∧
      rtx = { header with sequence := seq, ssrc }.bytes ++
        (bytes16 header.sequence.toNat ++ payload) := by
  obtain ⟨payload, taken, _⟩ := bind_ok_inv made
  obtain ⟨offset, read, slice⟩ := bind_ok_inv taken
  have inside : offset ≤ packet.length := by
    unfold sliceFrom at slice
    split at slice
    · assumption
    · cases slice
  obtain ⟨header, rest, rfl⟩ :=
    (wellFormed_iff_header packet).mp ((wellFormed_iff_offset packet).mpr ⟨offset, read, inside⟩)
  rw [packetToRtx_header] at made
  exact ⟨header, rest, rfl, (Except.ok.inj made).symm⟩

/-- What a request does: it finds nothing and takes no number, or it wraps the packet that is kept
    and takes the next number of the stream. -/
theorem resend_cases {sender after : RtxSender} {ssrc : UInt32} {seqnum : UInt16}
    {found : Option Bytes} (ran : resendAsRtx sender ssrc seqnum = .ok (after, found)) :
    after.previouslySentBySeqnum = sender.previouslySentBySeqnum ∧
      ((found = none ∧ sender.previouslySentBySeqnum.get (ssrc, seqnum) = none ∧
          ∀ other, nextSeqnum after other = nextSeqnum sender other) ∨
        ∃ packet rtx, found = some rtx ∧
          sender.previouslySentBySeqnum.get (ssrc, seqnum) = some packet ∧
          packetToRtx packet (toRtxSsrc ssrc).toNat
            (nextSeqnum sender (toRtxSsrc ssrc)).toUInt16.toNat = .ok rtx ∧
          ∀ other, nextSeqnum after other =
            nextSeqnum sender other + if other = toRtxSsrc ssrc then 1 else 0) := by
  unfold resendAsRtx at ran
  simp only [getNextSeqnumMut_cache, getNextSeqnumMut_value] at ran
  cases kept : sender.previouslySentBySeqnum.get (ssrc, seqnum) with
  | none =>
    rw [kept] at ran
    cases ran
    exact ⟨getNextSeqnumMut_cache _ _, Or.inl ⟨rfl, rfl, getNextSeqnumMut_next sender _⟩⟩
  | some packet =>
    rw [kept] at ran
    obtain ⟨rtx, made, last⟩ := bind_ok_inv ran
    cases last
    refine ⟨?_, Or.inr ⟨packet, rtx, rfl, rfl, made, ?_⟩⟩
    · rw [incrementSeqnum_cache, getNextSeqnumMut_cache]
    · intro other
      rw [incrementSeqnum_next, getNextSeqnumMut_next]

end Requests

section Numbers

def ofStream (rtxSsrc : UInt32) (packets : List Bytes) : List Bytes :=
  packets.filter fun packet => getSsrc packet = .ok rtxSsrc.toNat

/-- The stream has used up the numbers from 1 on, one for each of its packets. -/
def Counted (sender : RtxSender) (packets : List Bytes) : Prop :=
  ∀ rtxSsrc : UInt32,
    (ofStream rtxSsrc packets).map getSequence =
      (List.range (ofStream rtxSsrc packets).length).map (fun i => .ok ((i + 1) % 65536)) ∧
    nextSeqnum sender rtxSsrc = UInt64.ofNat ((ofStream rtxSsrc packets).length + 1)

theorem counted_next {sender after : RtxSender} {packets : List Bytes} {rtx : Bytes}
    {own : UInt32} (counted : Counted sender packets) (ssrc : getSsrc rtx = .ok own.toNat)
    (number : getSequence rtx = .ok (nextSeqnum sender own).toUInt16.toNat)
    (moved : ∀ other, nextSeqnum after other =
      nextSeqnum sender other + if other = own then 1 else 0) :
    Counted after (packets ++ [rtx]) := by
  intro other
  obtain ⟨numbers, next⟩ := counted other
  unfold ofStream at numbers next ⊢
  rw [moved, List.filter_append]
  by_cases same : other = own
  · subst same
    have mine : [rtx].filter (fun packet => getSsrc packet = .ok other.toNat) = [rtx] := by
      simp [ssrc]
    rw [mine, List.length_append, List.length_singleton, List.range_succ, List.map_append,
      List.map_append, numbers, if_pos rfl, next]
    refine ⟨?_, by simp⟩
    congr 1
    rw [List.map_singleton, List.map_singleton, number, next, UInt64.toUInt16_ofNat',
      UInt16.toNat_ofNat']
  · have notMine : [rtx].filter (fun packet => getSsrc packet = .ok other.toNat) = [] := by
      have apart : ¬ own.toNat = other.toNat := fun equal => same (UInt32.toNat_inj.mp equal.symm)
      simp [ssrc, apart]
    rw [notMine, List.append_nil, if_neg same, UInt64.add_zero]
    exact ⟨numbers, next⟩

theorem counted_step {sender after : RtxSender} {packets : List Bytes} {call : Call}
    {found : Option Bytes} (counted : Counted sender packets)
    (ran : step sender call = .ok (after, found)) : Counted after (packets ++ found.toList) := by
  cases call with
  | rememberSent outgoing departed =>
    obtain ⟨stored, kept, last⟩ := bind_ok_inv ran
    obtain ⟨ssrc, _, rest⟩ := bind_ok_inv kept
    obtain ⟨seq, _, done⟩ := bind_ok_inv rest
    cases done
    cases last
    rw [Option.toList_none, List.append_nil]
    exact counted
  | resendAsRtx ssrc seqnum =>
    obtain ⟨_, ⟨rfl, _, unmoved⟩ | ⟨packet, rtx, rfl, _, made, moved⟩⟩ := resend_cases ran
    · rw [Option.toList_none, List.append_nil]
      intro other
      rw [unmoved]
      exact counted other
    · obtain ⟨header, payload, _, rfl⟩ := packetToRtx_inv made
      exact counted_next counted (getSsrc_header _ _) (getSequence_header _ _) moved

theorem counted_run (calls : List Call) :
    ∀ {sender last : RtxSender} {before packets : List Bytes}, Counted sender before →
      run sender calls = .ok (last, packets) → Counted last (before ++ packets) := by
  induction calls with
  | nil =>
    intro sender last before packets counted ran
    cases ran
    rwa [List.append_nil]
  | cons call rest ih =>
    intro sender last before packets counted ran
    obtain ⟨⟨after, found⟩, stepped, later⟩ := bind_ok_inv ran
    obtain ⟨⟨final, more⟩, ranRest, done⟩ := bind_ok_inv later
    cases done
    rw [← List.append_assoc]
    exact ih (counted_step counted stepped) ranRest

end Numbers

section Kept

/-- The packet that was remembered last for a stream and a number. -/
def lastRemembered (ssrc : UInt32) (seqnum : UInt16) (before : Option Bytes) :
    List Call → Option Bytes
  | [] => before
  | .rememberSent outgoing _ :: rest =>
    if getSsrc outgoing = .ok ssrc.toNat ∧ getSequence outgoing = .ok seqnum.toNat then
      lastRemembered ssrc seqnum (some outgoing) rest
    else lastRemembered ssrc seqnum before rest
  | .resendAsRtx _ _ :: rest => lastRemembered ssrc seqnum before rest

/-- What a call stores and when. -/
def stored : Call → Option (TwoGenerationCache.Event (UInt32 × UInt16) Bytes)
  | .rememberSent outgoing departed =>
    match getSsrc outgoing, getSequence outgoing with
    | .ok ssrc, .ok seq =>
      some (departed, .insert (UInt32.ofNat ssrc, UInt16.ofNat seq) outgoing)
    | _, _ => none
  | .resendAsRtx _ _ => none

theorem stored_remembered {outgoing : Bytes} {own number : Nat}
    (first : getSsrc outgoing = .ok own) (second : getSequence outgoing = .ok number)
    (departed : Nat) : stored (.rememberSent outgoing departed) =
      some (departed, .insert (UInt32.ofNat own, UInt16.ofNat number) outgoing) := by
  simp only [stored, first, second]

theorem stored_unread {outgoing : Bytes}
    (unread : ∀ own number, getSsrc outgoing = .ok own → getSequence outgoing ≠ .ok number)
    (departed : Nat) : stored (.rememberSent outgoing departed) = none := by
  cases first : getSsrc outgoing with
  | error fault => simp only [stored, first]
  | ok own =>
    cases second : getSequence outgoing with
    | error fault => simp only [stored, first, second]
    | ok number => exact absurd second (unread own number first)

theorem stored_inserts {call : Call} {event : TwoGenerationCache.Event (UInt32 × UInt16) Bytes}
    (is : stored call = some event) (key : UInt32 × UInt16) : event.2.removes key = false := by
  cases call with
  | resendAsRtx ssrc seqnum => cases is
  | rememberSent outgoing departed =>
    simp only [stored] at is
    split at is
    · cases is
      rfl
    · cases is

theorem cache_step {sender after : RtxSender} {call : Call} {found : Option Bytes}
    (ran : step sender call = .ok (after, found)) :
    after.previouslySentBySeqnum =
      TwoGenerationCache.run sender.previouslySentBySeqnum (stored call).toList := by
  cases call with
  | rememberSent outgoing departed =>
    obtain ⟨changed, kept, last⟩ := bind_ok_inv ran
    obtain ⟨ssrc, first, rest⟩ := bind_ok_inv kept
    obtain ⟨seq, second, done⟩ := bind_ok_inv rest
    cases done
    cases last
    rw [stored_remembered first second]
    rfl
  | resendAsRtx ssrc seqnum => exact (resend_cases ran).1

theorem cache_run (calls : List Call) :
    ∀ {sender last : RtxSender} {packets : List Bytes}, run sender calls = .ok (last, packets) →
      last.previouslySentBySeqnum =
        TwoGenerationCache.run sender.previouslySentBySeqnum (calls.filterMap stored) := by
  induction calls with
  | nil =>
    intro sender last packets ran
    cases ran
    rfl
  | cons call rest ih =>
    intro sender last packets ran
    obtain ⟨⟨after, found⟩, stepped, later⟩ := bind_ok_inv ran
    obtain ⟨⟨final, more⟩, ranRest, done⟩ := bind_ok_inv later
    cases done
    rw [ih ranRest, cache_step stepped, List.filterMap_eq_flatMap_toList,
      List.filterMap_eq_flatMap_toList, List.flatMap_cons, TwoGenerationCache.run_append]

/-- Reads of a packet that has both fields, as the key under which it is stored. -/
theorem key_iff {outgoing : Bytes} {own number : Nat} (first : getSsrc outgoing = .ok own)
    (second : getSequence outgoing = .ok number) (ssrc : UInt32) (seqnum : UInt16) :
    (ssrc, seqnum) = (UInt32.ofNat own, UInt16.ofNat number) ↔
      getSsrc outgoing = .ok ssrc.toNat ∧ getSequence outgoing = .ok seqnum.toNat := by
  have ownFits := readU32_lt first
  have numberFits := readU16_lt second
  rw [first, second, Prod.mk.injEq, Except.ok.injEq, Except.ok.injEq]
  constructor
  · rintro ⟨rfl, rfl⟩
    rw [UInt32.toNat_ofNat_of_lt' ownFits, UInt16.toNat_ofNat_of_lt' numberFits]
    exact ⟨rfl, rfl⟩
  · rintro ⟨rfl, rfl⟩
    rw [UInt32.ofNat_toNat, UInt16.ofNat_toNat]
    exact ⟨rfl, rfl⟩

theorem latest_stored (ssrc : UInt32) (seqnum : UInt16) (calls : List Call) :
    ∀ (before : Option Bytes), TwoGenerationCache.latest (ssrc, seqnum) before
      (calls.filterMap stored) = lastRemembered ssrc seqnum before calls := by
  induction calls with
  | nil =>
    intro before
    rfl
  | cons call rest ih =>
    intro before
    cases call with
    | resendAsRtx other number => exact ih before
    | rememberSent outgoing departed =>
      unfold lastRemembered
      by_cases read : ∃ own number, getSsrc outgoing = .ok own ∧ getSequence outgoing = .ok number
      · obtain ⟨own, number, first, second⟩ := read
        rw [List.filterMap_cons_some (stored_remembered first second departed)]
        simp only [← key_iff first second]
        unfold TwoGenerationCache.latest
        simp only [TwoGenerationCache.Operation.removes, TwoGenerationCache.Operation.inserts,
          Bool.false_eq_true, ↓reduceIte]
        by_cases same : (ssrc, seqnum) = (UInt32.ofNat own, UInt16.ofNat number)
        · rw [if_pos same, if_pos same, ih]
          rfl
        · rw [if_neg same, if_neg same, ih]
          rfl
      · have unread : ∀ own number, getSsrc outgoing = .ok own →
            getSequence outgoing ≠ .ok number :=
          fun own number first second => read ⟨own, number, first, second⟩
        rw [List.filterMap_cons_none (stored_unread unread departed), ih,
          if_neg (fun both => unread _ _ both.1 both.2)]

end Kept

section Results

/-- What the requests of a run rely on; the run has returned these packets. -/
structure RtxSequenceSpace (limit start : Nat) (calls : List Call) (sender : RtxSender)
    (packets : List Bytes) : Prop where
  numbered : ∀ rtxSsrc : UInt32, (ofStream rtxSsrc packets).map getSequence =
    (List.range (ofStream rtxSsrc packets).length).map fun i => .ok ((i + 1) % 65536)
  missed : ∀ ssrc seqnum after, resendAsRtx sender ssrc seqnum = .ok (after, none) →
    ∀ rtxSsrc, nextSeqnum after rtxSsrc = nextSeqnum sender rtxSsrc
  wrapped : ∀ ssrc seqnum after rtx, resendAsRtx sender ssrc seqnum = .ok (after, some rtx) →
    ∃ (header : RtpHeader) (payload : Bytes) (number : UInt16),
      lastRemembered ssrc seqnum none calls = some (header.bytes ++ payload) ∧
      rtx = { header with sequence := number, ssrc := toRtxSsrc ssrc }.bytes ++
        (bytes16 header.sequence.toNat ++ payload)
  found : TwoGenerationCache.InOrder start (calls.filterMap stored) →
    ∀ before outgoing departed after ssrc seqnum now,
      calls = before ++ .rememberSent outgoing departed :: after →
      getSsrc outgoing = .ok ssrc.toNat → getSequence outgoing = .ok seqnum.toNat →
      (∀ later ∈ after.filterMap stored, later.1 ≤ now) → now < departed + limit →
      ∃ packet, lastRemembered ssrc seqnum none calls = some packet ∧
        (∀ last, resendAsRtx sender ssrc seqnum ≠ .ok (last, none)) ∧
        (WellFormed packet → ∃ last rtx, resendAsRtx sender ssrc seqnum = .ok (last, some rtx))

theorem counted_new (limit start : Nat) : Counted (new limit start) [] := by
  intro rtxSsrc
  exact ⟨rfl, rfl⟩

/-- The cache knows a packet only as the last one of its number. -/
theorem kept_last {limit start : Nat} {calls : List Call} {sender : RtxSender}
    {packets : List Bytes} (ran : run (new limit start) calls = .ok (sender, packets))
    (ssrc : UInt32) (seqnum : UInt16) :
    sender.previouslySentBySeqnum.get (ssrc, seqnum) = none ∨
      sender.previouslySentBySeqnum.get (ssrc, seqnum) =
        lastRemembered ssrc seqnum none calls := by
  rw [cache_run calls ran, ← latest_stored ssrc seqnum calls none]
  exact TwoGenerationCache.latest_run _ _ _ _ (Or.inl rfl)

theorem kept_recent {limit start : Nat} {before after : List Call} {outgoing : Bytes}
    {departed now : Nat} {sender : RtxSender} {packets : List Bytes} {ssrc : UInt32}
    {seqnum : UInt16}
    (ran : run (new limit start) (before ++ .rememberSent outgoing departed :: after) =
      .ok (sender, packets))
    (ordered : TwoGenerationCache.InOrder start
      ((before ++ .rememberSent outgoing departed :: after).filterMap stored))
    (first : getSsrc outgoing = .ok ssrc.toNat) (second : getSequence outgoing = .ok seqnum.toNat)
    (past : ∀ later ∈ after.filterMap stored, later.1 ≤ now) (soon : now < departed + limit) :
    sender.previouslySentBySeqnum.get (ssrc, seqnum) ≠ none := by
  have event := stored_remembered first second departed
  rw [UInt32.ofNat_toNat, UInt16.ofNat_toNat] at event
  rw [List.filterMap_append, List.filterMap_cons_some event] at ordered
  rw [cache_run _ ran, List.filterMap_append, List.filterMap_cons_some event,
    TwoGenerationCache.run_append]
  have lasting : (TwoGenerationCache.run (new limit start).previouslySentBySeqnum
      (before.filterMap stored)).generationLifetime = limit :=
    TwoGenerationCache.lifetime_run _ _
  have held := @TwoGenerationCache.held_inserted _ _ _
    (TwoGenerationCache.run (new limit start).previouslySentBySeqnum (before.filterMap stored))
    (departed, .insert (ssrc, seqnum) outgoing) (ssrc, seqnum) outgoing (if_pos rfl)
  rw [TwoGenerationCache.run_cons]
  refine TwoGenerationCache.found_run _ _ outgoing departed held ?_
    (TwoGenerationCache.inOrder_after ordered) ?_
  · rw [TwoGenerationCache.lifetime_step]
  · intro later member
    obtain ⟨call, _, is⟩ := List.mem_filterMap.mp member
    rw [lasting]
    exact ⟨stored_inserts is _, Nat.lt_of_le_of_lt (past later member) soon⟩

theorem rtx_sequence_space (limit start : Nat) (calls : List Call) (sender : RtxSender)
    (packets : List Bytes) (ran : run (new limit start) calls = .ok (sender, packets)) :
    RtxSequenceSpace limit start calls sender packets where
  numbered rtxSsrc := (counted_run calls (counted_new limit start) ran rtxSsrc).1
  missed := by
    intro ssrc seqnum after missed
    obtain ⟨_, ⟨_, _, unmoved⟩ | ⟨packet, rtx, found, _⟩⟩ := resend_cases missed
    · exact unmoved
    · cases found
  wrapped := by
    intro ssrc seqnum after rtx resent
    obtain ⟨_, ⟨found, _⟩ | ⟨packet, own, found, kept, made, _⟩⟩ := resend_cases resent
    · cases found
    · cases found
      obtain ⟨header, payload, rfl, rfl⟩ := packetToRtx_inv made
      refine ⟨header, payload, _, ?_, rfl⟩
      rcases kept_last ran ssrc seqnum with gone | same
      · rw [kept] at gone
        cases gone
      · rw [← same, kept]
  found := by
    intro ordered before outgoing departed after ssrc seqnum now whole first second past soon
    subst whole
    have known := kept_recent ran ordered first second past soon
    obtain ⟨packet, kept⟩ := Option.ne_none_iff_exists'.mp known
    refine ⟨packet, ?_, ?_, ?_⟩
    · rcases kept_last ran ssrc seqnum with gone | same
      · exact absurd gone known
      · rw [← same, kept]
    · intro last missed
      obtain ⟨_, ⟨_, gone, _⟩ | ⟨_, _, found, _⟩⟩ := resend_cases missed
      · exact known gone
      · cases found
    · intro valid
      obtain ⟨header, payload, rfl⟩ := (wellFormed_iff_header packet).mp valid
      unfold resendAsRtx
      simp only [getNextSeqnumMut_cache, kept, packetToRtx_header, ok_bind, pure_eq_ok]
      exact ⟨_, _, rfl⟩

/-- A packet that is asked for twice, and one that was never sent. -/
def sentPacket : Bytes := [0x80, 96, 0, 7, 0, 0, 0, 1, 0, 0, 0, 9, 5]

def sentCalls : List Call :=
  [.resendAsRtx 9 7, .rememberSent sentPacket 3, .resendAsRtx 9 7, .resendAsRtx 9 8,
    .resendAsRtx 9 7]

theorem rtx_sequence_space_sent :
    ∃ sender packets, run (new 10 0) sentCalls = .ok (sender, packets) ∧
      packets.map getSequence = [.ok 1, .ok 2] ∧
      RtxSequenceSpace 10 0 sentCalls sender packets :=
  ⟨_, _, rfl, rfl, rtx_sequence_space 10 0 sentCalls _ _ rfl⟩

end Results

end RtxSender
