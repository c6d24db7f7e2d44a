import Nebula.Media.Vp8Forwarding
import Mathlib.Data.Nat.ModEq

/- Forwarded streams go on over the switches of their layers: what stays between two switches,
   what grows with one, and when a packet from before a switch is recognised. -/
namespace Vp8Forwarding
open ByteStrings RtpPacket
open TransportFeedback (expandTruncatedCounter expandTruncatedCounter_near
  expandTruncatedCounter_mod)

section Rewriting

theorem checkedAdd_switch {most first : Vp8RewrittenIds}
    (done : most.checkedAdd ⟨2, 1, 1, 1⟩ = some first) (counter : Counter) :
    most.get counter < first.get counter := by
  have sum := Vp8RewrittenIds.checkedAdd_some done counter
  have positive : 0 < Vp8RewrittenIds.get ⟨2, 1, 1, 1⟩ counter := by cases counter <;> decide
  omega

/-- The full ids are the truncated ones of the packet up to whole cycles. -/
theorem expand_mod (ids most : Vp8RewrittenIds) (counter : Counter) :
    (ids.expand most Prod.fst).get counter ≡ ids.get counter [MOD 2 ^ counter.width] := by
  have word : counter.width ≤ 64 := by cases counter <;> decide
  unfold Nat.ModEq
  rw [Vp8RewrittenIds.get_expand]
  exact expandTruncatedCounter_mod word _ _

/-- The ids that a packet is sent with. -/
structure SentAs (forward : ForwardState) (most after : Vp8RewrittenIds)
    (incoming outgoing : Vp8RewrittenIds) : Prop where
  later : ∀ counter, forward.firstIncoming.get counter ≤ incoming.get counter
  moved : ∀ counter, outgoing.get counter + forward.firstIncoming.get counter =
    forward.firstOutgoing.get counter + incoming.get counter
  most : ∀ counter, after.get counter = Nat.max (most.get counter) (outgoing.get counter)

theorem forwarded_state (forward : ForwardState) (most : Vp8RewrittenIds) (switched : Bool)
    (ids : Vp8RewrittenIds) :
    (forwarded forward most switched ids).forward =
        { forward with maxIncoming := ids.expand forward.maxIncoming Prod.snd } ∧
      (forwarded forward most switched ids).switched = switched := by
  unfold forwarded
  simp only
  split
  · exact ⟨rfl, rfl⟩
  · exact ⟨rfl, rfl⟩

theorem forwarded_refused {forward : ForwardState} {most : Vp8RewrittenIds} {switched : Bool}
    {ids : Vp8RewrittenIds} (refused : (forwarded forward most switched ids).outgoing = none) :
    (forwarded forward most switched ids).maxOutgoing = most := by
  unfold forwarded at refused ⊢
  simp only at refused ⊢
  split at refused
  · rfl
  · cases refused

theorem forwarded_sent {forward : ForwardState} {most outgoing : Vp8RewrittenIds}
    {switched : Bool} {ids : Vp8RewrittenIds}
    (sent : (forwarded forward most switched ids).outgoing = some outgoing) :
    SentAs forward most (forwarded forward most switched ids).maxOutgoing
      (ids.expand forward.maxIncoming Prod.fst) outgoing := by
  unfold forwarded at sent ⊢
  simp only at sent ⊢
  split at sent
  · cases sent
  · rename_i result done
    obtain rfl := Option.some.inj sent
    obtain ⟨offset, subtracted, added⟩ := Option.bind_eq_some_iff.mp done
    refine ⟨fun counter => (Vp8RewrittenIds.checkedSub_some subtracted counter).1, ?_, ?_⟩
    · intro counter
      have difference := (Vp8RewrittenIds.checkedSub_some subtracted counter).2
      have sum := Vp8RewrittenIds.checkedAdd_some added counter
      omega
    · intro counter
      exact Vp8RewrittenIds.get_max _ _ counter

/-- An id that is less than the first one refuses the packet. -/
theorem forwarded_older {forward : ForwardState} {most : Vp8RewrittenIds} {switched : Bool}
    {ids : Vp8RewrittenIds} {counter : Counter}
    (older : (ids.expand forward.maxIncoming Prod.fst).get counter <
      forward.firstIncoming.get counter) :
    (forwarded forward most switched ids).outgoing = none := by
  cases result : (forwarded forward most switched ids).outgoing with
  | none => rfl
  | some outgoing => exact absurd ((forwarded_sent result).later counter) (Nat.not_le.mpr older)

end Rewriting

section Steps
variable {Uuid : Type} [DecidableEq Uuid] (ssrcOf : Uuid → UInt32)
  (random : Uuid → UInt16 × UInt32)

/-- What a packet that has its ids does to a sender. -/
structure Takes (sender after : VideoStreamSenderLocal Uuid) (record : Record Uuid) : Prop where
  own : after.forward ssrcOf random record.src =
    (rewrite (sender.forward ssrcOf random record.src) sender.maxOutgoing record.ssrc
      record.incoming).forward
  other : ∀ src, src ≠ record.src →
    after.forward ssrcOf random src = sender.forward ssrcOf random src
  switched : record.switched = (rewrite (sender.forward ssrcOf random record.src)
    sender.maxOutgoing record.ssrc record.incoming).switched
  outgoing : record.outgoing = (rewrite (sender.forward ssrcOf random record.src)
    sender.maxOutgoing record.ssrc record.incoming).outgoing
  most : after.maxOutgoing = (rewrite (sender.forward ssrcOf random record.src)
    sender.maxOutgoing record.ssrc record.incoming).maxOutgoing
  before : record.before = sender.maxOutgoing
  later : record.after = after.maxOutgoing
  truncated : ∀ counter, record.incoming.get counter < 2 ^ counter.width

theorem incomingIds_lt {packet : Bytes} {ids : Vp8RewrittenIds}
    (read : incomingIds packet = .ok (some ids)) (counter : Counter) :
    ids.get counter < 2 ^ counter.width := by
  obtain ⟨payload, header, given, parsed, id, idx, first, second⟩ := incomingIds_some read
  obtain ⟨b0, x, high, low, t, rest, _, _, picture, index⟩ := Vp8.read_ids parsed id idx
  cases counter with
  | seqnum => exact readU16_lt first
  | timestamp => exact readU32_lt second
  | pictureId =>
    show ids.pictureId < 32768
    omega
  | tl0PicIdx =>
    have byte := t.toNat_lt
    show ids.tl0PicIdx < 256
    omega

variable {ssrcOf random}

theorem forward_insert (sender : VideoStreamSenderLocal Uuid) (src other : Uuid)
    (forward : ForwardState) (most : Vp8RewrittenIds) :
    VideoStreamSenderLocal.forward ssrcOf random { sender with
        forwardStates := sender.forwardStates.insert src forward, maxOutgoing := most } other =
      if other = src then forward else sender.forward ssrcOf random other := by
  unfold VideoStreamSenderLocal.forward
  rw [IndexMap.lookup_insert]
  split
  · rfl
  · rfl

/-- A packet without its ids changes nothing that matters later. -/
theorem receiveRtp_none {sender after : VideoStreamSenderLocal Uuid} {src : Uuid} {packet : Bytes}
    (done : receiveRtp ssrcOf random sender src packet = .ok (after, none)) :
    (∀ other, after.forward ssrcOf random other = sender.forward ssrcOf random other) ∧
      after.maxOutgoing = sender.maxOutgoing := by
  obtain ⟨ids, _, done⟩ := bind_ok_inv done
  cases ids with
  | none =>
    obtain ⟨rfl, _⟩ := Prod.mk.inj (Except.ok.inj done)
    refine ⟨fun other => ?_, rfl⟩
    rw [forward_insert sender src other _ sender.maxOutgoing]
    split
    · rename_i same
      rw [same]
    · rfl
  | some incoming =>
    obtain ⟨ssrc, _, done⟩ := bind_ok_inv done
    obtain ⟨sent, _, done⟩ := bind_ok_inv done
    cases (Prod.mk.inj (Except.ok.inj done)).2

theorem receiveRtp_some {sender after : VideoStreamSenderLocal Uuid} {src : Uuid} {packet : Bytes}
    {record : Record Uuid}
    (done : receiveRtp ssrcOf random sender src packet = .ok (after, some record)) :
    Takes ssrcOf random sender after record := by
  obtain ⟨ids, read, done⟩ := bind_ok_inv done
  cases ids with
  | none => cases (Prod.mk.inj (Except.ok.inj done)).2
  | some incoming =>
    obtain ⟨ssrc, _, done⟩ := bind_ok_inv done
    obtain ⟨sent, _, done⟩ := bind_ok_inv done
    obtain ⟨rfl, made⟩ := Prod.mk.inj (Except.ok.inj done)
    obtain rfl := Option.some.inj made
    refine ⟨?_, ?_, rfl, rfl, rfl, rfl, rfl, incomingIds_lt read⟩
    · rw [forward_insert, if_pos rfl]
    · intro other differs
      rw [forward_insert, if_neg differs]

/-- The packet that is sent has the outgoing ids, truncated. -/
theorem receiveRtp_sent {sender after : VideoStreamSenderLocal Uuid} {src : Uuid} {packet : Bytes}
    {record : Record Uuid} {outgoing : Vp8RewrittenIds}
    (done : receiveRtp ssrcOf random sender src packet = .ok (after, some record))
    (goes : record.outgoing = some outgoing) :
    ∃ sent ids, record.sent = some sent ∧ incomingIds sent = .ok (some ids) ∧
      ∀ counter, ids.get counter = outgoing.get counter % 2 ^ counter.width := by
  obtain ⟨ids, read, done⟩ := bind_ok_inv done
  cases ids with
  | none => cases (Prod.mk.inj (Except.ok.inj done)).2
  | some incoming =>
    obtain ⟨ssrc, _, done⟩ := bind_ok_inv done
    obtain ⟨sent, making, done⟩ := bind_ok_inv done
    obtain rfl := Option.some.inj (Prod.mk.inj (Except.ok.inj done)).2
    obtain ⟨payload, header, given, parsed, id, idx, _⟩ := incomingIds_some read
    simp only at goes
    rw [goes] at making
    obtain ⟨marker, _, making⟩ := bind_ok_inv making
    rw [given] at making
    obtain ⟨made, ids, run, reread, _, truncated⟩ := outgoingPacket_ok
      (sender.forward ssrcOf random src).outRtpPacket outgoing marker parsed id idx
    rw [ok_bind, run] at making
    obtain rfl := Except.ok.inj making
    exact ⟨made, ids, rfl, reread, truncated⟩

end Steps

section Effects
variable {Uuid : Type} [DecidableEq Uuid] {ssrcOf : Uuid → UInt32}
  {random : Uuid → UInt16 × UInt32} {sender after : VideoStreamSenderLocal Uuid}
  {record : Record Uuid}

/-- The state that a packet is forwarded with: that of the layer so far, or that of a new layer,
    which goes on after all that was sent. -/
inductive Stage (forward : ForwardState) (most : Vp8RewrittenIds) (record : Record Uuid) :
    ForwardState → Vp8RewrittenIds → Prop where
  | same (stream : record.ssrc = forward.incomingSsrc) (kept : record.switched = false) :
      Stage forward most record forward most
  | switch (stream : record.ssrc ≠ forward.incomingSsrc) (switched : record.switched = true)
      (first : Vp8RewrittenIds) (above : ∀ counter, most.get counter < first.get counter) :
      Stage forward most record
        { forward with
          incomingSsrc := record.ssrc
          firstIncoming := record.incoming
          firstOutgoing := first
          maxIncoming := record.incoming } first

/-- A packet that takes part in a layer is forwarded from a stage; the one of a switch that would
    leave the 64 bits is not. -/
theorem Takes.cases (takes : Takes ssrcOf random sender after record) :
    (record.ssrc ≠ (sender.forward ssrcOf random record.src).incomingSsrc ∧
      record.switched = false ∧ record.outgoing = none ∧
      after.maxOutgoing = sender.maxOutgoing ∧
      after.forward ssrcOf random record.src =
        { sender.forward ssrcOf random record.src with incomingSsrc := record.ssrc }) ∨
    ∃ stage most, Stage (sender.forward ssrcOf random record.src) sender.maxOutgoing record
        stage most ∧
      after.forward ssrcOf random record.src =
        { stage with
          maxIncoming := record.incoming.expand stage.maxIncoming Prod.snd } ∧
      record.outgoing = (forwarded stage most record.switched record.incoming).outgoing ∧
      after.maxOutgoing = (forwarded stage most record.switched record.incoming).maxOutgoing := by
  obtain ⟨own, _, switched, outgoing, most, _, _, _⟩ := takes
  unfold rewrite at own switched outgoing most
  by_cases stream : record.ssrc ≠ (sender.forward ssrcOf random record.src).incomingSsrc
  · rw [if_pos stream] at own switched outgoing most
    cases sum : sender.maxOutgoing.checkedAdd ⟨2, 1, 1, 1⟩ with
    | none =>
      simp only [sum] at own switched outgoing most
      exact Or.inl ⟨stream, switched, outgoing, most, own⟩
    | some first =>
      simp only [sum] at own switched outgoing most
      rw [(forwarded_state _ _ _ _).1] at own
      rw [(forwarded_state _ _ _ _).2] at switched
      refine Or.inr ⟨_, first, .switch stream switched first (checkedAdd_switch sum), own, ?_, ?_⟩
      · rw [outgoing, switched]
      · rw [most, switched]
  · rw [if_neg stream] at own switched outgoing most
    rw [(forwarded_state _ _ _ _).1] at own
    rw [(forwarded_state _ _ _ _).2] at switched
    refine Or.inr ⟨_, sender.maxOutgoing, .same (not_not.mp stream) switched, own, ?_, ?_⟩
    · rw [outgoing, switched]
    · rw [most, switched]

/-- A packet that was sent, against the state that it left. -/
structure SentFrom (sender after : VideoStreamSenderLocal Uuid) (forward : ForwardState)
    (record : Record Uuid) (outgoing : Vp8RewrittenIds) : Prop where
  stream : forward.incomingSsrc = record.ssrc
  shift : ∀ counter, outgoing.get counter + forward.firstIncoming.get counter ≡
    record.incoming.get counter + forward.firstOutgoing.get counter [MOD 2 ^ counter.width]
  first : ∀ counter, forward.firstOutgoing.get counter ≤ outgoing.get counter
  most : ∀ counter, outgoing.get counter ≤ after.maxOutgoing.get counter

theorem Takes.sent (takes : Takes ssrcOf random sender after record) {outgoing : Vp8RewrittenIds}
    (goes : record.outgoing = some outgoing) :
    SentFrom sender after (after.forward ssrcOf random record.src) record outgoing := by
  obtain ⟨_, _, refused, _⟩ | ⟨stage, most, layer, state, result, greatest⟩ := takes.cases
  · rw [refused] at goes
    cases goes
  · rw [goes] at result
    have sent := forwarded_sent result.symm
    rw [← greatest] at sent
    have stream : stage.incomingSsrc = record.ssrc := by
      cases layer with
      | same stream kept => exact stream.symm
      | switch stream switched first above => rfl
    rw [state]
    refine ⟨stream, fun counter => ?_, fun counter => ?_, fun counter => ?_⟩
    · have full := expand_mod record.incoming stage.maxIncoming counter
      rw [sent.moved counter, Nat.add_comm]
      exact Nat.ModEq.add_right _ full
    · have moved := sent.moved counter
      have later := sent.later counter
      show stage.firstOutgoing.get counter ≤ _
      omega
    · rw [sent.most counter]
      exact Nat.le_max_right _ _

theorem forwarded_most (stage : ForwardState) (most : Vp8RewrittenIds) (switched : Bool)
    (ids : Vp8RewrittenIds) (counter : Counter) :
    most.get counter ≤ (forwarded stage most switched ids).maxOutgoing.get counter := by
  cases result : (forwarded stage most switched ids).outgoing with
  | none => rw [forwarded_refused result]
  | some outgoing =>
    rw [(forwarded_sent result).most counter]
    exact Nat.le_max_left _ _

theorem Takes.most_le (takes : Takes ssrcOf random sender after record) (counter : Counter) :
    sender.maxOutgoing.get counter ≤ after.maxOutgoing.get counter := by
  obtain ⟨_, _, _, same, _⟩ | ⟨stage, most, layer, _, _, greatest⟩ := takes.cases
  · rw [same]
  · have grown := forwarded_most stage most record.switched record.incoming counter
    rw [greatest]
    cases layer with
    | same stream kept => exact grown
    | switch stream switched first above => exact Nat.le_of_lt (Nat.lt_of_lt_of_le (above counter) grown)

/-- The first outgoing ids of a source change only with a switch, which puts them above all that
    was sent. -/
theorem Takes.first (takes : Takes ssrcOf random sender after record) (src : Uuid) :
    (record.switched = true ∧ src = record.src ∧ ∀ counter, sender.maxOutgoing.get counter <
        (after.forward ssrcOf random src).firstOutgoing.get counter) ∨
      ((src = record.src → record.switched = false) ∧
        (after.forward ssrcOf random src).firstOutgoing =
          (sender.forward ssrcOf random src).firstOutgoing) := by
  by_cases own : src = record.src
  · subst own
    obtain ⟨_, kept, _, _, state⟩ | ⟨stage, most, layer, state, _, _⟩ := takes.cases
    · rw [state]
      exact Or.inr ⟨fun _ => kept, rfl⟩
    · rw [state]
      cases layer with
      | same stream kept => exact Or.inr ⟨fun _ => kept, rfl⟩
      | switch stream switched first above => exact Or.inl ⟨switched, rfl, above⟩
  · rw [takes.other src own]
    exact Or.inr ⟨fun same => absurd same own, rfl⟩

/-- The state of a layer but for the largest ids that came. -/
structure SameLayer (left right : ForwardState) : Prop where
  ssrc : right.incomingSsrc = left.incomingSsrc
  firstIncoming : right.firstIncoming = left.firstIncoming
  firstOutgoing : right.firstOutgoing = left.firstOutgoing

theorem SameLayer.trans {first second third : ForwardState} (left : SameLayer first second)
    (right : SameLayer second third) : SameLayer first third :=
  ⟨right.ssrc.trans left.ssrc, right.firstIncoming.trans left.firstIncoming,
    right.firstOutgoing.trans left.firstOutgoing⟩

/-- Packets of other sources, and those on the SSRC of the layer, leave the layer. -/
theorem Takes.sameLayer (takes : Takes ssrcOf random sender after record) (src : Uuid)
    (stream : record.src = src → record.ssrc = (sender.forward ssrcOf random src).incomingSsrc) :
    SameLayer (sender.forward ssrcOf random src) (after.forward ssrcOf random src) := by
  by_cases own : src = record.src
  · subst own
    have stays := stream rfl
    obtain ⟨moved, _⟩ | ⟨stage, most, layer, state, _, _⟩ := takes.cases
    · exact absurd stays moved
    · rw [state]
      cases layer with
      | same stream kept => exact ⟨rfl, rfl, rfl⟩
      | switch moved switched first above => exact absurd stays moved
  · rw [takes.other src own]
    exact ⟨rfl, rfl, rfl⟩

end Effects

section Runs
variable {Uuid : Type} [DecidableEq Uuid] (ssrcOf : Uuid → UInt32)
  (random : Uuid → UInt16 × UInt32)

/-- The packets of a run that had their ids, in their order; a panic ends the run. -/
def records (sender : VideoStreamSenderLocal Uuid) : List (Uuid × Bytes) → List (Record Uuid)
  | [] => []
  | (src, packet) :: rest =>
    match receiveRtp ssrcOf random sender src packet with
    | .error _ => []
    | .ok (after, none) => records after rest
    | .ok (after, some record) => record :: records after rest

def Path : VideoStreamSenderLocal Uuid → List (Record Uuid) → Prop
  | _, [] => True
  | sender, record :: rest => ∃ after, Takes ssrcOf random sender after record ∧ Path after rest

variable {ssrcOf random}

/-- A path starts as well from a sender that agrees on what matters. -/
theorem Path.of_agree {sender other : VideoStreamSenderLocal Uuid} {rest : List (Record Uuid)}
    (forwards : ∀ src, sender.forward ssrcOf random src = other.forward ssrcOf random src)
    (most : sender.maxOutgoing = other.maxOutgoing) (path : Path ssrcOf random sender rest) :
    Path ssrcOf random other rest := by
  cases rest with
  | nil => trivial
  | cons record rest =>
    obtain ⟨after, takes, path⟩ := path
    obtain ⟨own, others, switched, outgoing, greatest, before, later, truncated⟩ := takes
    rw [forwards, most] at own switched outgoing greatest
    refine ⟨after, ⟨own, ?_, switched, outgoing, greatest, before.trans most, later, truncated⟩,
      path⟩
    intro src differs
    rw [← forwards src]
    exact others src differs

theorem records_path (sender : VideoStreamSenderLocal Uuid) (events : List (Uuid × Bytes)) :
    Path ssrcOf random sender (records ssrcOf random sender events) := by
  induction events generalizing sender with
  | nil => trivial
  | cons event rest ih =>
    obtain ⟨src, packet⟩ := event
    unfold records
    cases done : receiveRtp ssrcOf random sender src packet with
    | error fault => trivial
    | ok result =>
      obtain ⟨after, record⟩ := result
      cases record with
      | none =>
        obtain ⟨forwards, most⟩ := receiveRtp_none done
        exact (ih after).of_agree forwards most
      | some record => exact ⟨after, receiveRtp_some done, ih after⟩

theorem Path.split {sender : VideoStreamSenderLocal Uuid} {front rest : List (Record Uuid)}
    {record : Record Uuid} (path : Path ssrcOf random sender (front ++ record :: rest)) :
    ∃ before after, Takes ssrcOf random before after record ∧ Path ssrcOf random after rest := by
  induction front generalizing sender with
  | nil =>
    obtain ⟨after, takes, path⟩ := path
    exact ⟨sender, after, takes, path⟩
  | cons head front ih =>
    obtain ⟨after, _, path⟩ := path
    exact ih path

/-- A second packet of the same source and SSRC, without one on another SSRC in between. -/
structure OneLayer (first : Record Uuid) (between : List (Record Uuid)) (second : Record Uuid) :
    Prop where
  src : second.src = first.src
  ssrc : second.ssrc = first.ssrc
  between : ∀ record ∈ between, record.src = first.src → record.ssrc = first.ssrc

/-- The state of the layer when the second packet comes. -/
theorem Path.oneLayer {sender : VideoStreamSenderLocal Uuid} {between rest : List (Record Uuid)}
    {second : Record Uuid} {src : Uuid}
    (path : Path ssrcOf random sender (between ++ second :: rest))
    (streams : ∀ record ∈ between, record.src = src →
      record.ssrc = (sender.forward ssrcOf random src).incomingSsrc) :
    ∃ before after, Takes ssrcOf random before after second ∧
      SameLayer (sender.forward ssrcOf random src) (before.forward ssrcOf random src) := by
  induction between generalizing sender with
  | nil =>
    obtain ⟨after, takes, _⟩ := path
    exact ⟨sender, after, takes, rfl, rfl, rfl⟩
  | cons head between ih =>
    obtain ⟨next, takes, path⟩ := path
    have kept := takes.sameLayer src (streams head List.mem_cons_self)
    have onward : ∀ record ∈ between, record.src = src →
        record.ssrc = (next.forward ssrcOf random src).incomingSsrc := by
      intro record member own
      rw [kept.ssrc]
      exact streams record (List.mem_cons_of_mem _ member) own
    obtain ⟨before, after, last, layer⟩ := ih path onward
    exact ⟨before, after, last, kept.trans layer⟩

/-- What was sent stays below the first outgoing ids of a later switch. -/
theorem Path.above {sender : VideoStreamSenderLocal Uuid} {between rest : List (Record Uuid)}
    {second : Record Uuid} {src : Uuid} {sent : Vp8RewrittenIds}
    (path : Path ssrcOf random sender (between ++ second :: rest))
    (below : ∀ counter, sent.get counter ≤ sender.maxOutgoing.get counter)
    (switches : (∃ record ∈ between ++ [second], record.src = src ∧ record.switched = true) ∨
      ∀ counter, sent.get counter <
        (sender.forward ssrcOf random src).firstOutgoing.get counter) :
    ∃ before after, Takes ssrcOf random before after second ∧
      ∀ counter, sent.get counter <
        (after.forward ssrcOf random src).firstOutgoing.get counter := by
  have step : ∀ {before after : VideoStreamSenderLocal Uuid} {record : Record Uuid}
      {others : List (Record Uuid)}, Takes ssrcOf random before after record →
      (∀ counter, sent.get counter ≤ before.maxOutgoing.get counter) →
      ((∃ other ∈ record :: others, other.src = src ∧ other.switched = true) ∨
        ∀ counter, sent.get counter <
          (before.forward ssrcOf random src).firstOutgoing.get counter) →
      (∃ other ∈ others, other.src = src ∧ other.switched = true) ∨
        ∀ counter, sent.get counter <
          (after.forward ssrcOf random src).firstOutgoing.get counter := by
    intro before after record others takes below switches
    rcases takes.first src with ⟨_, _, above⟩ | ⟨kept, same⟩
    · exact Or.inr fun counter => Nat.lt_of_le_of_lt (below counter) (above counter)
    · rw [same]
      refine switches.imp_left ?_
      rintro ⟨other, member, own, switched⟩
      rcases List.mem_cons.mp member with rfl | member
      · rw [kept own.symm] at switched
        cases switched
      · exact ⟨other, member, own, switched⟩
  induction between generalizing sender with
  | nil =>
    obtain ⟨after, takes, _⟩ := path
    refine ⟨sender, after, takes, ?_⟩
    rcases step takes below switches with ⟨other, member, _⟩ | above
    · cases member
    · exact above
  | cons head between ih =>
    obtain ⟨next, takes, path⟩ := path
    exact ih path (fun counter => Nat.le_trans (below counter) (takes.most_le counter))
      (step takes below switches)

end Runs

section Numbers

/-- The number nearest to a reference that is truncated so. -/
def nearest (cycle : Nat) (reference : Int) (truncated : Nat) : Int :=
  reference + Int.bmod (truncated - reference) cycle

theorem nearest_mod (cycle : Nat) (reference : Int) (truncated : Nat) :
    nearest cycle reference truncated % cycle = (truncated : Int) % cycle := by
  have whole := Int.bmod_add_bdiv (truncated - reference) cycle
  have apart : nearest cycle reference truncated =
      truncated + cycle * (- Int.bdiv (truncated - reference) cycle) := by
    unfold nearest
    rw [Int.mul_neg]
    omega
  rw [apart, Int.add_mul_emod_self_left]

/-- The numbers that the ids of a packet stand for, next to the largest ones so far. -/
def unwrap (top : Counter → Int) (ids : Vp8RewrittenIds) (counter : Counter) : Int :=
  nearest (2 ^ counter.width) (top counter) (ids.get counter)

def raise (top : Counter → Int) (ids : Vp8RewrittenIds) (counter : Counter) : Int :=
  max (top counter) (unwrap top ids counter)

def start (first : Vp8RewrittenIds) (counter : Counter) : Int := first.get counter

def WithinHalf (top : Counter → Int) (ids : Vp8RewrittenIds) : Prop :=
  ∀ counter, (unwrap top ids counter - top counter).natAbs < 2 ^ (counter.width - 1)

/-- Each packet is within half the range of the largest ids before it. -/
def InWindow (top : Counter → Int) : List Vp8RewrittenIds → Prop
  | [] => True
  | ids :: rest => WithinHalf top ids ∧ InWindow (raise top ids) rest

/-- No packet is from before the wrap of a counter that the first one came after. -/
def AfterWrap (top : Counter → Int) : List Vp8RewrittenIds → Prop
  | [] => True
  | ids :: rest => (∀ counter, 0 ≤ unwrap top ids counter) ∧ AfterWrap (raise top ids) rest

/-- The largest numbers so far are those that the state of the layer has, as long as they fit into
    64 bits. -/
def Tracks (top : Counter → Int) (most : Vp8RewrittenIds) : Prop :=
  ∀ counter, 0 ≤ top counter ∧ (top counter < 2 ^ 64 → top counter = most.get counter)

theorem expand_unwrap {top : Counter → Int} {most ids : Vp8RewrittenIds}
    (tracks : Tracks top most) (window : WithinHalf top ids) {counter : Counter}
    (truncated : ids.get counter < 2 ^ counter.width)
    (after : 0 ≤ unwrap top ids counter) (word : unwrap top ids counter < 2 ^ 64)
    (topWord : top counter < 2 ^ 64) :
    ((ids.expand most Prod.fst).get counter : Int) = unwrap top ids counter ∧
      ((ids.expand most Prod.snd).get counter : Int) = raise top ids counter := by
  have same := (tracks counter).2 topWord
  have near := window counter
  have wide : 0 < counter.width := by cases counter <;> decide
  obtain ⟨full, value⟩ := Int.eq_ofNat_of_zero_le after
  have rest : full % 2 ^ counter.width = ids.get counter := by
    have wrapped := nearest_mod (2 ^ counter.width) (top counter) (ids.get counter)
    change unwrap top ids counter % _ = _ at wrapped
    rw [value] at wrapped
    have small := Nat.mod_eq_of_lt truncated
    omega
  have half : (unwrap top ids counter - top counter).natAbs < 2 ^ (counter.width - 1) := near
  rw [value, same] at half
  have expanded := @expandTruncatedCounter_near full (most.get counter) counter.width wide
    (by omega) (by omega) (by omega)
  rw [rest] at expanded
  unfold raise
  rw [Vp8RewrittenIds.get_expand, Vp8RewrittenIds.get_expand, expanded, value, same]
  refine ⟨rfl, ?_⟩
  simp only
  split
  · omega
  · omega

theorem Tracks.raise {top : Counter → Int} {most ids : Vp8RewrittenIds} (tracks : Tracks top most)
    (window : WithinHalf top ids) (truncated : ∀ counter, ids.get counter < 2 ^ counter.width)
    (after : ∀ counter, 0 ≤ unwrap top ids counter) :
    Tracks (raise top ids) (ids.expand most Prod.snd) := by
  intro counter
  have atLeast : top counter ≤ Vp8Forwarding.raise top ids counter := Int.le_max_left _ _
  have covers : unwrap top ids counter ≤ Vp8Forwarding.raise top ids counter := Int.le_max_right _ _
  refine ⟨Int.le_trans (tracks counter).1 atLeast, fun word => ?_⟩
  exact (expand_unwrap tracks window (truncated counter) (after counter) (by omega)
    (by omega)).2.symm

theorem Tracks.start {ids : Vp8RewrittenIds}
    (truncated : ∀ counter, ids.get counter < 2 ^ counter.width) :
    Tracks (start ids) (ids.expand ids Prod.snd) := by
  intro counter
  have fits := truncated counter
  have positive := Nat.two_pow_pos (counter.width - 1)
  have wide : 0 < counter.width := by cases counter <;> decide
  have word : 2 ^ counter.width ≤ 2 ^ 64 := by cases counter <;> decide
  have expanded := @expandTruncatedCounter_near (ids.get counter) (ids.get counter) counter.width
    wide (by omega) (by omega) (by omega)
  rw [Nat.mod_eq_of_lt fits, if_neg (Nat.lt_irrefl _)] at expanded
  refine ⟨Int.natCast_nonneg _, fun _ => ?_⟩
  rw [Vp8RewrittenIds.get_expand, expanded]
  rfl

theorem inWindow_last {top : Counter → Int} {seen : List Vp8RewrittenIds} {ids : Vp8RewrittenIds}
    (window : InWindow top (seen ++ [ids])) : WithinHalf (seen.foldl raise top) ids := by
  induction seen generalizing top with
  | nil => exact window.1
  | cons head seen ih => exact ih window.2

theorem afterWrap_last {top : Counter → Int} {seen : List Vp8RewrittenIds} {ids : Vp8RewrittenIds}
    (after : AfterWrap top (seen ++ [ids])) (counter : Counter) :
    0 ≤ unwrap (seen.foldl raise top) ids counter := by
  induction seen generalizing top with
  | nil => exact after.1 counter
  | cons head seen ih => exact ih after.2

end Numbers

section Older
variable {Uuid : Type} [DecidableEq Uuid] {ssrcOf : Uuid → UInt32}
  {random : Uuid → UInt16 × UInt32} {sender after : VideoStreamSenderLocal Uuid}

/-- The ids of the packets of a source. -/
def idsOf (src : Uuid) (between : List (Record Uuid)) : List Vp8RewrittenIds :=
  (between.filter fun record => record.src = src).map Record.incoming

/-- The state of a source after one more packet of its layer. -/
theorem Takes.maxIncoming {record : Record Uuid} (takes : Takes ssrcOf random sender after record)
    (stream : record.ssrc = (sender.forward ssrcOf random record.src).incomingSsrc) :
    (after.forward ssrcOf random record.src).maxIncoming =
      record.incoming.expand (sender.forward ssrcOf random record.src).maxIncoming Prod.snd := by
  obtain ⟨moved, _⟩ | ⟨stage, most, layer, state, _, _⟩ := takes.cases
  · exact absurd stream moved
  · rw [state]
    cases layer with
    | same stream kept => rfl
    | switch moved switched first above => exact absurd stream moved

theorem Path.tracked {between rest : List (Record Uuid)} {second : Record Uuid} {src : Uuid}
    {top : Counter → Int} {ids : Vp8RewrittenIds}
    (path : Path ssrcOf random sender (between ++ second :: rest))
    (streams : ∀ record ∈ between, record.src = src →
      record.ssrc = (sender.forward ssrcOf random src).incomingSsrc)
    (tracks : Tracks top (sender.forward ssrcOf random src).maxIncoming)
    (window : InWindow top (idsOf src between ++ [ids]))
    (unwrapped : AfterWrap top (idsOf src between ++ [ids])) :
    ∃ before after, Takes ssrcOf random before after second ∧
      SameLayer (sender.forward ssrcOf random src) (before.forward ssrcOf random src) ∧
      Tracks ((idsOf src between).foldl raise top)
        (before.forward ssrcOf random src).maxIncoming := by
  induction between generalizing sender top with
  | nil =>
    obtain ⟨after, takes, _⟩ := path
    exact ⟨sender, after, takes, ⟨rfl, rfl, rfl⟩, tracks⟩
  | cons head between ih =>
    obtain ⟨next, takes, path⟩ := path
    have kept := takes.sameLayer src (streams head List.mem_cons_self)
    have onward : ∀ record ∈ between, record.src = src →
        record.ssrc = (next.forward ssrcOf random src).incomingSsrc := by
      intro record member own
      rw [kept.ssrc]
      exact streams record (List.mem_cons_of_mem _ member) own
    by_cases own : head.src = src
    · have first : idsOf src (head :: between) = head.incoming :: idsOf src between := by
        simp [idsOf, own]
      rw [first] at window unwrapped ⊢
      have state := takes.maxIncoming (own ▸ streams head List.mem_cons_self own)
      have raised := tracks.raise window.1 takes.truncated unwrapped.1
      rw [own] at state
      rw [← state] at raised
      obtain ⟨before, after, last, layer, known⟩ := ih path onward raised window.2 unwrapped.2
      exact ⟨before, after, last, kept.trans layer, known⟩
    · have skipped : idsOf src (head :: between) = idsOf src between := by simp [idsOf, own]
      rw [skipped] at window unwrapped ⊢
      have other := takes.other src fun same => own same.symm
      rw [← other] at tracks
      obtain ⟨before, after, last, layer, known⟩ := ih path onward tracks window unwrapped
      exact ⟨before, after, last, kept.trans layer, known⟩

/-- A packet of a layer with a number below the layer's first one is refused. -/
theorem Takes.older {record : Record Uuid} (takes : Takes ssrcOf random sender after record)
    (stream : record.ssrc = (sender.forward ssrcOf random record.src).incomingSsrc)
    {top : Counter → Int}
    (tracks : Tracks top (sender.forward ssrcOf random record.src).maxIncoming)
    (window : WithinHalf top record.incoming)
    (unwrapped : ∀ counter, 0 ≤ unwrap top record.incoming counter) {counter : Counter}
    {bound : Nat} (small : bound < 2 ^ counter.width)
    (first : (sender.forward ssrcOf random record.src).firstIncoming.get counter = bound)
    (older : unwrap top record.incoming counter < bound) :
    record.outgoing = none ∧ record.after = record.before := by
  have near := window counter
  have word : 2 ^ counter.width + 2 ^ (counter.width - 1) ≤ 2 ^ 64 := by cases counter <;> decide
  have value := (expand_unwrap tracks window (takes.truncated counter) (unwrapped counter)
    (by omega) (by omega)).1
  obtain ⟨moved, _⟩ | ⟨stage, most, layer, _, result, greatest⟩ := takes.cases
  · exact absurd stream moved
  · cases layer with
    | switch moved switched first above => exact absurd stream moved
    | same stream kept =>
      have refused : (forwarded (sender.forward ssrcOf random record.src) sender.maxOutgoing
          record.switched record.incoming).outgoing = none := by
        refine @forwarded_older _ _ _ _ counter ?_
        rw [first]
        omega
      refine ⟨result.trans refused, ?_⟩
      rw [takes.later, takes.before, greatest, forwarded_refused refused]

end Older

section Continuity
variable {Uuid : Type} [DecidableEq Uuid]

/-- Continuity of the forwarded streams, for any two packets of a source in a run. The older
    packets are those of which some id comes before that of the first packet of the layer. -/
structure Continuous (run : List (Record Uuid)) : Prop where
  shift : ∀ front first between second later sent next,
    run = front ++ first :: (between ++ second :: later) → OneLayer first between second →
    first.outgoing = some sent → second.outgoing = some next →
    ∀ counter, next.get counter + first.incoming.get counter ≡
      sent.get counter + second.incoming.get counter [MOD 2 ^ counter.width]
  grows : ∀ front first between second later sent next,
    run = front ++ first :: (between ++ second :: later) → second.src = first.src →
    (∃ record ∈ between ++ [second], record.src = first.src ∧ record.switched = true) →
    first.outgoing = some sent → second.outgoing = some next →
    ∀ counter, sent.get counter < next.get counter
  refuses : ∀ front first between second later,
    run = front ++ first :: (between ++ second :: later) → first.switched = true →
    OneLayer first between second →
    InWindow (start first.incoming) (idsOf first.src between ++ [second.incoming]) →
    (∃ counter, unwrap ((idsOf first.src between).foldl raise (start first.incoming))
      second.incoming counter < first.incoming.get counter) →
    second.outgoing = none ∧ second.after = second.before

/-- After a switch no packet of the layer is from before a wrap of one of its counters. -/
def NoEarlierWrap (run : List (Record Uuid)) : Prop :=
  ∀ front first between second later,
    run = front ++ first :: (between ++ second :: later) → first.switched = true →
    OneLayer first between second →
    AfterWrap (start first.incoming) (idsOf first.src between ++ [second.incoming])

variable {ssrcOf : Uuid → UInt32} {random : Uuid → UInt16 × UInt32}

omit [DecidableEq Uuid] in
theorem OneLayer.streams {first second : Record Uuid} {between : List (Record Uuid)}
    (layer : OneLayer first between second) {forward : ForwardState}
    (stream : forward.incomingSsrc = first.ssrc) :
    ∀ record ∈ between, record.src = first.src → record.ssrc = forward.incomingSsrc := by
  intro record member own
  rw [stream]
  exact layer.between record member own

theorem shift_of_path {sender : VideoStreamSenderLocal Uuid} {front between later : List (Record Uuid)}
    {first second : Record Uuid} {sent next : Vp8RewrittenIds}
    (path : Path ssrcOf random sender (front ++ first :: (between ++ second :: later)))
    (layer : OneLayer first between second) (goes : first.outgoing = some sent)
    (follows : second.outgoing = some next) (counter : Counter) :
    next.get counter + first.incoming.get counter ≡
      sent.get counter + second.incoming.get counter [MOD 2 ^ counter.width] := by
  obtain ⟨_, between1, takes, path⟩ := path.split
  have from1 := takes.sent goes
  obtain ⟨between2, after, last, same⟩ := path.oneLayer (layer.streams from1.stream)
  have stays : second.ssrc = (between2.forward ssrcOf random second.src).incomingSsrc := by
    rw [layer.src, same.ssrc, from1.stream, layer.ssrc]
  have kept := last.sameLayer second.src fun _ => stays
  have from2 := last.sent follows
  have shift1 := from1.shift counter
  have shift2 := from2.shift counter
  rw [kept.firstIncoming, kept.firstOutgoing, layer.src, same.firstIncoming,
    same.firstOutgoing] at shift2
  -- the first ids of the layer cancel out
  have sum := shift2.add shift1.symm
  refine Nat.ModEq.add_right_cancel' (((between1.forward ssrcOf random first.src).firstIncoming.get
    counter) + (between1.forward ssrcOf random first.src).firstOutgoing.get counter) ?_
  have left : next.get counter + first.incoming.get counter +
      ((between1.forward ssrcOf random first.src).firstIncoming.get counter +
        (between1.forward ssrcOf random first.src).firstOutgoing.get counter) =
      next.get counter + (between1.forward ssrcOf random first.src).firstIncoming.get counter +
        (first.incoming.get counter +
          (between1.forward ssrcOf random first.src).firstOutgoing.get counter) := by omega
  have right : sent.get counter + second.incoming.get counter +
      ((between1.forward ssrcOf random first.src).firstIncoming.get counter +
        (between1.forward ssrcOf random first.src).firstOutgoing.get counter) =
      second.incoming.get counter +
          (between1.forward ssrcOf random first.src).firstOutgoing.get counter +
        (sent.get counter +
          (between1.forward ssrcOf random first.src).firstIncoming.get counter) := by omega
  rw [left, right]
  exact sum

theorem grows_of_path {sender : VideoStreamSenderLocal Uuid} {front between later : List (Record Uuid)}
    {first second : Record Uuid} {sent next : Vp8RewrittenIds}
    (path : Path ssrcOf random sender (front ++ first :: (between ++ second :: later)))
    (own : second.src = first.src)
    (switches : ∃ record ∈ between ++ [second], record.src = first.src ∧ record.switched = true)
    (goes : first.outgoing = some sent) (follows : second.outgoing = some next)
    (counter : Counter) : sent.get counter < next.get counter := by
  obtain ⟨_, _, takes, path⟩ := path.split
  obtain ⟨_, after, last, above⟩ := path.above (takes.sent goes).most (Or.inl switches)
  have least := (last.sent follows).first counter
  rw [own] at least
  exact Nat.lt_of_lt_of_le (above counter) least

/-- The layer that a switch starts. -/
theorem Takes.starts {before after : VideoStreamSenderLocal Uuid} {record : Record Uuid}
    (takes : Takes ssrcOf random before after record) (switched : record.switched = true) :
    (after.forward ssrcOf random record.src).incomingSsrc = record.ssrc ∧
      (after.forward ssrcOf random record.src).firstIncoming = record.incoming ∧
      Tracks (start record.incoming) (after.forward ssrcOf random record.src).maxIncoming := by
  obtain ⟨_, kept, _⟩ | ⟨stage, most, layer, state, _, _⟩ := takes.cases
  · rw [switched] at kept
    cases kept
  · cases layer with
    | same stream kept =>
      rw [switched] at kept
      cases kept
    | switch stream _ first above =>
      rw [state]
      exact ⟨rfl, rfl, Tracks.start takes.truncated⟩

theorem refuses_of_path {sender : VideoStreamSenderLocal Uuid}
    {front between later : List (Record Uuid)} {first second : Record Uuid}
    (path : Path ssrcOf random sender (front ++ first :: (between ++ second :: later)))
    (switched : first.switched = true) (layer : OneLayer first between second)
    (window : InWindow (start first.incoming) (idsOf first.src between ++ [second.incoming]))
    (unwrapped : AfterWrap (start first.incoming) (idsOf first.src between ++ [second.incoming]))
    {counter : Counter}
    (older : unwrap ((idsOf first.src between).foldl raise (start first.incoming))
      second.incoming counter < first.incoming.get counter) :
    second.outgoing = none ∧ second.after = second.before := by
  obtain ⟨_, _, takes, path⟩ := path.split
  obtain ⟨stream, firstIds, tracks⟩ := takes.starts switched
  obtain ⟨_, _, last, same, known⟩ :=
    path.tracked (layer.streams stream) tracks window unwrapped
  have firstSame := same.firstIncoming.trans firstIds
  have stays := same.ssrc.trans stream
  rw [← layer.src] at firstSame stays known
  refine last.older (layer.ssrc.trans stays.symm) known ?_ ?_ (takes.truncated counter)
    (congrArg (fun ids => Vp8RewrittenIds.get ids counter) firstSame) ?_
  · rw [layer.src]
    exact inWindow_last window
  · rw [layer.src]
    exact afterWrap_last unwrapped
  · rw [layer.src]
    exact older

/-- Every run is continuous, as long as no packet of a layer is from before a wrap of one of its
    counters. -/
theorem records_continuous (sender : VideoStreamSenderLocal Uuid) (events : List (Uuid × Bytes))
    (wraps : NoEarlierWrap (records ssrcOf random sender events)) :
    Continuous (records ssrcOf random sender events) where
  shift := by
    intro front first between second later sent next whole layer goes follows counter
    have path := @records_path _ _ ssrcOf random sender events
    rw [whole] at path
    exact shift_of_path path layer goes follows counter
  grows := by
    intro front first between second later sent next whole own switches goes follows counter
    have path := @records_path _ _ ssrcOf random sender events
    rw [whole] at path
    exact grows_of_path path own switches goes follows counter
  refuses := by
    intro front first between second later whole switched layer window older
    obtain ⟨counter, older⟩ := older
    have path := @records_path _ _ ssrcOf random sender events
    rw [whole] at path
    exact refuses_of_path path switched layer window
      (wraps front first between second later whole switched layer) older

end Continuity

section Wrap

/-- A packet within a frame, with both ids. -/
def framePacket (ssrc : UInt32) (sequence : UInt16) : Bytes :=
  (templatePacket ssrc 96 (sequence, 9)).bytes ++ [0x80, 0xc0, 0x80, 5, 7]

/-- What a run of one source says of two packets of one frame. -/
def framesOf (first second : UInt16) : List (Record Nat) :=
  records (fun _ => 3) (fun _ => (0, 0)) (VideoStreamSenderLocal.new 96)
    [(0, framePacket 1 first), (0, framePacket 1 second)]

/-- The packet before number 0 has number 65535, and is sent as if it came 65535 later. -/
theorem packet_before_wrap_sent : ¬ Continuous (framesOf 0 65535) := by
  have run : (framesOf 0 65535).map (fun record =>
      (record.src, record.ssrc, record.incoming, record.switched, record.outgoing)) =
        [(0, 1, ⟨0, 9, 5, 7⟩, true, some ⟨2, 1, 1, 1⟩),
          (0, 1, ⟨65535, 9, 5, 7⟩, false, some ⟨65537, 1, 1, 1⟩)] := by
    decide +kernel
  obtain ⟨first, rest, whole, tellsFirst, tellsRest⟩ := List.map_eq_cons_iff.mp run
  obtain ⟨second, last, rfl, tellsSecond, tellsLast⟩ := List.map_eq_cons_iff.mp tellsRest
  obtain rfl := List.map_eq_nil_iff.mp tellsLast
  simp only [Prod.mk.injEq] at tellsFirst tellsSecond
  obtain ⟨src1, ssrc1, incoming1, switched1, _⟩ := tellsFirst
  obtain ⟨src2, ssrc2, incoming2, _, outgoing2⟩ := tellsSecond
  intro continuous
  have refused := continuous.refuses [] first [] second [] whole switched1
    ⟨src2.trans src1.symm, ssrc2.trans ssrc1.symm, fun record member => by cases member⟩ ?_ ?_
  · rw [outgoing2] at refused
    cases refused.1
  · rw [incoming1, incoming2]
    refine ⟨fun counter => ?_, trivial⟩
    cases counter <;> decide
  · rw [incoming1, incoming2]
    have older : unwrap (start ⟨0, 9, 5, 7⟩) ⟨65535, 9, 5, 7⟩ .seqnum < 0 := by decide
    exact ⟨.seqnum, older⟩

/-- Away from a wrap the packet before the first one is refused. -/
theorem packet_before_first_refused :
    ∃ first second, framesOf 5 4 = [first, second] ∧ second.outgoing = none ∧
      Continuous (framesOf 5 4) := by
  have run : (framesOf 5 4).map (fun record => (record.incoming, record.outgoing)) =
        [(⟨5, 9, 5, 7⟩, some ⟨2, 1, 1, 1⟩), (⟨4, 9, 5, 7⟩, none)] := by
    decide +kernel
  obtain ⟨first, rest, whole, tellsFirst, tellsRest⟩ := List.map_eq_cons_iff.mp run
  obtain ⟨second, last, rfl, tellsSecond, tellsLast⟩ := List.map_eq_cons_iff.mp tellsRest
  obtain rfl := List.map_eq_nil_iff.mp tellsLast
  simp only [Prod.mk.injEq] at tellsFirst tellsSecond
  refine ⟨first, second, whole, tellsSecond.2, records_continuous _ _ ?_⟩
  change NoEarlierWrap (framesOf 5 4)
  rw [whole]
  intro front start between next later split _ _
  have lengths := congrArg List.length split
  simp only [List.length_append, List.length_cons, List.length_nil] at lengths
  obtain rfl := List.length_eq_zero_iff.mp (show front.length = 0 by omega)
  obtain rfl := List.length_eq_zero_iff.mp (show between.length = 0 by omega)
  obtain ⟨rfl, tail⟩ := List.cons.inj split
  obtain ⟨rfl, _⟩ := List.cons.inj tail
  show AfterWrap _ [second.incoming]
  rw [tellsFirst.1, tellsSecond.1]
  refine ⟨fun counter => ?_, trivial⟩
  cases counter <;> decide

end Wrap

end Vp8Forwarding
