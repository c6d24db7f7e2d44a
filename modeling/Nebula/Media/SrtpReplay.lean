import Nebula.Lib.Runs
import Nebula.Media.Rollover
import Nebula.Media.SrtpReception
import Nebula.Media.SrtpRoundTrip

/- Genuine packets and copies of them on one context, beside the genuine packets alone on
   another one. A packet is accepted when its own counter follows from the packet before
   it, whether it was accepted already or not. -/
namespace SrtpReplay
open ByteStrings Srtp Runs Rollover SrtpReception

/-- A packet that a sender with the same keys has sealed under its index, with a tag that
    no other counter verifies. -/
structure Sent (prim : Primitives) (cs : CryptoState) where
  plain : Bytes
  packet : Bytes
  ssrc : Nat
  index : Nat
  formed : RtpPacket.WellFormed plain
  carries : CarriesIndex ssrc index packet
  sealed : encryptRtp prim cs (index / 65536) plain = .ok packet
  tagged : ∀ roc, roc < 4294967296 → auth prim cs (some roc) packet = .ok true →
    roc = index / 65536

structure Receiver where
  ctx : CryptoContext
  redis : RocStore

/-- The receiver with the copies and the one without, what has arrived, the SSRC and index
    under which the first one accepted each packet, and what both made of the genuine ones. -/
structure Reception (prim : Primitives) (cs : CryptoState) where
  attacked : Receiver
  clean : Receiver
  arrived : List (Sent prim cs)
  accepted : List (Nat × Nat)
  results : List (Outcome Bytes)
  cleanResults : List (Outcome Bytes)

/-- A genuine packet arrives, or a copy of the one that is that far back. -/
inductive Event (prim : Primitives) (cs : CryptoState) where
  | genuine (sent : Sent prim cs)
  | copy (back : Nat)

section
variable (prim : Primitives) {cs : CryptoState}

def receive (receiver : Receiver) (packet : Bytes) : Outcome Bytes × Receiver :=
  let (result, ctx, redis) := receiveRtpPacket prim receiver.ctx receiver.redis packet
  (result, ⟨ctx, redis⟩)

/-- The index that the receiver has given to the packet that it has just accepted. -/
def acceptedAs (receiver : Receiver) (packet : Bytes) : Option (Nat × Nat) :=
  match receive prim receiver packet, RtpPacket.getSsrc packet, RtpPacket.getSequence packet with
  | (.ok _, after), .ok ssrc, .ok seq => some (ssrc, (after.ctx.entry ssrc).roc * 65536 + seq)
  | _, _, _ => none

/-- A sender seals no two packets under one index. -/
def New (arrived : List (Sent prim cs)) (sent : Sent prim cs) : Prop :=
  ∀ other ∈ arrived, (other.ssrc, other.index) ≠ (sent.ssrc, sent.index)

instance (arrived : List (Sent prim cs)) (sent : Sent prim cs) :
    Decidable (New prim arrived sent) :=
  inferInstanceAs (Decidable (∀ other ∈ arrived, _))

def reception : Machine (Reception prim cs) (Event prim cs)
  | state, .genuine sent =>
    if New prim state.arrived sent then
      some {
        attacked := (receive prim state.attacked sent.packet).2
        clean := (receive prim state.clean sent.packet).2
        arrived := sent :: state.arrived
        accepted := (acceptedAs prim state.attacked sent.packet).toList ++ state.accepted
        results := (receive prim state.attacked sent.packet).1 :: state.results
        cleanResults := (receive prim state.clean sent.packet).1 :: state.cleanResults }
    else none
  | state, .copy back =>
    match state.arrived[back]? with
    | some sent =>
      some { state with
        attacked := (receive prim state.attacked sent.packet).2
        accepted := (acceptedAs prim state.attacked sent.packet).toList ++ state.accepted }
    | none => none

def begun (ctx : CryptoContext) (redis : RocStore) : Reception prim ctx.state :=
  ⟨⟨ctx, redis⟩, ⟨ctx, redis⟩, [], [], [], []⟩

end

/-- No index is accepted twice, and the genuine packets fare as they do alone. -/
structure Unreplayed {prim : Primitives} {cs : CryptoState} (state : Reception prim cs) : Prop where
  once : state.accepted.Nodup
  same : state.results = state.cleanResults

/-- The packet's own counter is the one that follows from the packet before it: the same
    one, but across a wrap, which is told from sequence numbers within 100 of its ends. -/
def Follows (roc last index : Nat) : Prop :=
  if index % 65536 = 0 then
    if last ≤ 100 then index / 65536 = roc else index / 65536 = wrapIncr roc
  else if last < 100 ∧ 65435 < index % 65536 then index / 65536 = wrapDecr roc
  else if index % 65536 < 100 ∧ 65435 < last then index / 65536 = wrapIncr roc
  else index / 65536 = roc

instance (roc last index : Nat) : Decidable (Follows roc last index) := by
  unfold Follows
  infer_instance

/-- What the receiver expects of the SSRC, from the packet before or from the store. -/
def Expected (receiver : Receiver) (ssrc index : Nat) : Prop :=
  match receiver.ctx.ssrc ssrc with
  | some entry => Follows entry.roc entry.lastSeq index
  | none => index / 65536 = (receiver.redis.hget receiver.ctx.uuid ssrc).getD 0

instance (receiver : Receiver) (ssrc index : Nat) : Decidable (Expected receiver ssrc index) := by
  unfold Expected
  cases receiver.ctx.ssrc ssrc <;> infer_instance

/-- A genuine packet is expected with the copies exactly if it is without them, and a copy
    that is expected is one of a packet that was not accepted. -/
def Guarded (prim : Primitives) (cs : CryptoState) : Guard (Reception prim cs) (Event prim cs)
  | state, .genuine sent =>
    Expected state.attacked sent.ssrc sent.index ↔ Expected state.clean sent.ssrc sent.index
  | state, .copy back => ∀ sent, state.arrived[back]? = some sent →
      Expected state.attacked sent.ssrc sent.index → (sent.ssrc, sent.index) ∉ state.accepted

/-- Entries have seen a packet, and counters have 32 bits. -/
structure Sound (receiver : Receiver) (cs : CryptoState) : Prop where
  state : receiver.ctx.state = cs
  processed : ∀ ssrc entry, receiver.ctx.ssrc ssrc = some entry → entry.rocHasProcessed = true
  named : ∀ ssrc entry, receiver.ctx.ssrc ssrc = some entry → entry.ssrc = ssrc
  small : ∀ ssrc entry, receiver.ctx.ssrc ssrc = some entry → entry.roc < 4294967296

section
variable {prim : Primitives} {cs : CryptoState}

theorem sealed_short {roc : Nat} {plain packet : Bytes}
    (sealed : encryptRtp prim cs roc plain = .ok packet) : cs.tagLen ≤ 20 := by
  unfold encryptRtp at sealed
  obtain ⟨seq, _, sealed⟩ := bind_ok_inv sealed
  obtain ⟨ssrc, _, sealed⟩ := bind_ok_inv sealed
  obtain ⟨offset, _, sealed⟩ := bind_ok_inv sealed
  obtain ⟨payload, _, sealed⟩ := bind_ok_inv sealed
  obtain ⟨tag, tagged, _⟩ := bind_ok_inv sealed
  have inside := (sliceTo_ok_iff.mp tagged).1
  rwa [prim.hmacSha1_length] at inside

/-- A sent packet opens under its own counter. -/
theorem sent_opens (sent : Sent prim cs) :
    decryptRtp prim cs (sent.index / 65536) sent.packet = .ok sent.plain := by
  obtain ⟨packet, sealed, opens⟩ := SrtpRoundTrip.decryptRtp_encryptRtp prim
    (sealed_short sent.sealed) (sent.index / 65536) sent.formed
  rw [sent.sealed] at sealed
  cases sealed
  exact opens

theorem sent_auth (sent : Sent prim cs) (roc : Nat) :
    ∃ verified, auth prim cs (some roc) sent.packet = .ok verified := by
  have long := RtpPacket.wellFormed_length sent.formed
  obtain ⟨seq, numbered, _⟩ := RtpPacket.getSequence_ok long
  obtain ⟨ssrc, sourced⟩ := RtpPacket.getSsrc_ok long
  obtain ⟨offset, measured, inside⟩ := RtpPacket.wellFormed_payloadOffset sent.formed
  have short := sealed_short sent.sealed
  obtain ⟨data, tag, _, tagged, sealed⟩ :=
    SrtpAuth.encryptRtp_layout prim short (sent.index / 65536) numbered sourced measured inside
  rw [sent.sealed] at sealed
  have layout : sent.packet = data ++ tag := Except.ok.inj sealed
  obtain ⟨expected, isExpected⟩ := SrtpAuth.generateAuthTag_ok prim short (some roc) data
  rw [layout, SrtpAuth.auth_append prim _ (SrtpAuth.generateAuthTag_length tagged), isExpected]
  exact ⟨_, rfl⟩

/-- A sent packet opens under its own counter and under no other. -/
theorem decrypt_sent (sent : Sent prim cs) {roc : Nat} (small : roc < 4294967296) :
    decryptRtp prim cs roc sent.packet = if roc = sent.index / 65536 then .ok sent.plain
      else .error (.error "can't auth the srtp packet") := by
  by_cases own : roc = sent.index / 65536
  · rw [if_pos own, own]
    exact sent_opens sent
  · rw [if_neg own]
    obtain ⟨verified, authed⟩ := sent_auth sent roc
    cases verified with
    | true => exact absurd (sent.tagged roc small authed) own
    | false =>
      unfold decryptRtp
      rw [sent.carries.2, ok_bind, sent.carries.1, ok_bind, authed]
      rfl

theorem wrap_small (roc : Nat) : wrapIncr roc < 4294967296 ∧ wrapDecr roc < 4294967296 := by
  unfold wrapIncr wrapDecr
  omega

theorem hget_small (redis : RocStore) (uuid : String) (ssrc : Nat) :
    (redis.hget uuid ssrc).getD 0 < 4294967296 := by
  unfold RocStore.hget
  cases redis.hash uuid with
  | none => exact Nat.zero_lt_succ _
  | some fields =>
    cases stored : fields ssrc with
    | none => simp [stored]
    | some roc =>
      simp only [Option.bind_some, stored, Option.filter_some]
      split
      · rename_i small
        exact of_decide_eq_true small
      · exact Nat.zero_lt_succ _

/-- The counter after an update is the packet's own exactly if that follows. -/
theorem follows_iff {entry : SSRCState} (processed : entry.rocHasProcessed = true) (uuid : String)
    (redis : RocStore) (index : Nat) :
    (entry.updateRoc uuid redis (index % 65536)).1.roc = index / 65536 ↔
      Follows entry.roc entry.lastSeq index := by
  have branch : entry.branch (index % 65536) =
      if index % 65536 = 0 then if 100 < entry.lastSeq then .increment else .keep
      else if entry.lastSeq < 100 ∧ 65435 < index % 65536 then .decrement
      else if index % 65536 < 100 ∧ 65435 < entry.lastSeq then .increment
      else .keep := by
    simp [SSRCState.branch, processed, MAX_ROCDISORDER, MAX_SEQUENCE_NUMBER]
    rfl
  rw [updateRoc_roc, branch]
  unfold Follows
  by_cases zero : index % 65536 = 0
  · rw [if_pos zero, if_pos zero]
    by_cases low : entry.lastSeq ≤ 100
    · rw [if_pos low, if_neg (by omega)]
      exact eq_comm
    · rw [if_neg low, if_pos (by omega)]
      exact eq_comm
  · rw [if_neg zero, if_neg zero]
    by_cases back : entry.lastSeq < 100 ∧ 65435 < index % 65536
    · rw [if_pos back, if_pos back]
      exact eq_comm
    · rw [if_neg back, if_neg back]
      by_cases ahead : index % 65536 < 100 ∧ 65435 < entry.lastSeq
      · rw [if_pos ahead, if_pos ahead]
        exact eq_comm
      · rw [if_neg ahead, if_neg ahead]
        exact eq_comm

theorem updated_small {entry : SSRCState} (small : entry.roc < 4294967296) (uuid : String)
    (redis : RocStore) (seq : Nat) : (entry.updateRoc uuid redis seq).1.roc < 4294967296 := by
  rw [updateRoc_roc]
  cases entry.branch seq with
  | load => exact hget_small redis uuid entry.ssrc
  | keep => exact small
  | increment => exact (wrap_small entry.roc).1
  | decrement => exact (wrap_small entry.roc).2

/-- The entry that an update leaves. -/
theorem updated_entry {receiver : Receiver} (sound : Sound receiver cs) (ssrc index : Nat) :
    ∃ roc redis, (receiver.ctx.entry ssrc).updateRoc receiver.ctx.uuid receiver.redis
        (index % 65536) = (⟨ssrc, roc, true, index % 65536⟩, redis) ∧
      roc < 4294967296 ∧ (roc = index / 65536 ↔ Expected receiver ssrc index) := by
  unfold Expected
  cases stored : receiver.ctx.ssrc ssrc with
  | none =>
    have first : receiver.ctx.entry ssrc = ⟨ssrc, 0, false, 0⟩ := by
      simp [CryptoContext.entry, stored]
    refine ⟨(receiver.redis.hget receiver.ctx.uuid ssrc).getD 0, receiver.redis, ?_,
      hget_small _ _ _, eq_comm⟩
    rw [first]
    rfl
  | some entry =>
    have current : receiver.ctx.entry ssrc = entry := by simp [CryptoContext.entry, stored]
    have left := updateRoc_entry entry receiver.ctx.uuid receiver.redis (index % 65536)
    rw [sound.named ssrc entry stored] at left
    refine ⟨(entry.updateRoc receiver.ctx.uuid receiver.redis (index % 65536)).1.roc,
      (entry.updateRoc receiver.ctx.uuid receiver.redis (index % 65536)).2, ?_, ?_, ?_⟩
    · rw [current, ← left]
    · exact updated_small (sound.small ssrc entry stored) _ _ _
    · exact follows_iff (sound.processed ssrc entry stored) _ _ index

theorem recorded_sound {receiver : Receiver} (sound : Sound receiver cs) {ssrc roc seq : Nat}
    (small : roc < 4294967296) (redis : RocStore) :
    Sound ⟨receiver.ctx.record ssrc ⟨ssrc, roc, true, seq⟩, redis⟩ cs := by
  have cases_ : ∀ other entry, (receiver.ctx.record ssrc ⟨ssrc, roc, true, seq⟩).ssrc other =
      some entry → (other = ssrc ∧ entry = ⟨ssrc, roc, true, seq⟩) ∨
        receiver.ctx.ssrc other = some entry := by
    intro other entry stored
    dsimp only [CryptoContext.record] at stored
    by_cases same : other = ssrc
    · subst same
      left
      rw [Function.update_self] at stored
      exact ⟨rfl, (Option.some.inj stored).symm⟩
    · right
      rwa [Function.update_of_ne same] at stored
  constructor
  · exact sound.state
  · intro other entry stored
    rcases cases_ other entry stored with ⟨_, rfl⟩ | earlier
    · rfl
    · exact sound.processed other entry earlier
  · intro other entry stored
    rcases cases_ other entry stored with ⟨rfl, rfl⟩ | earlier
    · rfl
    · exact sound.named other entry earlier
  · intro other entry stored
    rcases cases_ other entry stored with ⟨_, rfl⟩ | earlier
    · exact small
    · exact sound.small other entry earlier

/-- What a receiver makes of a sent packet, or of a copy of it. -/
theorem receive_sent {receiver : Receiver} (sound : Sound receiver cs) (sent : Sent prim cs) :
    Sound (receive prim receiver sent.packet).2 cs ∧
      (receive prim receiver sent.packet).1 =
        (if Expected receiver sent.ssrc sent.index then .ok sent.plain
          else .error (.error "can't auth the srtp packet")) ∧
      acceptedAs prim receiver sent.packet =
        if Expected receiver sent.ssrc sent.index then some (sent.ssrc, sent.index) else none := by
  obtain ⟨roc, redis, updated, small, own⟩ := updated_entry sound sent.ssrc sent.index
  have received : receive prim receiver sent.packet =
      (decryptRtp prim cs roc sent.packet,
        ⟨receiver.ctx.record sent.ssrc ⟨sent.ssrc, roc, true, sent.index % 65536⟩, redis⟩) := by
    unfold receive receiveRtpPacket
    rw [updateRoc_run sent.carries.2 sent.carries.1, updated]
    simp only [CryptoContext.record, sound.state]
  have result : (receive prim receiver sent.packet).1 =
      if Expected receiver sent.ssrc sent.index then .ok sent.plain
        else .error (.error "can't auth the srtp packet") := by
    rw [received, decrypt_sent sent small]
    simp only [own]
  refine ⟨?_, result, ?_⟩
  · rw [received]
    exact recorded_sound sound small redis
  · unfold acceptedAs
    rw [received, sent.carries.1, sent.carries.2, decrypt_sent sent small]
    by_cases expected : Expected receiver sent.ssrc sent.index
    · rw [if_pos (own.mpr expected), if_pos expected, own.mpr expected]
      simp only [entry_record]
      rw [Nat.div_add_mod']
    · rw [if_neg (fun same => expected (own.mp same)), if_neg expected]

/-- Both receivers are sound, what was accepted has arrived, and the claim holds so far. -/
structure Held (state : Reception prim cs) : Prop where
  attacked : Sound state.attacked cs
  clean : Sound state.clean cs
  arrived : ∀ taken ∈ state.accepted, ∃ sent ∈ state.arrived, taken = (sent.ssrc, sent.index)
  unreplayed : Unreplayed state

theorem begun_held {ctx : CryptoContext} (fresh : ctx.ssrc = fun _ => none) (redis : RocStore) :
    Held (begun prim ctx redis) := by
  have unseen : ∀ ssrc entry, ctx.ssrc ssrc ≠ some entry := by
    intro ssrc entry stored
    rw [fresh] at stored
    cases stored
  have sound : Sound ⟨ctx, redis⟩ ctx.state :=
    ⟨rfl, fun ssrc entry stored => absurd stored (unseen ssrc entry),
      fun ssrc entry stored => absurd stored (unseen ssrc entry),
      fun ssrc entry stored => absurd stored (unseen ssrc entry)⟩
  refine ⟨sound, sound, ?_, List.nodup_nil, rfl⟩
  intro taken listed
  cases listed

/-- Two receivers make the same of a packet exactly if it is expected by both or by neither. -/
theorem same_result_iff {expected expectedClean : Prop} [Decidable expected]
    [Decidable expectedClean] (plain : Bytes) (fault : Fault) :
    ((if expected then Except.ok plain else .error fault : Outcome Bytes) =
      if expectedClean then .ok plain else .error fault) ↔ (expected ↔ expectedClean) := by
  by_cases one : expected <;> by_cases other : expectedClean <;> simp [one, other]

theorem genuine_right {state after : Reception prim cs} (held : Held state) {sent : Sent prim cs}
    (stepped : reception prim state (.genuine sent) = some after) :
    (Guarded prim cs state (.genuine sent) ↔ Unreplayed after) ∧
      (Guarded prim cs state (.genuine sent) → Held after) := by
  obtain ⟨new, same⟩ := Option.ite_none_right_eq_some.mp stepped
  cases same
  obtain ⟨attacked, attackedResult, accepted⟩ := receive_sent held.attacked sent
  obtain ⟨clean, cleanResult, -⟩ := receive_sent held.clean sent
  have fresh : (sent.ssrc, sent.index) ∉ state.accepted := by
    intro listed
    obtain ⟨other, isArrived, same⟩ := held.arrived _ listed
    exact new other isArrived same.symm
  have once : ((acceptedAs prim state.attacked sent.packet).toList ++ state.accepted).Nodup := by
    rw [accepted]
    split
    · exact List.nodup_cons.mpr ⟨fresh, held.unreplayed.once⟩
    · exact held.unreplayed.once
  have same : ((receive prim state.attacked sent.packet).1 :: state.results =
      (receive prim state.clean sent.packet).1 :: state.cleanResults) ↔
      Guarded prim cs state (.genuine sent) := by
    rw [List.cons.injEq, and_iff_left held.unreplayed.same, attackedResult, cleanResult]
    exact same_result_iff _ _
  have arrived : ∀ taken ∈ (acceptedAs prim state.attacked sent.packet).toList ++ state.accepted,
      ∃ other ∈ sent :: state.arrived, taken = (other.ssrc, other.index) := by
    intro taken listed
    rcases List.mem_append.mp listed with now | earlier
    · rw [accepted, Option.mem_toList] at now
      split at now
      · cases now
        exact ⟨sent, List.mem_cons_self, rfl⟩
      · cases now
    · obtain ⟨other, isArrived, same⟩ := held.arrived taken earlier
      exact ⟨other, List.mem_cons_of_mem _ isArrived, same⟩
  constructor
  · exact ⟨fun guarded => ⟨once, same.mpr guarded⟩, fun unreplayed => same.mp unreplayed.same⟩
  · exact fun guarded => ⟨attacked, clean, arrived, once, same.mpr guarded⟩

theorem copy_right {state after : Reception prim cs} (held : Held state) {back : Nat}
    (stepped : reception prim state (.copy back) = some after) :
    (Guarded prim cs state (.copy back) ↔ Unreplayed after) ∧
      (Guarded prim cs state (.copy back) → Held after) := by
  dsimp only [reception] at stepped
  cases isArrived : state.arrived[back]? with
  | none =>
    rw [isArrived] at stepped
    cases stepped
  | some sent =>
    rw [isArrived] at stepped
    cases stepped
    obtain ⟨attacked, -, accepted⟩ := receive_sent held.attacked sent
    have once : ((acceptedAs prim state.attacked sent.packet).toList ++ state.accepted).Nodup ↔
        Guarded prim cs state (.copy back) := by
      have only : Guarded prim cs state (.copy back) ↔
          (Expected state.attacked sent.ssrc sent.index →
            (sent.ssrc, sent.index) ∉ state.accepted) := by
        constructor
        · exact fun guarded => guarded sent isArrived
        · intro unaccepted other isOther
          rw [isArrived] at isOther
          cases isOther
          exact unaccepted
      rw [only, accepted]
      by_cases expected : Expected state.attacked sent.ssrc sent.index
      · rw [if_pos expected]
        constructor
        · exact fun nodup _ => (List.nodup_cons.mp nodup).1
        · exact fun unaccepted => List.nodup_cons.mpr ⟨unaccepted expected, held.unreplayed.once⟩
      · rw [if_neg expected]
        exact iff_of_true held.unreplayed.once fun isExpected => absurd isExpected expected
    have arrived : ∀ taken ∈
        (acceptedAs prim state.attacked sent.packet).toList ++ state.accepted,
        ∃ other ∈ state.arrived, taken = (other.ssrc, other.index) := by
      intro taken listed
      rcases List.mem_append.mp listed with now | earlier
      · rw [accepted, Option.mem_toList] at now
        split at now
        · cases now
          exact ⟨sent, List.mem_of_getElem? isArrived, rfl⟩
        · cases now
      · exact held.arrived taken earlier
    constructor
    · exact ⟨fun guarded => ⟨once.mpr guarded, held.unreplayed.same⟩,
        fun unreplayed => once.mp unreplayed.once⟩
    · exact fun guarded => ⟨attacked, held.clean, arrived, once.mpr guarded, held.unreplayed.same⟩

end

/-- Of the known digests one alone begins with the tag of a body. -/
theorem vectors_tagged {body tag : Bytes} (len : tag.length = 10)
    (unlike : (List.replicate 20 0).take 10 ≠ tag)
    (one : ∀ entry ∈ hmacVectors, entry.2.1.take 10 = tag → entry.1.2 = body ++ [0, 0, 0, 0])
    (roc : Nat) (small : roc < 4294967296)
    (verified : auth Primitives.vectors CryptoContext.sample.state (some roc) (body ++ tag) =
      .ok true) : roc = 0 := by
  have tagged := SrtpAuth.tag_of_auth
    (show tag.length = CryptoContext.sample.state.tagLen from len) verified
  have taken : ((hmacVectors.lookup (sampleAuth, body ++ bytes32 roc)).getD
      ⟨List.replicate 20 0, rfl⟩).1.take 10 = tag := (sliceTo_ok_iff.mp tagged).2
  have known : body ++ bytes32 roc = body ++ [0, 0, 0, 0] := by
    cases found : hmacVectors.lookup (sampleAuth, body ++ bytes32 roc) with
    | none =>
      rw [found] at taken
      exact absurd taken unlike
    | some value =>
      rw [found] at taken
      obtain ⟨before, after, split, _⟩ := List.lookup_eq_some_iff.mp found
      have listed : ((sampleAuth, body ++ bytes32 roc), value) ∈ hmacVectors := by
        rw [split]
        exact List.mem_append_right _ List.mem_cons_self
      exact one _ listed taken
  have word : bytes32 roc = [0, 0, 0, 0] := List.append_cancel_left known
  have read := readU32_bytes32 [] [] roc
  rw [word] at read
  have zero : (0 : Nat) = roc % 4294967296 := Except.ok.inj read
  rw [Nat.mod_eq_of_lt small] at zero
  exact zero.symm

def bare_header (high low : UInt8) : Bytes := [128, 0, high, low, 0, 0, 0, 0, 0, 0, 0, 1]

theorem bare_formed (high low : UInt8) : RtpPacket.WellFormed (bare_header high low) := by
  have plain : RtpPacket.ExtensionBlock 128 [] := by
    rw [RtpPacket.ExtensionBlock, if_neg (by decide)]
  exact ⟨128, [0, high, low, 0, 0, 0, 0, 0, 0, 0, 1], [], [], [], rfl, rfl, rfl, plain⟩

/-- The packets 65535 and 1 of a sender. -/
def last_of_cycle : Sent Primitives.vectors CryptoContext.sample.state where
  plain := bare_header 255 255
  packet := bare_header 255 255 ++ [104, 111, 6, 104, 216, 114, 101, 121, 198, 102]
  ssrc := 1
  index := 65535
  formed := bare_formed 255 255
  carries := ⟨by decide, by decide⟩
  sealed := by decide +kernel
  tagged := vectors_tagged rfl (by decide) (by decide)

def second_of_cycle : Sent Primitives.vectors CryptoContext.sample.state where
  plain := bare_header 0 1
  packet := bare_header 0 1 ++ [132, 239, 156, 68, 92, 158, 60, 190, 79, 140]
  ssrc := 1
  index := 1
  formed := bare_formed 0 1
  carries := ⟨by decide, by decide⟩
  sealed := by decide +kernel
  tagged := vectors_tagged rfl (by decide) (by decide)

/-- Whether an event is guarded, for runs that are tried out. -/
def guardedHere (prim : Primitives) {cs : CryptoState} (state : Reception prim cs) :
    Event prim cs → Bool
  | .genuine sent =>
    Expected state.attacked sent.ssrc sent.index == Expected state.clean sent.ssrc sent.index
  | .copy back => state.arrived[back]?.all fun sent =>
    !Expected state.attacked sent.ssrc sent.index || !state.accepted.contains (sent.ssrc, sent.index)

theorem guarded_of_here {prim : Primitives} {cs : CryptoState} (state : Reception prim cs)
    (event : Event prim cs) (here : guardedHere prim state event = true) :
    Guarded prim cs state event := by
  cases event with
  | genuine sent => exact decide_eq_decide.mp (beq_iff_eq.mp here)
  | copy back =>
    intro sent isArrived expected listed
    dsimp only [guardedHere] at here
    rw [isArrived] at here
    simp [expected, listed] at here

end SrtpReplay
