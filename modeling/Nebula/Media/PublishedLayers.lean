import Nebula.Media.RtxRecovery

/- The table of layers over a run: which RIDs it has, and whose stream it gives each of them. -/
namespace VideoReceiver
open ByteStrings
open VideoAllocation (IncomingVideoInfo)

inductive Event where
  | packet (packet : Bytes) (readings : Readings)
  | mute (muted : Bool)

section Runs
variable (unmarshal : Bytes → Option Rtp) (quotient : Nat → Nat → Nat)

def step (receiver : VideoStreamReceiver) :
    Event → Outcome (VideoStreamReceiver × Option Handled)
  | .packet packet readings => receiveRtpPacket unmarshal quotient receiver packet readings
  | .mute muted => .ok ({ receiver with muted }, none)

/-- The packets handled in a run, in their order; a panic ends it. -/
def handledBy (receiver : VideoStreamReceiver) : List Event → List Handled
  | [] => []
  | event :: rest =>
    match step unmarshal quotient receiver event with
    | .error _ => []
    | .ok (after, none) => handledBy after rest
    | .ok (after, some handled) => handled :: handledBy after rest

end Runs

section Layers

/-- The stream of the most recent packet with a RID. -/
def lastSsrc (rid : String) (seen : List Handled) : Option UInt32 :=
  (seen.filter fun handled => handled.rid == rid).getLast?.map Handled.ssrc

/-- The table has the RIDs that came, each with its own most recent stream. -/
structure OwnStreams (table : LayersInfo) (seen : List Handled) : Prop where
  keys : ∀ rid, rid ∈ table.map Prod.fst ↔ rid ∈ seen.map Handled.rid
  streams : ∀ entry ∈ table, (lastSsrc entry.1 seen).map UInt32.toNat = some entry.2.2.ssrc

/-- What a step does to the layers. -/
inductive Effect (receiver after : VideoStreamReceiver) : Option Handled → Prop where
  | none (same : after.incomingLayers = receiver.incomingLayers) : Effect receiver after none
  | taken (handled : Handled) (layer : IncomingVideoState)
      (layers : after.incomingLayers = receiver.incomingLayers.insert handled.rid layer)
      (table : ∀ table, handled.published = some table →
        table = layersInfo handled.ssrc after.incomingLayers.entries) :
      Effect receiver after (some handled)

variable {unmarshal : Bytes → Option Rtp} {quotient : Nat → Nat → Nat}

theorem takePacket_effect (receiver : VideoStreamReceiver) (rid : String) (packet : Bytes)
    (rtp : Rtp) (readings : Readings) :
    Effect receiver (takePacket quotient receiver rid packet rtp readings).1
      (some (takePacket quotient receiver rid packet rtp readings).2) := by
  refine .taken _ _ rfl ?_
  intro table published
  unfold takePacket at published
  simp only at published
  split at published
  · exact (Option.some.inj published).symm
  · cases published

theorem step_effect {receiver after : VideoStreamReceiver} {event : Event}
    {handled : Option Handled}
    (done : step unmarshal quotient receiver event = .ok (after, handled)) :
    Effect receiver after handled := by
  cases event with
  | mute muted =>
    obtain ⟨rfl, rfl⟩ := Prod.mk.inj (Except.ok.inj done)
    exact .none rfl
  | packet packet readings =>
    change receiveRtpPacket unmarshal quotient receiver packet readings = _ at done
    unfold receiveRtpPacket at done
    split at done
    · obtain ⟨rfl, rfl⟩ := Prod.mk.inj (Except.ok.inj done)
      exact .none rfl
    · split at done
      · obtain ⟨rfl, rfl⟩ := Prod.mk.inj (Except.ok.inj done)
        exact .none rfl
      · rename_i rtp read
        obtain ⟨found, _, done⟩ := bind_ok_inv done
        obtain ⟨original, _, done⟩ := bind_ok_inv done
        cases original with
        | none =>
          obtain ⟨rfl, rfl⟩ := Prod.mk.inj (Except.ok.inj done)
          exact .none rfl
        | some given =>
          obtain ⟨rfl, rfl⟩ := Prod.mk.inj (Except.ok.inj done)
          have effect := @takePacket_effect quotient { receiver with ridSsrcs := found.2 } found.1
            given.1 given.2 readings
          cases effect with
          | taken _ layer layers table => exact .taken _ layer layers table

end Layers

section Tables
variable {unmarshal : Bytes → Option Rtp} {quotient : Nat → Nat → Nat}

/-- The layers are those of the RIDs that came. -/
def Keyed (receiver : VideoStreamReceiver) (seen : List Handled) : Prop :=
  ∀ rid, rid ∈ receiver.incomingLayers.entries.map Prod.fst ↔ rid ∈ seen.map Handled.rid

theorem Keyed.taken {receiver after : VideoStreamReceiver} {seen : List Handled}
    (keyed : Keyed receiver seen) {handled : Handled} {layer : IncomingVideoState}
    (layers : after.incomingLayers = receiver.incomingLayers.insert handled.rid layer) :
    Keyed after (seen ++ [handled]) := by
  intro rid
  rw [layers, IndexMap.mem_keys_insert, keyed rid, List.map_append, List.mem_append, or_comm]
  simp

/-- Each table of a run has the RIDs that came, all with the stream of the packet at hand. -/
theorem published_table {events : List Event} {receiver : VideoStreamReceiver}
    {seen before later : List Handled} {handled : Handled} {table : LayersInfo}
    (keyed : Keyed receiver seen)
    (ran : handledBy unmarshal quotient receiver events = before ++ handled :: later)
    (published : handled.published = some table) :
    (∀ rid, rid ∈ table.map Prod.fst ↔ rid ∈ (seen ++ (before ++ [handled])).map Handled.rid) ∧
      ∀ entry ∈ table, entry.2.2.ssrc = handled.ssrc.toNat := by
  induction events generalizing receiver seen before with
  | nil =>
    unfold handledBy at ran
    exact absurd ran.symm (List.append_ne_nil_of_right_ne_nil before (List.cons_ne_nil _ _))
  | cons event rest ih =>
    unfold handledBy at ran
    cases done : step unmarshal quotient receiver event with
    | error fault =>
      rw [done] at ran
      exact absurd ran.symm (List.append_ne_nil_of_right_ne_nil before (List.cons_ne_nil _ _))
    | ok result =>
      obtain ⟨after, result⟩ := result
      rw [done] at ran
      have effect := step_effect done
      cases effect with
      | none same =>
        have kept : Keyed after seen := by
          intro rid
          rw [same]
          exact keyed rid
        exact ih kept ran
      | taken first layer layers own =>
        have grown := keyed.taken layers
        cases before with
        | nil =>
          obtain ⟨rfl, _⟩ := List.cons.inj ran
          obtain rfl := own table published
          refine ⟨fun rid => ?_, ?_⟩
          · rw [layersInfo, List.map_map]
            exact grown rid
          · intro entry member
            obtain ⟨layer, _, rfl⟩ := List.mem_map.mp member
            rfl
        | cons head before =>
          obtain ⟨rfl, tail⟩ := List.cons.inj ran
          have onward := ih grown tail
          rwa [List.append_assoc] at onward

/-- A published table gives each RID its own stream exactly where every RID last came with the
    stream of the packet at hand. -/
theorem published_ownStreams_iff {typeNumber : UInt8} {hasCodec : Bool} {events : List Event}
    {before later : List Handled} {handled : Handled} {table : LayersInfo}
    (ran : handledBy unmarshal quotient (VideoStreamReceiver.new typeNumber hasCodec) events =
      before ++ handled :: later)
    (published : handled.published = some table) :
    OwnStreams table (before ++ [handled]) ↔
      ∀ rid ∈ before.map Handled.rid,
        lastSsrc rid (before ++ [handled]) = some handled.ssrc := by
  have fresh : Keyed (VideoStreamReceiver.new typeNumber hasCodec) [] := fun rid => Iff.rfl
  obtain ⟨keys, streams⟩ := published_table fresh ran published
  rw [List.nil_append] at keys
  constructor
  · intro own rid came
    have listed : rid ∈ table.map Prod.fst := (keys rid).mpr (by simp [came])
    obtain ⟨entry, member, rfl⟩ := List.mem_map.mp listed
    have right := own.streams entry member
    rw [streams entry member] at right
    cases last : lastSsrc entry.1 (before ++ [handled]) with
    | none =>
      rw [last] at right
      cases right
    | some ssrc =>
      rw [last] at right
      exact congrArg some (UInt32.toNat_inj.mp (Option.some.inj right))
  · intro same
    refine ⟨keys, fun entry member => ?_⟩
    have came : entry.1 ∈ (before ++ [handled]).map Handled.rid :=
      (keys entry.1).mp (List.mem_map_of_mem member)
    have last : lastSsrc entry.1 (before ++ [handled]) = some handled.ssrc := by
      rw [List.map_append, List.mem_append] at came
      rcases came with earlier | now
      · exact same entry.1 earlier
      · have own : handled.rid = entry.1 := (List.mem_singleton.mp now).symm
        simp [lastSsrc, own]
    rw [last, streams entry member]
    rfl

/-- A key frame of a given height, at a given second. -/
def keyFrame (letter : UInt8) (ssrc : UInt32) (height : UInt8) (time : Nat) : Event :=
  .packet ((ridHeader 10 letter ssrc).bytes ++
    [0x10, 0, 0, 0, 0x9d, 0x01, 0x2a, 64, 1, height, 0]) ⟨time, time, time, time, time⟩

/-- The RID and the stream of a packet, and the streams in the table it published. -/
def told (handled : Handled) : String × UInt32 × Option (List (String × Nat)) :=
  (handled.rid, handled.ssrc,
    handled.published.map fun table => table.map fun entry => (entry.1, entry.2.2.ssrc))

/-- Two layers: the table that a packet of the second publishes gives its stream to the first. -/
theorem two_layers_one_stream :
    ∃ first second table,
      handledBy readOneByte (fun bits _ => bits) (VideoStreamReceiver.new 96 false)
        [keyFrame 104 1 180 0, keyFrame 108 2 90 0] = [first, second] ∧
      second.published = some table ∧ ¬ OwnStreams table [first, second] := by
  have run : (handledBy readOneByte (fun bits _ => bits) (VideoStreamReceiver.new 96 false)
      [keyFrame 104 1 180 0, keyFrame 108 2 90 0]).map told =
        [("h", 1, some [("h", 1)]), ("l", 2, some [("h", 2), ("l", 2)])] := by
    decide +kernel
  obtain ⟨first, rest, whole, tellsFirst, tellsRest⟩ := List.map_eq_cons_iff.mp run
  obtain ⟨second, last, rfl, tellsSecond, tellsLast⟩ := List.map_eq_cons_iff.mp tellsRest
  obtain rfl := List.map_eq_nil_iff.mp tellsLast
  obtain ⟨firstRid, firstSsrc, _⟩ := by simpa only [told, Prod.mk.injEq] using tellsFirst
  obtain ⟨secondRid, _, published⟩ := by simpa only [told, Prod.mk.injEq] using tellsSecond
  obtain ⟨table, published, entries⟩ := Option.map_eq_some_iff.mp published
  refine ⟨first, second, table, whole, published, fun own => ?_⟩
  obtain ⟨entry, others, rfl, tellsEntry, _⟩ := List.map_eq_cons_iff.mp entries
  obtain ⟨rid, ssrc⟩ := Prod.mk.inj tellsEntry
  have right := own.streams entry List.mem_cons_self
  rw [rid, ssrc] at right
  simp [lastSsrc, firstRid, secondRid, firstSsrc] at right

/-- One layer whose stream changes. -/
theorem one_layer_own_stream :
    ∃ first second table,
      handledBy readOneByte (fun bits _ => bits) (VideoStreamReceiver.new 96 false)
        [keyFrame 104 1 180 0, keyFrame 104 2 90 0] = [first, second] ∧
      second.published = some table ∧ OwnStreams table [first, second] := by
  have run : (handledBy readOneByte (fun bits _ => bits) (VideoStreamReceiver.new 96 false)
      [keyFrame 104 1 180 0, keyFrame 104 2 90 0]).map told =
        [("h", 1, some [("h", 1)]), ("h", 2, some [("h", 2)])] := by
    decide +kernel
  obtain ⟨first, rest, whole, tellsFirst, tellsRest⟩ := List.map_eq_cons_iff.mp run
  obtain ⟨second, last, rfl, tellsSecond, tellsLast⟩ := List.map_eq_cons_iff.mp tellsRest
  obtain rfl := List.map_eq_nil_iff.mp tellsLast
  obtain ⟨firstRid, _, _⟩ := by simpa only [told, Prod.mk.injEq] using tellsFirst
  obtain ⟨secondRid, _, published⟩ := by simpa only [told, Prod.mk.injEq] using tellsSecond
  obtain ⟨table, published, _⟩ := Option.map_eq_some_iff.mp published
  refine ⟨first, second, table, whole, published,
    (@published_ownStreams_iff _ _ _ _ _ [first] [] second table whole published).mpr ?_⟩
  intro rid came
  obtain rfl : rid = first.rid := List.mem_singleton.mp came
  simp [lastSsrc, firstRid, secondRid]

end Tables

end VideoReceiver
