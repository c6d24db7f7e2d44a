import Mathlib.Data.List.Perm.Basic
import Mathlib.Logic.Function.Basic
import Nebula.Lib.IndexMap
import Nebula.Lib.Runs
import Nebula.Media.Packet

/- RTP and RTCP of a peer connection. Each packet is handed to the worker of a track, which is
   looked for by the packet's SSRC; the track of an SSRC and the worker of a track are
   remembered. A hash map of tracks is the list of its entries in the order of iteration. -/
namespace TrackDemux
open ByteStrings Runs

inductive MediaType where
  | Audio
  | Video
  | Image
  deriving DecidableEq

/-- An SSRC of 0 stands for a track that declares none. -/
structure MediaStreamTrack where
  ssrc : UInt32
  mediaType : MediaType
  deriving DecidableEq

section
variable {Uuid : Type} [DecidableEq Uuid]

/-- A remote track is taken in if the local SDP has its mid. -/
def insertTrack (uuidV5 : String → Uuid) (channel : String)
    (localTracks : IndexMap String MediaStreamTrack) (streams : IndexMap Uuid MediaStreamTrack)
    (remote : String × MediaStreamTrack) : IndexMap Uuid MediaStreamTrack :=
  match localTracks.entries.lookup remote.1 with
  | some _ => streams.insert (uuidV5 (channel ++ ":" ++ remote.1)) remote.2
  | none => streams

/-- The tracks of `WebRTC::from_channel`. -/
def fromChannel (uuidV5 : String → Uuid) (channel : String)
    (remoteTracks localTracks : IndexMap String MediaStreamTrack) :
    IndexMap Uuid MediaStreamTrack :=
  remoteTracks.entries.foldl (insertTrack uuidV5 channel localTracks) IndexMap.empty

/-- A track of the connection is one of the remote SDP under a mid that the local one has. -/
theorem mem_fromChannel {uuidV5 : String → Uuid} {channel : String}
    {remoteTracks localTracks : IndexMap String MediaStreamTrack} {entry : Uuid × MediaStreamTrack}
    (member : entry ∈ (fromChannel uuidV5 channel remoteTracks localTracks).entries) :
    ∃ mid, (mid, entry.2) ∈ remoteTracks.entries ∧ localTracks.entries.lookup mid ≠ none ∧
      entry.1 = uuidV5 (channel ++ ":" ++ mid) := by
  unfold fromChannel at member
  have built : ∀ (remote : List (String × MediaStreamTrack))
      (streams : IndexMap Uuid MediaStreamTrack),
      entry ∈ (remote.foldl (insertTrack uuidV5 channel localTracks) streams).entries →
      entry ∈ streams.entries ∨ ∃ mid, (mid, entry.2) ∈ remote ∧
        localTracks.entries.lookup mid ≠ none ∧ entry.1 = uuidV5 (channel ++ ":" ++ mid) := by
    intro remote
    induction remote with
    | nil => exact fun _ member => Or.inl member
    | cons first rest ih =>
      intro streams member
      rw [List.foldl_cons] at member
      rcases ih _ member with early | ⟨mid, later, both, id⟩
      · unfold insertTrack at early
        split at early
        · rename_i found here
          rcases IndexMap.mem_insert early with new | old
          · refine Or.inr ⟨first.1, ?_, ?_, ?_⟩
            · rw [new]
              exact List.mem_cons_self
            · rw [here]
              exact Option.some_ne_none found
            · rw [new]
          · exact Or.inl old
        · exact Or.inl early
      · exact Or.inr ⟨mid, List.mem_cons_of_mem _ later, both, id⟩
  rcases built remoteTracks.entries IndexMap.empty member with none | found
  · cases none
  · exact found

end

def isRtcp (packet : Bytes) : Bool :=
  let marker := packet.getD RtpPacket.MARKER_PT_OFFSET 0
  decide (200 ≤ marker) && decide (marker ≤ 206)

def packetSsrc (packet : Bytes) : Outcome Nat :=
  if isRtcp packet then RtcpPacket.getSsrc packet else RtpPacket.getSsrc packet

/-- What became of a packet: the track it was for, if any, and the worker that got it. It is of
    a known track if the track of its SSRC is remembered or its track has had a worker. -/
structure Passage (Uuid : Type) where
  packet : Bytes
  ssrc : Nat
  known : Bool
  track : Option Uuid
  worker : Option Nat
  deriving DecidableEq

/-- The tables of `process_rtp`, with the track of each worker, the workers that have ended and
    the packets so far, the newest first. -/
structure Demux (Uuid : Type) where
  streams : Nat → Option Uuid
  trackSenders : Uuid → Option Nat
  workers : List Uuid
  ended : Nat → Bool
  log : List (Passage Uuid)

inductive Event where
  | packet (packet : Bytes)
  | ends (worker : Nat)

section
variable {Uuid : Type}

def firstTrack (tracks : IndexMap Uuid MediaStreamTrack) (fits : MediaStreamTrack → Bool) :
    Option Uuid :=
  (tracks.entries.find? fun entry => fits entry.2).map Prod.fst

def search (tracks : IndexMap Uuid MediaStreamTrack) (rtcp : Bool) (ssrc : Nat) : Option Uuid :=
  match firstTrack tracks (fun track => track.ssrc.toNat == ssrc) with
  | some uuid => some uuid
  | none =>
    match firstTrack tracks (fun track => track.ssrc == 0) with
    | some uuid => some uuid
    | none => if rtcp then firstTrack tracks (fun track => track.mediaType == .Video) else none

/-- The tracks that a packet may be for: those that declare its SSRC, or else those without
    one, or else for RTCP those of video. -/
def candidates (tracks : IndexMap Uuid MediaStreamTrack) (rtcp : Bool) (ssrc : Nat) :
    List (Uuid × MediaStreamTrack) :=
  let declared := tracks.entries.filter fun entry => entry.2.ssrc.toNat == ssrc
  let bare := tracks.entries.filter fun entry => entry.2.ssrc == 0
  if declared ≠ [] then declared
  else if bare ≠ [] then bare
  else if rtcp then tracks.entries.filter fun entry => entry.2.mediaType == .Video
  else []

theorem firstTrack_eq (tracks : IndexMap Uuid MediaStreamTrack) (fits : MediaStreamTrack → Bool) :
    firstTrack tracks fits =
      (tracks.entries.filter fun entry => fits entry.2).head?.map Prod.fst := by
  rw [List.head?_filter]
  rfl

theorem search_eq (tracks : IndexMap Uuid MediaStreamTrack) (rtcp : Bool) (ssrc : Nat) :
    search tracks rtcp ssrc = (candidates tracks rtcp ssrc).head?.map Prod.fst := by
  unfold search candidates
  simp only [firstTrack_eq]
  cases tracks.entries.filter (fun entry => entry.2.ssrc.toNat == ssrc) with
  | cons entry rest => rfl
  | nil =>
    cases tracks.entries.filter (fun entry => entry.2.ssrc == 0) with
    | cons entry rest => rfl
    | nil => cases rtcp <;> rfl

/-- What is found for RTP is found for RTCP. -/
theorem search_rtcp {tracks : IndexMap Uuid MediaStreamTrack} {rtcp : Bool} {ssrc : Nat}
    {uuid : Uuid} (found : search tracks rtcp ssrc = some uuid) :
    search tracks true ssrc = some uuid := by
  cases rtcp with
  | true => exact found
  | false =>
    unfold search at found ⊢
    cases declared : firstTrack tracks (fun track => track.ssrc.toNat == ssrc) with
    | some first =>
      rw [declared] at found
      exact found
    | none =>
      rw [declared] at found
      cases bare : firstTrack tracks (fun track => track.ssrc == 0) with
      | some first =>
        rw [bare] at found
        exact found
      | none =>
        rw [bare] at found
        cases found

/-- Whatever the order of the tracks, the candidates are those of one kind. -/
theorem candidates_kind (tracks : IndexMap Uuid MediaStreamTrack) (rtcp : Bool) (ssrc : Nat) :
    ∃ fits : Uuid × MediaStreamTrack → Bool, ∀ other : IndexMap Uuid MediaStreamTrack,
      other.entries.Perm tracks.entries →
        candidates other rtcp ssrc = other.entries.filter fits := by
  have empty : ∀ (fits : Uuid × MediaStreamTrack → Bool)
      (other : IndexMap Uuid MediaStreamTrack), other.entries.Perm tracks.entries →
      (other.entries.filter fits ≠ [] ↔ tracks.entries.filter fits ≠ []) := by
    intro fits other order
    rw [ne_eq, ne_eq, ← List.length_eq_zero_iff, (order.filter fits).length_eq,
      List.length_eq_zero_iff]
  unfold candidates
  by_cases declared : tracks.entries.filter (fun entry => entry.2.ssrc.toNat == ssrc) ≠ []
  · refine ⟨fun entry => entry.2.ssrc.toNat == ssrc, fun other order => ?_⟩
    rw [if_pos ((empty _ other order).mpr declared)]
  by_cases bare : tracks.entries.filter (fun entry => entry.2.ssrc == 0) ≠ []
  · refine ⟨fun entry => entry.2.ssrc == 0, fun other order => ?_⟩
    rw [if_neg (declared ∘ (empty _ other order).mp), if_pos ((empty _ other order).mpr bare)]
  cases rtcp with
  | true =>
    refine ⟨fun entry => entry.2.mediaType == .Video, fun other order => ?_⟩
    rw [if_neg (declared ∘ (empty _ other order).mp), if_neg (bare ∘ (empty _ other order).mp)]
    rfl
  | false =>
    refine ⟨fun _ => false, fun other order => ?_⟩
    rw [if_neg (declared ∘ (empty _ other order).mp), if_neg (bare ∘ (empty _ other order).mp),
      List.filter_false]
    rfl

theorem candidates_perm {other tracks : IndexMap Uuid MediaStreamTrack}
    (order : other.entries.Perm tracks.entries) (rtcp : Bool) (ssrc : Nat) :
    (candidates other rtcp ssrc).Perm (candidates tracks rtcp ssrc) := by
  obtain ⟨fits, kind⟩ := candidates_kind tracks rtcp ssrc
  rw [kind other order, kind tracks (List.Perm.refl _)]
  exact order.filter fits

theorem search_single {other tracks : IndexMap Uuid MediaStreamTrack}
    (order : other.entries.Perm tracks.entries) {rtcp : Bool} {ssrc : Nat}
    (single : (candidates tracks rtcp ssrc).length ≤ 1) :
    search other rtcp ssrc = search tracks rtcp ssrc := by
  have perm := candidates_perm order rtcp ssrc
  rw [search_eq, search_eq]
  cases meant : candidates tracks rtcp ssrc with
  | nil =>
    rw [meant] at perm
    rw [perm.eq_nil]
  | cons only rest =>
    rw [meant, List.length_cons] at single
    have none : rest = [] := List.length_eq_zero_iff.mp (by omega)
    rw [meant, none] at perm
    rw [List.perm_singleton.mp perm, none]

end

section
variable {Uuid : Type} [DecidableEq Uuid]

/-- The track that an SSRC is remembered for and its worker, if that has not ended. -/
def Demux.remembered (demux : Demux Uuid) (ssrc : Nat) : Option (Uuid × Nat) :=
  match demux.streams ssrc with
  | some uuid =>
    match demux.trackSenders uuid with
    | some worker => if demux.ended worker then none else some (uuid, worker)
    | none => none
  | none => none

def Demux.spawn (demux : Demux Uuid) (uuid : Uuid) : Demux Uuid :=
  { demux with
    workers := demux.workers ++ [uuid]
    trackSenders := Function.update demux.trackSenders uuid (some demux.workers.length) }

/-- Where a packet goes. A worker that is found for an SSRC that is new is sent to unchecked. -/
def Demux.place (tracks : IndexMap Uuid MediaStreamTrack) (demux : Demux Uuid) (rtcp : Bool)
    (ssrc : Nat) : Demux Uuid × Option Uuid × Option Nat :=
  match demux.remembered ssrc with
  | some (uuid, worker) => (demux, some uuid, some worker)
  | none =>
    match search tracks rtcp ssrc with
    | none => (demux, none, none)
    | some uuid =>
      match demux.streams ssrc with
      | some _ => (demux.spawn uuid, some uuid, some demux.workers.length)
      | none =>
        let streams := Function.update demux.streams ssrc (some uuid)
        match demux.trackSenders uuid with
        | some worker => ({ demux with streams := streams }, some uuid,
            if demux.ended worker then none else some worker)
        | none => (({ demux with streams := streams } : Demux Uuid).spawn uuid, some uuid,
            some demux.workers.length)

def Demux.knows (tracks : IndexMap Uuid MediaStreamTrack) (demux : Demux Uuid) (rtcp : Bool)
    (ssrc : Nat) : Bool :=
  (demux.streams ssrc).isSome || ((search tracks rtcp ssrc).bind demux.trackSenders).isSome

def Demux.receive (tracks : IndexMap Uuid MediaStreamTrack) (demux : Demux Uuid) (packet : Bytes)
    (ssrc : Nat) : Demux Uuid :=
  let (placed, track, worker) := demux.place tracks (isRtcp packet) ssrc
  { placed with
    log := ⟨packet, ssrc, demux.knows tracks (isRtcp packet) ssrc, track, worker⟩ :: demux.log }

/-- The task of `process_rtp` over its packets, while workers end as they like. -/
def processRtp (tracks : IndexMap Uuid MediaStreamTrack) : Machine (Demux Uuid) Event
  | demux, .packet packet =>
    match packetSsrc packet with
    | .ok ssrc => some (demux.receive tracks packet ssrc)
    | .error _ => none
  | demux, .ends worker =>
    if worker < demux.workers.length then
      some { demux with ended := Function.update demux.ended worker true }
    else none

def Demux.begun : Demux Uuid where
  streams := fun _ => none
  trackSenders := fun _ => none
  workers := []
  ended := fun _ => false
  log := []

/-- The step goes well: where a packet's track is looked for, at most one track may be meant,
    the track's worker is one that has not ended, and a track is found if one was before. -/
structure ClearPacket (tracks : IndexMap Uuid MediaStreamTrack) (demux : Demux Uuid)
    (rtcp : Bool) (ssrc : Nat) : Prop where
  single : (candidates tracks rtcp ssrc).length ≤ 1
  running : demux.streams ssrc = none →
    ∀ uuid ∈ search tracks rtcp ssrc, ∀ worker ∈ demux.trackSenders uuid,
      demux.ended worker = false
  found : demux.streams ssrc ≠ none → search tracks rtcp ssrc ≠ none

def Clear (tracks : IndexMap Uuid MediaStreamTrack) (demux : Demux Uuid) : Event → Prop
  | .packet packet => ∀ ssrc, packetSsrc packet = .ok ssrc → demux.remembered ssrc = none →
      ClearPacket tracks demux (isRtcp packet) ssrc
  | .ends _ => True

/-- The demultiplexing of a run is unambiguous. -/
structure Unambiguous (tracks : IndexMap Uuid MediaStreamTrack) (events : List Event)
    (last : Demux Uuid) : Prop where
  anyOrder : ∀ other : IndexMap Uuid MediaStreamTrack, other.entries.Perm tracks.entries →
    runAll (processRtp other) Demux.begun events = some last
  declared : ∀ passage ∈ last.log, ∀ entry ∈ tracks.entries, entry.2.ssrc ≠ 0 →
    entry.2.ssrc.toNat = passage.ssrc → passage.track = some entry.1 ∧
      ∃ worker, passage.worker = some worker ∧ last.workers[worker]? = some entry.1
  same : ∀ first ∈ last.log, ∀ second ∈ last.log, first.ssrc = second.ssrc →
    ∀ one ∈ first.track, ∀ two ∈ second.track, one = two
  kept : ∀ passage ∈ last.log, passage.known = true → passage.worker ≠ none

/-- What may become of a packet of an SSRC. -/
inductive Placed (tracks : IndexMap Uuid MediaStreamTrack) (demux : Demux Uuid) (rtcp : Bool)
    (ssrc : Nat) : Demux Uuid × Option Uuid × Option Nat → Prop where
  | kept {uuid : Uuid} {worker : Nat} : demux.remembered ssrc = some (uuid, worker) →
      Placed tracks demux rtcp ssrc (demux, some uuid, some worker)
  | untracked : demux.remembered ssrc = none → search tracks rtcp ssrc = none →
      Placed tracks demux rtcp ssrc (demux, none, none)
  | again {uuid old : Uuid} : demux.remembered ssrc = none →
      search tracks rtcp ssrc = some uuid → demux.streams ssrc = some old →
      Placed tracks demux rtcp ssrc (demux.spawn uuid, some uuid, some demux.workers.length)
  | joined {uuid : Uuid} {worker : Nat} : demux.remembered ssrc = none →
      search tracks rtcp ssrc = some uuid → demux.streams ssrc = none →
      demux.trackSenders uuid = some worker →
      Placed tracks demux rtcp ssrc
        ({ demux with streams := Function.update demux.streams ssrc (some uuid) }, some uuid,
          if demux.ended worker then none else some worker)
  | opened {uuid : Uuid} : demux.remembered ssrc = none →
      search tracks rtcp ssrc = some uuid → demux.streams ssrc = none →
      demux.trackSenders uuid = none →
      Placed tracks demux rtcp ssrc
        (({ demux with streams := Function.update demux.streams ssrc (some uuid) } :
          Demux Uuid).spawn uuid, some uuid, some demux.workers.length)

theorem placed (tracks : IndexMap Uuid MediaStreamTrack) (demux : Demux Uuid) (rtcp : Bool)
    (ssrc : Nat) : Placed tracks demux rtcp ssrc (demux.place tracks rtcp ssrc) := by
  unfold Demux.place
  cases before : demux.remembered ssrc with
  | some held => exact Placed.kept before
  | none =>
    cases found : search tracks rtcp ssrc with
    | none => exact Placed.untracked before found
    | some uuid =>
      cases stream : demux.streams ssrc with
      | some old => exact Placed.again before found stream
      | none =>
        dsimp only
        cases sender : demux.trackSenders uuid with
        | some worker => exact Placed.joined before found stream sender
        | none => exact Placed.opened before found stream sender

omit [DecidableEq Uuid] in
/-- The worker that is remembered is the one of the track that is. -/
theorem remembered_some {demux : Demux Uuid} {ssrc worker : Nat} {uuid : Uuid}
    (held : demux.remembered ssrc = some (uuid, worker)) :
    demux.streams ssrc = some uuid ∧ demux.trackSenders uuid = some worker := by
  unfold Demux.remembered at held
  split at held
  · rename_i track stream
    split at held
    · rename_i found sender
      split at held
      · cases held
      · cases held
        exact ⟨stream, sender⟩
    · cases held
  · cases held

/-- Where a search can have one answer only, the order of the tracks is of no account. -/
theorem place_perm {other tracks : IndexMap Uuid MediaStreamTrack}
    (order : other.entries.Perm tracks.entries) (demux : Demux Uuid) {rtcp : Bool} {ssrc : Nat}
    (clear : demux.remembered ssrc = none → ClearPacket tracks demux rtcp ssrc) :
    demux.place other rtcp ssrc = demux.place tracks rtcp ssrc := by
  unfold Demux.place
  cases before : demux.remembered ssrc with
  | some held => rfl
  | none => rw [search_single order (clear before).single]

/-- The tracks that declare an SSRC. -/
def declaring (tracks : IndexMap Uuid MediaStreamTrack) (ssrc : Nat) :
    List (Uuid × MediaStreamTrack) :=
  tracks.entries.filter fun entry => entry.2.ssrc.toNat == ssrc

omit [DecidableEq Uuid] in
theorem candidates_declaring {tracks : IndexMap Uuid MediaStreamTrack} {ssrc : Nat}
    (some : declaring tracks ssrc ≠ []) (rtcp : Bool) :
    candidates tracks rtcp ssrc = declaring tracks ssrc :=
  if_pos some

omit [DecidableEq Uuid] in
theorem declaring_single {tracks : IndexMap Uuid MediaStreamTrack} {rtcp : Bool} {ssrc : Nat}
    (single : (candidates tracks rtcp ssrc).length ≤ 1) :
    (declaring tracks ssrc).length ≤ 1 := by
  by_cases some : declaring tracks ssrc ≠ []
  · rwa [candidates_declaring some] at single
  · rw [not_not.mp some]
    exact Nat.zero_le 1

omit [DecidableEq Uuid] in
theorem search_declaring {tracks : IndexMap Uuid MediaStreamTrack} {ssrc : Nat}
    (some : declaring tracks ssrc ≠ []) (rtcp : Bool) : search tracks rtcp ssrc ≠ none := by
  rw [search_eq, candidates_declaring some]
  cases held : declaring tracks ssrc with
  | nil => exact absurd held some
  | cons entry rest => exact Option.some_ne_none _

/-- A packet is for the track that its SSRC stands for, and the worker that has it is one of
    that track. -/
structure Served (tracks : IndexMap Uuid MediaStreamTrack) (workers : List Uuid)
    (passage : Passage Uuid) : Prop where
  meant : ∀ uuid ∈ passage.track, search tracks true passage.ssrc = some uuid
  owner : ∀ worker ∈ passage.worker, ∃ uuid, passage.track = some uuid ∧
    workers[worker]? = some uuid
  tracked : declaring tracks passage.ssrc ≠ [] → passage.track ≠ none

structure Held (tracks : IndexMap Uuid MediaStreamTrack) (demux : Demux Uuid) : Prop where
  streams : ∀ ssrc uuid, demux.streams ssrc = some uuid → search tracks true ssrc = some uuid
  senders : ∀ uuid worker, demux.trackSenders uuid = some worker →
    demux.workers[worker]? = some uuid
  served : ∀ passage ∈ demux.log, Served tracks demux.workers passage

section
variable {tracks : IndexMap Uuid MediaStreamTrack} {demux : Demux Uuid}

omit [DecidableEq Uuid] in
theorem getElem?_more {workers : List Uuid} {worker : Nat} {uuid : Uuid} (more : List Uuid)
    (held : workers[worker]? = some uuid) : (workers ++ more)[worker]? = some uuid := by
  have inside := (List.getElem?_eq_some_iff.mp held).1
  rwa [List.getElem?_append_left inside]

omit [DecidableEq Uuid] in
theorem Served.more {workers : List Uuid} {passage : Passage Uuid}
    (served : Served tracks workers passage) (more : List Uuid) :
    Served tracks (workers ++ more) passage where
  meant := served.meant
  owner := by
    intro worker sent
    obtain ⟨uuid, track, owner⟩ := served.owner worker sent
    exact ⟨uuid, track, getElem?_more more owner⟩
  tracked := served.tracked

theorem held_spawn (held : Held tracks demux) (uuid : Uuid) :
    Held tracks (demux.spawn uuid) where
  streams := held.streams
  senders := by
    intro other worker sender
    show (demux.workers ++ [uuid])[worker]? = some other
    by_cases same : other = uuid
    · subst same
      have own : Function.update demux.trackSenders other (some demux.workers.length) other =
        some worker := sender
      rw [Function.update_self] at own
      cases own
      exact List.getElem?_concat_length
    · have old : Function.update demux.trackSenders uuid (some demux.workers.length) other =
        some worker := sender
      rw [Function.update_of_ne same] at old
      exact getElem?_more [uuid] (held.senders other worker old)
  served := fun passage member => (held.served passage member).more [uuid]

omit [DecidableEq Uuid] in
theorem held_stream (held : Held tracks demux) {ssrc : Nat} {uuid : Uuid}
    (found : search tracks true ssrc = some uuid) :
    Held tracks { demux with streams := Function.update demux.streams ssrc (some uuid) } where
  streams := by
    intro other track stream
    by_cases same : other = ssrc
    · subst same
      have own : Function.update demux.streams other (some uuid) other = some track := stream
      rw [Function.update_self] at own
      rw [found, own]
    · have old : Function.update demux.streams ssrc (some uuid) other = some track := stream
      rw [Function.update_of_ne same] at old
      exact held.streams other track old
  senders := held.senders
  served := held.served

/-- What a placing leaves: the tables still hold, and the packet is served. -/
theorem held_placed (held : Held tracks demux) {rtcp : Bool} {ssrc : Nat} (packet : Bytes)
    (known : Bool) {result : Demux Uuid × Option Uuid × Option Nat}
    (placed : Placed tracks demux rtcp ssrc result) :
    Held tracks result.1 ∧ result.1.log = demux.log ∧
      Served tracks result.1.workers ⟨packet, ssrc, known, result.2.1, result.2.2⟩ := by
  have meant : ∀ {uuid : Uuid}, search tracks rtcp ssrc = some uuid →
      ∀ other ∈ some uuid, search tracks true ssrc = some other := by
    intro uuid found other same
    cases same
    exact search_rtcp found
  cases placed with
  | @kept uuid worker before =>
    obtain ⟨stream, sender⟩ := remembered_some before
    have owner := held.senders uuid worker sender
    refine ⟨held, rfl, ?_, ?_, fun _ => Option.some_ne_none uuid⟩
    · intro other same
      cases same
      exact held.streams ssrc uuid stream
    · intro other same
      cases same
      exact ⟨uuid, rfl, owner⟩
  | untracked before none =>
    refine ⟨held, rfl, ?_, ?_, fun some => absurd none (search_declaring some rtcp)⟩
    · intro other same
      cases same
    · intro other same
      cases same
  | @again uuid old before found stream =>
    refine ⟨held_spawn held uuid, rfl, meant found, ?_, fun _ => Option.some_ne_none uuid⟩
    intro other same
    cases same
    exact ⟨uuid, rfl, List.getElem?_concat_length⟩
  | @joined uuid worker before found stream sender =>
    refine ⟨held_stream held (search_rtcp found), rfl, meant found, ?_,
      fun _ => Option.some_ne_none uuid⟩
    intro other same
    dsimp only at same
    split at same
    · cases same
    · cases same
      exact ⟨uuid, rfl, held.senders uuid worker sender⟩
  | @opened uuid before found stream sender =>
    refine ⟨held_spawn (held_stream held (search_rtcp found)) uuid, rfl, meant found, ?_,
      fun _ => Option.some_ne_none uuid⟩
    intro other same
    cases same
    exact ⟨uuid, rfl, List.getElem?_concat_length⟩

theorem held_receive (held : Held tracks demux) (packet : Bytes) (ssrc : Nat) :
    Held tracks (demux.receive tracks packet ssrc) := by
  obtain ⟨after, log, served⟩ := held_placed held packet
    (demux.knows tracks (isRtcp packet) ssrc) (placed tracks demux (isRtcp packet) ssrc)
  refine ⟨after.streams, after.senders, ?_⟩
  intro passage member
  rcases List.mem_cons.mp member with rfl | earlier
  · exact served
  · rw [← log] at earlier
    exact after.served passage earlier

/-- What one event makes of the tables. -/
theorem step_cases {event : Event} {after : Demux Uuid}
    (stepped : processRtp tracks demux event = some after) :
    (∃ packet ssrc, event = .packet packet ∧ packetSsrc packet = .ok ssrc ∧
      after = demux.receive tracks packet ssrc) ∨
    (∃ worker, event = .ends worker ∧
      after = { demux with ended := Function.update demux.ended worker true }) := by
  cases event with
  | packet packet =>
    unfold processRtp at stepped
    dsimp only at stepped
    split at stepped
    · rename_i ssrc read
      cases stepped
      exact Or.inl ⟨packet, ssrc, rfl, read, rfl⟩
    · cases stepped
  | ends worker =>
    unfold processRtp at stepped
    dsimp only at stepped
    split at stepped
    · cases stepped
      exact Or.inr ⟨worker, rfl, rfl⟩
    · cases stepped

theorem held_step (held : Held tracks demux) {event : Event} {after : Demux Uuid}
    (stepped : processRtp tracks demux event = some after) : Held tracks after := by
  obtain ⟨packet, ssrc, rfl, read, rfl⟩ | ⟨worker, rfl, rfl⟩ := step_cases stepped
  · exact held_receive held packet ssrc
  · exact ⟨held.streams, held.senders, held.served⟩

end

omit [DecidableEq Uuid] in
theorem held_begun (tracks : IndexMap Uuid MediaStreamTrack) : Held tracks Demux.begun where
  streams := fun _ _ stream => by cases stream
  senders := fun _ _ sender => by cases sender
  served := fun _ member => absurd member List.not_mem_nil

/-- A packet of a track that is known has gone to a worker, and so has one whose SSRC is
    declared, which then is so by one track alone. -/
structure Delivered (tracks : IndexMap Uuid MediaStreamTrack) (passage : Passage Uuid) : Prop where
  single : (declaring tracks passage.ssrc).length ≤ 1
  tracked : passage.track ≠ none → passage.worker ≠ none
  known : passage.known = true → passage.worker ≠ none

structure Kept (tracks : IndexMap Uuid MediaStreamTrack) (demux : Demux Uuid) : Prop where
  single : ∀ ssrc, demux.streams ssrc ≠ none → (declaring tracks ssrc).length ≤ 1
  delivered : ∀ passage ∈ demux.log, Delivered tracks passage

section
variable {tracks : IndexMap Uuid MediaStreamTrack} {demux : Demux Uuid}

omit [DecidableEq Uuid] in
theorem knows_of_untracked {rtcp : Bool} {ssrc : Nat} (none : search tracks rtcp ssrc = none)
    (known : demux.knows tracks rtcp ssrc = true) : demux.streams ssrc ≠ Option.none := by
  unfold Demux.knows at known
  rw [none] at known
  intro stream
  rw [stream] at known
  cases known

omit [DecidableEq Uuid] in
theorem kept_stream (kept : Kept tracks demux) {ssrc : Nat} {uuid : Uuid}
    (single : (declaring tracks ssrc).length ≤ 1) (other : Nat)
    (stream : Function.update demux.streams ssrc (some uuid) other ≠ none) :
    (declaring tracks other).length ≤ 1 := by
  by_cases same : other = ssrc
  · rwa [same]
  · rw [Function.update_of_ne same] at stream
    exact kept.single other stream

theorem kept_placed (kept : Kept tracks demux) {rtcp : Bool} {ssrc : Nat} (packet : Bytes)
    (clear : demux.remembered ssrc = none → ClearPacket tracks demux rtcp ssrc)
    {result : Demux Uuid × Option Uuid × Option Nat}
    (placed : Placed tracks demux rtcp ssrc result) :
    (∀ other, result.1.streams other ≠ none → (declaring tracks other).length ≤ 1) ∧
      Delivered tracks ⟨packet, ssrc, demux.knows tracks rtcp ssrc, result.2.1, result.2.2⟩ := by
  cases placed with
  | @kept uuid worker before =>
    have stream : demux.streams ssrc ≠ none := by
      rw [(remembered_some before).1]
      exact Option.some_ne_none uuid
    exact ⟨kept.single, kept.single ssrc stream, fun _ => Option.some_ne_none worker,
      fun _ => Option.some_ne_none worker⟩
  | untracked before none =>
    refine ⟨kept.single, declaring_single (clear before).single, fun absent => absurd rfl absent,
      fun known => ?_⟩
    exact absurd none ((clear before).found (knows_of_untracked none known))
  | @again uuid old before found stream =>
    exact ⟨kept.single, declaring_single (clear before).single,
      fun _ => Option.some_ne_none demux.workers.length,
      fun _ => Option.some_ne_none demux.workers.length⟩
  | @joined uuid worker before found stream sender =>
    have single := declaring_single (clear before).single
    have running : demux.ended worker = false :=
      (clear before).running stream uuid found worker sender
    have sent : (if demux.ended worker then none else some worker) ≠ none := by
      rw [running]
      exact Option.some_ne_none worker
    exact ⟨kept_stream kept single, single, fun _ => sent, fun _ => sent⟩
  | @opened uuid before found stream sender =>
    have single := declaring_single (clear before).single
    exact ⟨kept_stream kept single, single, fun _ => Option.some_ne_none demux.workers.length,
      fun _ => Option.some_ne_none demux.workers.length⟩

theorem kept_step (kept : Kept tracks demux) {event : Event} {after : Demux Uuid}
    (clear : Clear tracks demux event) (stepped : processRtp tracks demux event = some after) :
    Kept tracks after := by
  obtain ⟨packet, ssrc, rfl, read, rfl⟩ | ⟨worker, rfl, rfl⟩ := step_cases stepped
  · obtain ⟨single, delivered⟩ := kept_placed kept packet (clear ssrc read)
      (placed tracks demux (isRtcp packet) ssrc)
    refine ⟨single, ?_⟩
    intro passage member
    rcases List.mem_cons.mp member with rfl | earlier
    · exact delivered
    · exact kept.delivered passage earlier
  · exact ⟨kept.single, kept.delivered⟩

end

omit [DecidableEq Uuid] in
theorem kept_begun (tracks : IndexMap Uuid MediaStreamTrack) : Kept tracks Demux.begun where
  single := fun _ stream => absurd rfl stream
  delivered := fun _ member => absurd member List.not_mem_nil

section
variable {tracks : IndexMap Uuid MediaStreamTrack}

omit [DecidableEq Uuid] in
theorem knows_perm {other : IndexMap Uuid MediaStreamTrack}
    (order : other.entries.Perm tracks.entries) {demux : Demux Uuid} {rtcp : Bool} {ssrc : Nat}
    (clear : demux.remembered ssrc = none → ClearPacket tracks demux rtcp ssrc) :
    demux.knows other rtcp ssrc = demux.knows tracks rtcp ssrc := by
  unfold Demux.knows
  cases before : demux.remembered ssrc with
  | some held =>
    rw [(remembered_some before).1]
    rfl
  | none => rw [search_single order (clear before).single]

theorem step_perm {other : IndexMap Uuid MediaStreamTrack}
    (order : other.entries.Perm tracks.entries) {demux : Demux Uuid} {event : Event}
    (clear : Clear tracks demux event) :
    processRtp other demux event = processRtp tracks demux event := by
  cases event with
  | ends worker => rfl
  | packet packet =>
    unfold processRtp
    dsimp only
    cases read : packetSsrc packet with
    | error fault => rfl
    | ok ssrc =>
      dsimp only
      unfold Demux.receive
      rw [place_perm order demux (clear ssrc read), knows_perm order (clear ssrc read)]

/-- A run in which every step goes well is the same in any order of the tracks. -/
theorem runAll_perm {other : IndexMap Uuid MediaStreamTrack}
    (order : other.entries.Perm tracks.entries) (events : List Event) :
    ∀ {demux : Demux Uuid}, Along (processRtp tracks) (Clear tracks) demux events →
      runAll (processRtp other) demux events = runAll (processRtp tracks) demux events := by
  induction events with
  | nil => exact fun _ => rfl
  | cons event rest ih =>
    intro demux clear
    unfold runAll
    rw [step_perm order clear.1]
    cases stepped : processRtp tracks demux event with
    | none => rfl
    | some after => exact ih (clear.2 after stepped)

theorem log_step {demux after : Demux Uuid} {event : Event}
    (stepped : processRtp tracks demux event = some after) : demux.log <:+ after.log := by
  obtain ⟨packet, ssrc, rfl, read, rfl⟩ | ⟨worker, rfl, rfl⟩ := step_cases stepped
  · exact List.suffix_cons _ demux.log
  · exact List.suffix_refl demux.log

theorem log_run (events : List Event) {demux last : Demux Uuid}
    (ran : runAll (processRtp tracks) demux events = some last) : demux.log <:+ last.log :=
  run_keeps (fun state => demux.log <:+ state.log) (List.suffix_refl demux.log)
    (fun _ _ _ earlier _ stepped => earlier.trans (log_step stepped))
    (reaches_of_runAll events ran)

theorem held_run (events : List Event) {last : Demux Uuid}
    (ran : runAll (processRtp tracks) Demux.begun events = some last) : Held tracks last :=
  run_keeps (Held tracks) (held_begun tracks) (fun _ _ _ held _ stepped => held_step held stepped)
    (reaches_of_runAll events ran)

theorem kept_run {events : List Event} {last : Demux Uuid}
    (clear : Along (processRtp tracks) (Clear tracks) Demux.begun events)
    (ran : runAll (processRtp tracks) Demux.begun events = some last) : Kept tracks last :=
  run_keeps (Kept tracks) (kept_begun tracks)
    (fun _ _ _ kept allowed stepped => kept_step kept allowed stepped)
    (run_of_along events clear ran)

theorem unambiguous_of_along {events : List Event} {last : Demux Uuid}
    (clear : Along (processRtp tracks) (Clear tracks) Demux.begun events)
    (ran : runAll (processRtp tracks) Demux.begun events = some last) :
    Unambiguous tracks events last where
  anyOrder := by
    intro other order
    rw [runAll_perm order events clear, ran]
  declared := by
    intro passage member entry own declares same
    have held := (held_run events ran).served passage member
    have kept := (kept_run clear ran).delivered passage member
    have among : entry ∈ declaring tracks passage.ssrc := by
      unfold declaring
      rw [List.mem_filter]
      exact ⟨own, beq_iff_eq.mpr same⟩
    have only : declaring tracks passage.ssrc = [entry] := by
      obtain ⟨one, alone⟩ := List.length_eq_one_iff.mp
        (Nat.le_antisymm kept.single (List.length_pos_of_mem among))
      rw [alone] at among ⊢
      rw [List.mem_singleton.mp among]
    have some : declaring tracks passage.ssrc ≠ [] := List.ne_nil_of_mem among
    have found : search tracks true passage.ssrc = Option.some entry.1 := by
      rw [search_eq, candidates_declaring some, only]
      rfl
    have tracked := held.tracked some
    cases track : passage.track with
    | none => exact absurd track tracked
    | some uuid =>
      have meant := held.meant uuid track
      rw [found] at meant
      cases meant
      refine ⟨rfl, ?_⟩
      cases sent : passage.worker with
      | none => exact absurd sent (kept.tracked tracked)
      | some worker =>
        obtain ⟨uuid, same, owner⟩ := held.owner worker sent
        cases track.symm.trans same
        exact ⟨worker, rfl, owner⟩
  same := by
    intro first firstIn second secondIn equal one isOne two isTwo
    have held := (held_run events ran).served
    have meant := (held first firstIn).meant one isOne
    rw [equal, (held second secondIn).meant two isTwo] at meant
    exact (Option.some.inj meant).symm
  kept := fun passage member => ((kept_run clear ran).delivered passage member).known

theorem track_of_new {demux : Demux Uuid} {rtcp : Bool} {ssrc : Nat}
    (before : demux.remembered ssrc = none) :
    (demux.place tracks rtcp ssrc).2.1 = search tracks rtcp ssrc := by
  have spec := placed tracks demux rtcp ssrc
  generalize demux.place tracks rtcp ssrc = result at spec
  cases spec with
  | kept held => rw [before] at held; cases held
  | untracked _ none => exact none.symm
  | again _ found _ => exact found.symm
  | joined _ found _ _ => exact found.symm
  | opened _ found _ _ => exact found.symm

/-- Where two tracks may be meant, there is an order of the tracks in which the second is. -/
theorem other_order {rtcp : Bool} {ssrc : Nat}
    (several : 1 < (candidates tracks rtcp ssrc).length) :
    ∃ other : IndexMap Uuid MediaStreamTrack, other.entries.Perm tracks.entries ∧
      search other rtcp ssrc ≠ search tracks rtcp ssrc := by
  obtain ⟨fits, kind⟩ := candidates_kind tracks rtcp ssrc
  have own := kind tracks (List.Perm.refl _)
  cases meant : candidates tracks rtcp ssrc with
  | nil => rw [meant] at several; cases several
  | cons one rest =>
    cases rest with
    | nil => rw [meant] at several; exact absurd several (Nat.lt_irrefl 1)
    | cons two rest =>
      have second : two ∈ tracks.entries.filter fits := by
        rw [← own, meant]
        exact List.mem_cons_of_mem _ List.mem_cons_self
      obtain ⟨inside, fitting⟩ := List.mem_filter.mp second
      have order := (List.perm_cons_erase inside).symm
      have apart : one.1 ≠ two.1 := by
        have distinct : (candidates tracks rtcp ssrc).map Prod.fst |>.Nodup := by
          rw [own]
          exact tracks.nodup.sublist (List.filter_sublist.map Prod.fst)
        rw [meant] at distinct
        exact (List.nodup_cons.mp distinct).1 ∘ fun same => by
          rw [same]
          exact List.mem_cons_self
      refine ⟨⟨two :: tracks.entries.erase two, (order.map Prod.fst).nodup_iff.mpr tracks.nodup⟩,
        order, ?_⟩
      rw [search_eq, search_eq, kind _ order, meant, List.filter_cons_of_pos fitting]
      exact fun same => apart (Option.some.inj same).symm

/-- A step that does not go well leaves a packet without a worker, or one whose track is
    another in another order of the tracks. -/
theorem stray_cases {demux : Demux Uuid} {packet : Bytes} {ssrc : Nat}
    (before : demux.remembered ssrc = none)
    (stray : ¬ ClearPacket tracks demux (isRtcp packet) ssrc) :
    1 < (candidates tracks (isRtcp packet) ssrc).length ∨
      (demux.knows tracks (isRtcp packet) ssrc = true ∧
        (demux.place tracks (isRtcp packet) ssrc).2.2 = none) := by
  by_cases single : (candidates tracks (isRtcp packet) ssrc).length ≤ 1
  · refine Or.inr ?_
    have spec := placed tracks demux (isRtcp packet) ssrc
    generalize demux.place tracks (isRtcp packet) ssrc = result at spec
    cases spec with
    | kept held => rw [before] at held; cases held
    | untracked _ none =>
      have stream : demux.streams ssrc ≠ Option.none := by
        intro new
        refine absurd ⟨single, fun _ other found => ?_, fun old => absurd new old⟩ stray
        rw [none] at found
        cases found
      refine ⟨?_, rfl⟩
      unfold Demux.knows
      rw [Option.isSome_iff_ne_none.mpr stream]
      rfl
    | again _ found stream =>
      refine absurd ⟨single, fun new => ?_, fun _ => ?_⟩ stray
      · rw [stream] at new
        cases new
      · rw [found]
        exact Option.some_ne_none _
    | @joined uuid worker _ found stream sender =>
      cases ended : demux.ended worker with
      | true =>
        refine ⟨?_, rfl⟩
        unfold Demux.knows
        rw [found, stream]
        show (false || (demux.trackSenders uuid).isSome) = true
        rw [sender]
        rfl
      | false =>
        refine absurd ⟨single, fun _ other same number held => ?_, fun old => absurd stream old⟩
          stray
        rw [found] at same
        cases same
        rw [sender] at held
        cases held
        exact ended
    | opened _ found stream sender =>
      refine absurd ⟨single, fun _ other same number held => ?_, fun old => absurd stream old⟩ stray
      rw [found] at same
      cases same
      rw [sender] at held
      cases held
  · exact Or.inl (Nat.lt_of_not_le single)

theorem along_of_unambiguous {events : List Event} {last : Demux Uuid}
    (ran : runAll (processRtp tracks) Demux.begun events = some last)
    (unambiguous : Unambiguous tracks events last) :
    Along (processRtp tracks) (Clear tracks) Demux.begun events := by
  by_contra strays
  obtain ⟨before, event, after, middle, rfl, clear, reached, stray⟩ :=
    strays_of_not_along events strays
  cases event with
  | ends worker => exact stray trivial
  | packet packet =>
    have out : ∃ ssrc, packetSsrc packet = .ok ssrc ∧ middle.remembered ssrc = none ∧
        ¬ ClearPacket tracks middle (isRtcp packet) ssrc := by
      by_contra none
      exact stray fun ssrc read new => by_contra fun bad => none ⟨ssrc, read, new, bad⟩
    obtain ⟨ssrc, read, new, bad⟩ := out
    -- The run goes on from the packet, in any order of the tracks that leads to the same end.
    have onward : ∀ other : IndexMap Uuid MediaStreamTrack, other.entries.Perm tracks.entries →
        (middle.receive other packet ssrc).log <:+ last.log := by
      intro other order
      have whole := unambiguous.anyOrder other order
      rw [runAll_append, runAll_perm order before clear, reached, Option.bind_some] at whole
      have stepped : processRtp other middle (.packet packet) =
          some (middle.receive other packet ssrc) := by
        unfold processRtp
        dsimp only
        rw [read]
      unfold runAll at whole
      rw [stepped] at whole
      exact log_run after whole
    rcases stray_cases new bad with several | ⟨known, lost⟩
    · obtain ⟨other, order, differs⟩ := other_order several
      have one := onward other order
      have two := onward tracks (List.Perm.refl _)
      have same := (List.suffix_of_suffix_length_le one two (Nat.le_refl _)).eq_of_length rfl
      have track := congrArg Passage.track (List.cons.inj same).1
      have equal : (middle.place other (isRtcp packet) ssrc).2.1 =
          (middle.place tracks (isRtcp packet) ssrc).2.1 := track
      rw [track_of_new new, track_of_new new] at equal
      exact differs equal
    · have member := (onward tracks (List.Perm.refl _)).subset List.mem_cons_self
      exact unambiguous.kept _ member known lost

/-- The demultiplexing is unambiguous in exactly the runs in which every step goes well. -/
theorem unambiguous_iff (tracks : IndexMap Uuid MediaStreamTrack) (events : List Event)
    (last : Demux Uuid) (ran : runAll (processRtp tracks) Demux.begun events = some last) :
    Unambiguous tracks events last ↔
      Along (processRtp tracks) (Clear tracks) Demux.begun events :=
  ⟨along_of_unambiguous ran, fun clear => unambiguous_of_along clear ran⟩

end

end

/-- An audio and a video track of which one declares its SSRC, and a packet of each. -/
theorem unambiguous_iff_pair : ∃ last : Demux Nat,
    runAll (processRtp ⟨[(1, ⟨7, .Audio⟩), (2, ⟨0, .Video⟩)], by decide⟩) Demux.begun
      [.packet [128, 111, 0, 1, 0, 0, 0, 0, 0, 0, 0, 7],
        .packet [128, 96, 0, 1, 0, 0, 0, 0, 0, 0, 0, 5]] = some last ∧
      (Unambiguous ⟨[(1, ⟨7, .Audio⟩), (2, ⟨0, .Video⟩)], by decide⟩
        [.packet [128, 111, 0, 1, 0, 0, 0, 0, 0, 0, 0, 7],
          .packet [128, 96, 0, 1, 0, 0, 0, 0, 0, 0, 0, 5]] last ↔
        Along (processRtp ⟨[(1, ⟨7, .Audio⟩), (2, ⟨0, .Video⟩)], by decide⟩)
          (Clear ⟨[(1, ⟨7, .Audio⟩), (2, ⟨0, .Video⟩)], by decide⟩) Demux.begun
          [.packet [128, 111, 0, 1, 0, 0, 0, 0, 0, 0, 0, 7],
            .packet [128, 96, 0, 1, 0, 0, 0, 0, 0, 0, 0, 5]]) :=
  ⟨_, rfl, unambiguous_iff _ _ _ rfl⟩

/-- With an audio and a video track that both lack an SSRC, the first packet of the video goes
    to whichever comes first. -/
theorem bare_tracks_ambiguous : ¬ ∀ (tracks : IndexMap Nat MediaStreamTrack)
    (events : List Event) (last : Demux Nat),
    runAll (processRtp tracks) Demux.begun events = some last → Unambiguous tracks events last := by
  intro always
  have clear := along_of_unambiguous rfl (always ⟨[(1, ⟨0, .Audio⟩), (2, ⟨0, .Video⟩)], by decide⟩
    [.packet [128, 96, 0, 1, 0, 0, 0, 0, 0, 0, 0, 5]] _ rfl)
  have single := (clear.1 5 rfl rfl).single
  exact absurd single (by decide)

end TrackDemux
