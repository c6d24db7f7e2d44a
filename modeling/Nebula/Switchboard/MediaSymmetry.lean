import Nebula.Switchboard.MediaTables

/- When the sets destinations and sources are two sides of one relation, in which nothing is
   left of the channels that have been cleaned up. -/
namespace MediaSymmetry
open Runs TwoWayLinks MediaTables

section
variable (uuid_v5 : String → String)

/-- The stream of some media of the channel. -/
def Of (channel stream : String) : Prop :=
  ∃ media : MediaDescription, stream = media.uuid uuid_v5 channel

def Gone (cleaned : List String) (stream : String) : Prop :=
  ∃ channel ∈ cleaned, Of uuid_v5 channel stream

def Clean (state : State) : Prop :=
  ∀ source destination, destination ∈ state.tables.destinations source ∨
    source ∈ state.tables.sources destination →
      ¬ Gone uuid_v5 state.cleaned source ∧ ¬ Gone uuid_v5 state.cleaned destination

/-- What bridge_media of the two channels would put into empty sets is taken out, and
    nothing else. -/
def Undoes (state : State) (src_channel dst_channel : String) (after : State) : Prop :=
  ∀ source destination, Linked after.tables source destination ↔
    Linked state.tables source destination ∧
      ¬ Linked (bridge_media uuid_v5 src_channel dst_channel
        { state with tables := empty String }).tables source destination

/-- What is to hold after an operation. -/
structure Right (state : State) (operation : Operation) (after : State) : Prop where
  agree : Agree after.tables
  clean : Clean uuid_v5 after
  undone : ∀ src_channel dst_channel, operation = .unbridge_media src_channel dst_channel →
    Undoes uuid_v5 state src_channel dst_channel after

def between : Option String → Option String → List (String × String)
  | some source, some destination => [(source, destination)]
  | _, _ => []

def audio_links (state : State) (src_channel dst_channel : String) : List (String × String) :=
  between (get_audio_id uuid_v5 state src_channel) (get_audio_id uuid_v5 state dst_channel)

def video_links (state : State) (src_channel dst_channel : String) : List (String × String) :=
  between (get_video_id uuid_v5 state src_channel) (get_video_id uuid_v5 state dst_channel)

def bridge_links (state : State) (src_channel dst_channel : String) : List (String × String) :=
  if audio_links uuid_v5 state src_channel dst_channel = [] then []
  else audio_links uuid_v5 state src_channel dst_channel ++
    video_links uuid_v5 state src_channel dst_channel

def joined (channel room : String) (answer_sdp : SessionDescription) (state : State) : State :=
  { state with
    channels := Function.update state.channels channel
      { state.channels channel with local_sdp := some answer_sdp }
    rooms := add room channel state.rooms }

def member_links (state : State) (channel audio_id member : String) : List (String × String) :=
  if member = channel ∨ (state.channels member).call_context = false then []
  else match get_audio_id uuid_v5 state member with
  | some member_audio_id => [(member_audio_id, audio_id), (audio_id, member_audio_id)]
  | none => []

/-- Both ways between a channel that has joined the room and the other members. -/
def join_links (state : State) (channel room : String) : List (String × String) :=
  match get_audio_id uuid_v5 state channel with
  | some audio_id => (state.rooms room).flatMap (member_links uuid_v5 state channel audio_id)
  | none => []

def subscribe_links (state : State) (channel : String) (members : List String) :
    List (String × String) :=
  match get_video_id uuid_v5 state channel with
  | some video_id => ((new_sources uuid_v5 state channel members).filter fun source =>
      source ∉ state.tables.sources video_id).map fun source => (source, video_id)
  | none => []

def subscribe_unlinks (state : State) (channel : String) (members : List String) :
    List (String × String) :=
  match get_video_id uuid_v5 state channel with
  | some video_id => ((state.tables.sources video_id).filter fun source =>
      source ∉ new_sources uuid_v5 state channel members).map fun source => (source, video_id)
  | none => []

def Live (state : State) (pairs : List (String × String)) : Prop :=
  ∀ pair ∈ pairs, ¬ Gone uuid_v5 state.cleaned pair.1 ∧ ¬ Gone uuid_v5 state.cleaned pair.2

/-- Nothing that is linked is of a channel that has been cleaned up, nothing that is
    unbridged is linked by video, and a channel that is cleaned up sends to no other, nor
    is any stream linked that it had before its local SDP was replaced. -/
def Guarded : Guard State Operation := fun state operation =>
  match operation with
  | .bridge_media src_channel dst_channel =>
    Live uuid_v5 state (bridge_links uuid_v5 state src_channel dst_channel)
  | .unbridge_media src_channel dst_channel =>
    ∀ pair ∈ bridge_links uuid_v5 state src_channel dst_channel,
      Linked state.tables pair.1 pair.2 → pair ∈ audio_links uuid_v5 state src_channel dst_channel
  | .join_room channel room answer_sdp =>
    Live uuid_v5 state (join_links uuid_v5 (joined channel room answer_sdp state) channel room)
  | .subscribe_room channel members => (state.channels channel).room ≠ "" →
    Live uuid_v5 state (subscribe_links uuid_v5 state channel members)
  | .hangup_cleanup channel => ∀ source destination, Linked state.tables source destination →
    destination ∉ stream_ids uuid_v5 state channel →
      source ∉ stream_ids uuid_v5 state channel ∧
        ¬ Of uuid_v5 channel source ∧ ¬ Of uuid_v5 channel destination
  | .elsewhere _ _ => True

theorem bridge_media_links (src_channel dst_channel : String) (state : State) :
    bridge_media uuid_v5 src_channel dst_channel state = { state with
      tables := linkAll (bridge_links uuid_v5 state src_channel dst_channel) state.tables } := by
  unfold bridge_media bridge_links audio_links video_links
  cases get_audio_id uuid_v5 state src_channel with
  | none => rfl
  | some src_audio_id =>
    cases get_audio_id uuid_v5 state dst_channel with
    | none => rfl
    | some dst_audio_id =>
      cases get_video_id uuid_v5 state src_channel with
      | none => rfl
      | some src_video_id =>
        cases get_video_id uuid_v5 state dst_channel with
        | none => rfl
        | some dst_video_id => rfl

theorem unbridge_media_links (src_channel dst_channel : String) (state : State) :
    unbridge_media uuid_v5 src_channel dst_channel state = { state with
      tables := unlinkAll (audio_links uuid_v5 state src_channel dst_channel) state.tables } := by
  unfold unbridge_media audio_links
  cases get_audio_id uuid_v5 state src_channel with
  | none => rfl
  | some src_audio_id =>
    cases get_audio_id uuid_v5 state dst_channel with
    | none => rfl
    | some dst_audio_id => rfl

theorem join_member_links (state : State) (channel audio_id : String) (tables : Links String) (member : String) :
    join_member uuid_v5 state channel audio_id tables member =
      linkAll (member_links uuid_v5 state channel audio_id member) tables := by
  unfold join_member member_links
  split
  · rfl
  · cases get_audio_id uuid_v5 state member with
    | none => rfl
    | some member_audio_id =>
      have order : add audio_id member_audio_id (add member_audio_id audio_id tables.sources) =
          add member_audio_id audio_id (add audio_id member_audio_id tables.sources) := by
        by_cases same : audio_id = member_audio_id
        · rw [same]
        · exact add_comm same
      have each : linkAll [(member_audio_id, audio_id), (audio_id, member_audio_id)] tables =
          ⟨add audio_id member_audio_id (add member_audio_id audio_id tables.destinations),
            add member_audio_id audio_id (add audio_id member_audio_id tables.sources)⟩ := rfl
      rw [each, ← order]
      rfl

theorem members_links (state : State) (channel audio_id : String) (members : List String) :
    ∀ tables, members.foldl (join_member uuid_v5 state channel audio_id) tables =
      linkAll (members.flatMap (member_links uuid_v5 state channel audio_id)) tables := by
  induction members with
  | nil =>
    intro tables
    rfl
  | cons member rest ih =>
    intro tables
    rw [List.foldl_cons, join_member_links, ih, List.flatMap_cons, linkAll_append]

theorem join_room_links (channel room : String) (answer_sdp : SessionDescription) (state : State) :
    join_room uuid_v5 channel room answer_sdp state = { joined channel room answer_sdp state with
      tables := linkAll (join_links uuid_v5 (joined channel room answer_sdp state) channel room)
        state.tables } := by
  unfold join_links
  cases isAudio : get_audio_id uuid_v5 (joined channel room answer_sdp state) channel with
  | none =>
    unfold joined at isAudio
    unfold join_room joined
    dsimp only
    rw [isAudio]
    rfl
  | some audio_id =>
    unfold joined at isAudio
    unfold join_room joined
    dsimp only
    rw [isAudio]
    dsimp only
    rw [members_links]

theorem subscribe_room_links {state : State} (channel : String) (members : List String)
    (inRoom : (state.channels channel).room ≠ "") :
    subscribe_room uuid_v5 channel members state = { state with
      tables := linkAll (subscribe_links uuid_v5 state channel members)
        (unlinkAll (subscribe_unlinks uuid_v5 state channel members) state.tables) } := by
  unfold subscribe_room subscribe_links subscribe_unlinks
  rw [if_neg inRoom]
  cases get_video_id uuid_v5 state channel with
  | none => rfl
  | some video_id =>
    dsimp only [linkAll, unlinkAll]
    rw [List.foldl_map, List.foldl_map]
    rfl

end

section
variable {uuid_v5 : String → String} {state : State}

theorem clean_iff (agree : Agree state.tables) :
    Clean uuid_v5 state ↔ ∀ source destination, Linked state.tables source destination →
      ¬ Gone uuid_v5 state.cleaned source ∧ ¬ Gone uuid_v5 state.cleaned destination := by
  constructor
  · intro clean source destination linked
    exact clean source destination (Or.inl linked)
  · intro clean source destination listed
    rcases listed with left | right
    · exact clean source destination left
    · exact clean source destination ((agree source destination).mpr right)

/-- Links are added cleanly if they are of channels that have not been cleaned up. -/
theorem link_clean (agree : Agree state.tables) (clean : Clean uuid_v5 state)
    (pairs : List (String × String)) :
    Agree (linkAll pairs state.tables) ∧ (Live uuid_v5 state pairs ↔
      Clean uuid_v5 { state with tables := linkAll pairs state.tables }) := by
  have agreeAfter := linkAll_agree pairs agree
  refine ⟨agreeAfter, ?_⟩
  rw [clean_iff agree] at clean
  rw [clean_iff agreeAfter]
  simp only [linked_linkAll]
  constructor
  · intro live source destination linked
    rcases linked with new | old
    · exact live _ new
    · exact clean source destination old
  · intro cleanAfter pair listed
    exact cleanAfter pair.1 pair.2 (Or.inl listed)

theorem unlink_clean (agree : Agree state.tables) (clean : Clean uuid_v5 state)
    (pairs : List (String × String)) :
    Agree (unlinkAll pairs state.tables) ∧
      Clean uuid_v5 { state with tables := unlinkAll pairs state.tables } := by
  have agreeAfter := unlinkAll_agree pairs agree
  refine ⟨agreeAfter, ?_⟩
  rw [clean_iff agree] at clean
  rw [clean_iff agreeAfter]
  intro source destination linked
  exact clean source destination (linked_unlinkAll.mp linked).1

theorem right_iff {operation : Operation} {after : State} (agree : Agree after.tables)
    (other : ∀ src_channel dst_channel, operation ≠ .unbridge_media src_channel dst_channel) :
    Right uuid_v5 state operation after ↔ Clean uuid_v5 after := by
  constructor
  · intro right
    exact right.clean
  · intro clean
    exact ⟨agree, clean, fun src_channel dst_channel same => absurd same (other _ _)⟩

theorem undoes_iff (src_channel dst_channel : String) :
    Undoes uuid_v5 state src_channel dst_channel (unbridge_media uuid_v5 src_channel dst_channel state) ↔
      ∀ pair ∈ bridge_links uuid_v5 state src_channel dst_channel,
        Linked state.tables pair.1 pair.2 →
          pair ∈ audio_links uuid_v5 state src_channel dst_channel := by
  have put : ∀ source destination, Linked (bridge_media uuid_v5 src_channel dst_channel
      { state with tables := empty String }).tables source destination ↔
      (source, destination) ∈ bridge_links uuid_v5 state src_channel dst_channel := by
    intro source destination
    rw [bridge_media_links]
    dsimp only
    rw [linked_linkAll]
    simp [Linked, empty]
    rfl
  have audio : ∀ pair ∈ audio_links uuid_v5 state src_channel dst_channel,
      pair ∈ bridge_links uuid_v5 state src_channel dst_channel := by
    intro pair listed
    unfold bridge_links
    rw [if_neg (List.ne_nil_of_mem listed)]
    exact List.mem_append_left _ listed
  unfold Undoes
  simp only [put, unbridge_media_links, linked_unlinkAll]
  constructor
  · intro undone pair listed linked
    by_contra kept
    exact ((undone pair.1 pair.2).mp ⟨linked, kept⟩).2 listed
  · intro only source destination
    constructor
    · rintro ⟨linked, kept⟩
      exact ⟨linked, fun listed => kept (only _ listed linked)⟩
    · rintro ⟨linked, kept⟩
      exact ⟨linked, fun listed => kept (audio _ listed)⟩

theorem removed_destinations (id : String) (sources : List String) :
    ∀ tables : Links String,
      let removed := sources.foldl (fun tables source => srem_destinations source id tables) tables
      removed.sources = tables.sources ∧ ∀ source destination,
        destination ∈ removed.destinations source ↔
          destination ∈ tables.destinations source ∧ ¬ (source ∈ sources ∧ destination = id) := by
  induction sources with
  | nil =>
    intro tables
    simp
  | cons first rest ih =>
    intro tables
    obtain ⟨same, members⟩ := ih (srem_destinations first id tables)
    refine ⟨same, ?_⟩
    intro source destination
    have first_removed : destination ∈ (srem_destinations first id tables).destinations source ↔
        destination ∈ tables.destinations source ∧ ¬ (source = first ∧ destination = id) :=
      mem_remove
    rw [List.foldl_cons, members, first_removed, List.mem_cons]
    tauto

/-- Every destination of a stream has it among its sources. -/
def Sourced (tables : Links String) : Prop :=
  ∀ source destination, destination ∈ tables.destinations source →
    source ∈ tables.sources destination

theorem stop_media_stream_members {tables : Links String} (sourced : Sourced tables) (id : String) :
    (∀ source destination, destination ∈ (stop_media_stream tables id).destinations source ↔
      destination ∈ tables.destinations source ∧ source ≠ id ∧ destination ≠ id) ∧
    ∀ source destination, source ∈ (stop_media_stream tables id).sources destination ↔
      source ∈ tables.sources destination ∧ destination ≠ id := by
  obtain ⟨same, members⟩ := removed_destinations id (tables.sources id) tables
  constructor
  · intro source destination
    simp only [stop_media_stream, del_destinations, del_sources, mem_clear]
    rw [members]
    constructor
    · rintro ⟨⟨listed, kept⟩, apart⟩
      refine ⟨listed, apart, ?_⟩
      intro isId
      subst isId
      exact kept ⟨sourced _ _ listed, rfl⟩
    · rintro ⟨listed, apart, kept⟩
      exact ⟨⟨listed, fun removed => kept removed.2⟩, apart⟩
  · intro source destination
    simp only [stop_media_stream, del_destinations, del_sources, mem_clear]
    rw [same]

/-- The sources of other streams are all that a clean-up leaves of its streams. -/
theorem stop_streams_members (ids : List String) :
    ∀ tables : Links String, Sourced tables →
      (∀ source destination, destination ∈ (ids.foldl stop_media_stream tables).destinations source ↔
        destination ∈ tables.destinations source ∧ source ∉ ids ∧ destination ∉ ids) ∧
      ∀ source destination, source ∈ (ids.foldl stop_media_stream tables).sources destination ↔
        source ∈ tables.sources destination ∧ destination ∉ ids := by
  induction ids with
  | nil =>
    intro tables _
    simp
  | cons id rest ih =>
    intro tables sourced
    obtain ⟨destinations, sources⟩ := stop_media_stream_members sourced id
    have sourcedAfter : Sourced (stop_media_stream tables id) := by
      intro source destination listed
      obtain ⟨before, _, apart⟩ := (destinations source destination).mp listed
      exact (sources source destination).mpr ⟨sourced source destination before, apart⟩
    obtain ⟨restDestinations, restSources⟩ := ih (stop_media_stream tables id) sourcedAfter
    constructor
    · intro source destination
      rw [List.foldl_cons, restDestinations, destinations, List.mem_cons, List.mem_cons]
      tauto
    · intro source destination
      rw [List.foldl_cons, restSources, sources, List.mem_cons]
      tauto

theorem hangup_cleanup_right (agree : Agree state.tables) (clean : Clean uuid_v5 state)
    (channel : String) :
    Guarded uuid_v5 state (.hangup_cleanup channel) ↔
      Right uuid_v5 state (.hangup_cleanup channel) (hangup_cleanup uuid_v5 channel state) := by
  obtain ⟨destinations, sources⟩ := stop_streams_members (stream_ids uuid_v5 state channel)
    state.tables fun source destination => (agree source destination).mp
  have isClean := (clean_iff agree).mp clean
  have gone : ∀ stream, Gone uuid_v5 (hangup_cleanup uuid_v5 channel state).cleaned stream ↔
      Of uuid_v5 channel stream ∨ Gone uuid_v5 state.cleaned stream := by
    intro stream
    simp [Gone, hangup_cleanup, stop_media]
  constructor
  · intro guarded
    have agreeAfter : Agree (hangup_cleanup uuid_v5 channel state).tables := by
      intro source destination
      unfold hangup_cleanup stop_media
      dsimp only
      rw [destinations, sources, ← agree]
      constructor
      · rintro ⟨linked, _, apart⟩
        exact ⟨linked, apart⟩
      · rintro ⟨linked, apart⟩
        exact ⟨linked, (guarded source destination linked apart).1, apart⟩
    refine ⟨agreeAfter, ?_, fun _ _ same => by cases same⟩
    rw [clean_iff agreeAfter]
    intro source destination linked
    obtain ⟨before, _, apart⟩ := (destinations source destination).mp linked
    obtain ⟨_, notSource, notDestination⟩ := guarded source destination before apart
    obtain ⟨liveSource, liveDestination⟩ := isClean source destination before
    constructor
    · rw [gone]
      exact not_or.mpr ⟨notSource, liveSource⟩
    · rw [gone]
      exact not_or.mpr ⟨notDestination, liveDestination⟩
  · intro right source destination linked apart
    have listed : source ∈ (hangup_cleanup uuid_v5 channel state).tables.sources destination :=
      (sources source destination).mpr ⟨(agree source destination).mp linked, apart⟩
    have still := (destinations source destination).mp ((right.agree source destination).mpr listed)
    obtain ⟨liveSource, liveDestination⟩ := right.clean source destination (Or.inr listed)
    refine ⟨still.2.1, ?_, ?_⟩
    · intro isOf
      exact liveSource ((gone source).mpr (Or.inl isOf))
    · intro isOf
      exact liveDestination ((gone destination).mpr (Or.inl isOf))

/-- Each operation does what it is to do exactly if it is guarded. -/
theorem operation_right (agree : Agree state.tables) (clean : Clean uuid_v5 state)
    (operation : Operation) :
    Guarded uuid_v5 state operation ↔
      Right uuid_v5 state operation (operate uuid_v5 state operation) := by
  cases operation with
  | bridge_media src_channel dst_channel =>
    obtain ⟨agreeAfter, live⟩ := link_clean agree clean
      (bridge_links uuid_v5 state src_channel dst_channel)
    rw [operate, bridge_media_links, right_iff agreeAfter (by simp)]
    exact live
  | unbridge_media src_channel dst_channel =>
    obtain ⟨agreeAfter, cleanAfter⟩ := unlink_clean agree clean
      (audio_links uuid_v5 state src_channel dst_channel)
    rw [← unbridge_media_links] at cleanAfter
    constructor
    · intro guarded
      refine ⟨?_, cleanAfter, ?_⟩
      · rw [operate, unbridge_media_links]
        exact agreeAfter
      · intro src dst same
        cases same
        exact (undoes_iff src_channel dst_channel).mpr guarded
    · intro right
      exact (undoes_iff src_channel dst_channel).mp (right.undone _ _ rfl)
  | join_room channel room answer_sdp =>
    have joinedAgree : Agree (joined channel room answer_sdp state).tables := agree
    have joinedClean : Clean uuid_v5 (joined channel room answer_sdp state) := clean
    obtain ⟨agreeAfter, live⟩ := link_clean joinedAgree joinedClean
      (join_links uuid_v5 (joined channel room answer_sdp state) channel room)
    rw [operate, join_room_links, right_iff agreeAfter (by simp)]
    exact live
  | subscribe_room channel members =>
    by_cases inRoom : (state.channels channel).room = ""
    · have same : operate uuid_v5 state (.subscribe_room channel members) = state := by
        simp [operate, subscribe_room, inRoom]
      rw [same, right_iff agree (by simp)]
      exact ⟨fun _ => clean, fun _ apart => absurd inRoom apart⟩
    · obtain ⟨agreeBetween, cleanBetween⟩ := unlink_clean agree clean
        (subscribe_unlinks uuid_v5 state channel members)
      obtain ⟨agreeAfter, live⟩ := link_clean agreeBetween cleanBetween
        (subscribe_links uuid_v5 state channel members)
      rw [operate, subscribe_room_links uuid_v5 channel members inRoom,
        right_iff agreeAfter (by simp)]
      exact ⟨fun guarded => live.mp (guarded inRoom), fun cleanAfter _ => live.mpr cleanAfter⟩
  | hangup_cleanup channel => exact hangup_cleanup_right agree clean channel
  | elsewhere channels rooms => exact ⟨fun _ => ⟨agree, clean, by simp⟩, fun _ => trivial⟩

end

/-- In every run of guarded operations the two sides agree and nothing is left of a channel
    that has been cleaned up, and the next operation keeps this, and undoes what it is to
    undo, exactly if it is guarded too. -/
theorem tables_agree (uuid_v5 : String → String) (channels : String → Channel)
    (rooms : Sets String) (last : State)
    (run : Run (tables uuid_v5) (Guarded uuid_v5) (idle channels rooms) last) :
    (Agree last.tables ∧ Clean uuid_v5 last) ∧ ∀ operation after,
      tables uuid_v5 last operation = some after →
        (Guarded uuid_v5 last operation ↔ Right uuid_v5 last operation after) := by
  have held : Agree last.tables ∧ Clean uuid_v5 last := by
    apply run_keeps (fun state => Agree state.tables ∧ Clean uuid_v5 state) _ _ run
    · refine ⟨empty_agree, ?_⟩
      intro source destination listed
      simp [idle, empty] at listed
    · rintro state operation after ⟨agree, clean⟩ guarded stepped
      cases stepped
      have right := (operation_right agree clean operation).mp guarded
      exact ⟨right.agree, right.clean⟩
  refine ⟨held, ?_⟩
  intro operation after stepped
  cases stepped
  exact operation_right held.1 held.2 operation

def audio_of_c1 : String := "6d25d24f-38ed-53c3-8da6-cf8b98a25c5a"

def audio_of_c2 : String := "81fc5581-3b81-5bb5-81e9-6bff90030625"

/-- The version 5 UUIDs of the two texts that are used here. -/
def known_uuid_v5 (text : String) : String :=
  if text = "c1:audio" then audio_of_c1
  else if text = "c2:audio" then audio_of_c2
  else text

def audio_only : State :=
  idle (fun _ => ⟨some [⟨.Audio, PEER_CONNECTION_PORT, some "audio"⟩], true, ""⟩) fun _ => []

/-- Of two channels with audio only the second hears the first. -/
def one_way : State := bridge_media known_uuid_v5 "c1" "c2" audio_only

theorem one_way_linked {source destination : String}
    (linked : Linked one_way.tables source destination) :
    source = audio_of_c1 ∧ destination = audio_of_c2 := by
  unfold one_way at linked
  rw [bridge_media_links] at linked
  rcases linked_linkAll.mp linked with new | old
  · have one : bridge_links known_uuid_v5 audio_only "c1" "c2" = [(audio_of_c1, audio_of_c2)] := by
      decide
    rw [one] at new
    simpa using new
  · simp [Linked, audio_only, idle, empty] at old

theorem one_way_streams : stream_ids known_uuid_v5 one_way "c2" = [audio_of_c2] := by
  decide

/-- The channel that only hears the other may be cleaned up. -/
theorem tables_agree_listener :
    Agree (hangup_cleanup known_uuid_v5 "c2" one_way).tables ∧
      Clean known_uuid_v5 (hangup_cleanup known_uuid_v5 "c2" one_way) := by
  have bridged : Guarded known_uuid_v5 audio_only (.bridge_media "c1" "c2") := by
    intro pair _
    simp [Gone, audio_only, idle]
  have cleaned : Guarded known_uuid_v5 one_way (.hangup_cleanup "c2") := by
    intro source destination linked apart
    rw [one_way_streams, (one_way_linked linked).2] at apart
    exact absurd List.mem_cons_self apart
  exact (tables_agree _ _ _ _ (Run.next (Run.next Run.start bridged rfl) cleaned rfl)).1

/-- The channel that the other hears is still a source of the other when it has been
    cleaned up. -/
theorem source_left_behind :
    ¬ ∀ uuid_v5 channels rooms last, Reaches (tables uuid_v5) (idle channels rooms) last →
      ∀ operation after, tables uuid_v5 last operation = some after →
        Right uuid_v5 last operation after := by
  intro right
  have bridge : tables known_uuid_v5 audio_only (.bridge_media "c1" "c2") = some one_way := rfl
  have bridged : Reaches (tables known_uuid_v5) audio_only one_way :=
    Run.next Run.start trivial bridge
  have after := right _ _ _ _ bridged (.hangup_cleanup "c1") _ rfl
  have still : audio_of_c1 ∈
      (hangup_cleanup known_uuid_v5 "c1" one_way).tables.sources audio_of_c2 := by
    decide
  have dropped : audio_of_c2 ∉
      (hangup_cleanup known_uuid_v5 "c1" one_way).tables.destinations audio_of_c1 := by
    decide
  exact dropped ((after.agree audio_of_c1 audio_of_c2).mpr still)

end MediaSymmetry
