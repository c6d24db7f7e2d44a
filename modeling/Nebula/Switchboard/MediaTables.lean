import Nebula.Lib.Runs
import Nebula.Lib.TwoWayLinks

/- Which media stream is sent where: the sets destinations and sources of each stream, and
   the operations of bridges and channels that edit them, one operation at a time. What
   else happens to the channels and the rooms in between is open. -/
namespace MediaTables
open TwoWayLinks

inductive MediaType where
  | Audio
  | Video
  | Image
  deriving DecidableEq

structure MediaDescription where
  media_type : MediaType
  port : Nat
  mid : Option String
  deriving DecidableEq

abbrev SessionDescription := List MediaDescription

def PEER_CONNECTION_PORT : Nat := 9998

/-- The fields of nebula:channel:{id} that are read: the local SDP, whether there is a
    call context, and the room. -/
structure Channel where
  local_sdp : Option SessionDescription
  call_context : Bool
  room : String

/-- `channels` are the records of all channels, `rooms` the members of each room. The last
    field is no part of the code: the channels that have been cleaned up. -/
structure State where
  channels : String → Channel
  rooms : Sets String
  tables : Links String
  cleaned : List String

def SessionDescription.audio (sdp : SessionDescription) : Option MediaDescription :=
  sdp.find? fun media => media.media_type = .Audio

def SessionDescription.video (sdp : SessionDescription) : Option MediaDescription :=
  sdp.find? fun media => media.media_type = .Video

def sadd_destinations (id destination : String) (tables : Links String) : Links String :=
  { tables with destinations := add id destination tables.destinations }

def sadd_sources (id source : String) (tables : Links String) : Links String :=
  { tables with sources := add id source tables.sources }

def srem_destinations (id destination : String) (tables : Links String) : Links String :=
  { tables with destinations := remove id destination tables.destinations }

def srem_sources (id source : String) (tables : Links String) : Links String :=
  { tables with sources := remove id source tables.sources }

def del_destinations (id : String) (tables : Links String) : Links String :=
  { tables with destinations := clear id tables.destinations }

def del_sources (id : String) (tables : Links String) : Links String :=
  { tables with sources := clear id tables.sources }

section
variable (uuid_v5 : String → String)

def MediaDescription.uuid (media : MediaDescription) (channel : String) : String :=
  let id := if media.port = PEER_CONNECTION_PORT then media.mid.getD "" else toString media.port
  uuid_v5 (channel ++ ":" ++ id)

def get_audio_id (state : State) (channel : String) : Option String :=
  (state.channels channel).local_sdp.bind fun sdp =>
    sdp.audio.map fun media => media.uuid uuid_v5 channel

def get_video_id (state : State) (channel : String) : Option String :=
  (state.channels channel).local_sdp.bind fun sdp =>
    sdp.video.map fun media => media.uuid uuid_v5 channel

/-- One stream to another, where both channels have one; it is false where they do not. -/
def bridge_media (src_channel dst_channel : String) (state : State) : State :=
  match get_audio_id uuid_v5 state src_channel, get_audio_id uuid_v5 state dst_channel with
  | some src_audio_id, some dst_audio_id =>
    let audio := sadd_sources dst_audio_id src_audio_id
      (sadd_destinations src_audio_id dst_audio_id state.tables)
    match get_video_id uuid_v5 state src_channel, get_video_id uuid_v5 state dst_channel with
    | some src_video_id, some dst_video_id => { state with
        tables := sadd_sources dst_video_id src_video_id
          (sadd_destinations src_video_id dst_video_id audio) }
    | _, _ => { state with tables := audio }
  | _, _ => state

def unbridge_media (src_channel dst_channel : String) (state : State) : State :=
  match get_audio_id uuid_v5 state src_channel, get_audio_id uuid_v5 state dst_channel with
  | some src_audio_id, some dst_audio_id => { state with
      tables := srem_sources dst_audio_id src_audio_id
        (srem_destinations src_audio_id dst_audio_id state.tables) }
  | _, _ => state

/-- What a channel that joins does for one member of the room. -/
def join_member (state : State) (channel audio_id : String) (tables : Links String)
    (member : String) : Links String :=
  if member = channel ∨ (state.channels member).call_context = false then tables
  else match get_audio_id uuid_v5 state member with
  | some member_audio_id =>
    sadd_sources audio_id member_audio_id
      (sadd_sources member_audio_id audio_id
        (sadd_destinations audio_id member_audio_id
          (sadd_destinations member_audio_id audio_id tables)))
  | none => tables

/-- `answer_sdp` is the answer that is created for the channel. -/
def join_room (channel room : String) (answer_sdp : SessionDescription) (state : State) : State :=
  let joined := { state with
    channels := Function.update state.channels channel
      { state.channels channel with local_sdp := some answer_sdp }
    rooms := add room channel state.rooms }
  match get_audio_id uuid_v5 joined channel with
  | some audio_id => { joined with
      tables := (joined.rooms room).foldl (join_member uuid_v5 joined channel audio_id)
        joined.tables }
  | none => joined

/-- The video streams of the members in a request, the channel itself apart. -/
def new_sources (state : State) (channel : String) (members : List String) : List String :=
  members.filterMap fun member =>
    if member = channel then none else get_video_id uuid_v5 state member

def subscribe_room (channel : String) (members : List String) (state : State) : State :=
  if (state.channels channel).room = "" then state
  else match get_video_id uuid_v5 state channel with
  | some video_id =>
    let current_sources := state.tables.sources video_id
    let new_sources := new_sources uuid_v5 state channel members
    let removed := (current_sources.filter fun source => source ∉ new_sources).foldl
      (fun tables source => srem_destinations source video_id (srem_sources video_id source tables))
      state.tables
    { state with
      tables := (new_sources.filter fun source => source ∉ current_sources).foldl
        (fun tables source => sadd_destinations source video_id (sadd_sources video_id source tables))
        removed }
  | none => state

/-- What a clean-up does for one media of the channel. -/
def stop_media_stream (tables : Links String) (id : String) : Links String :=
  let removed := (tables.sources id).foldl
    (fun tables source => srem_destinations source id tables) tables
  del_destinations id (del_sources id removed)

/-- The streams of a channel's local SDP. -/
def stream_ids (state : State) (channel : String) : List String :=
  ((state.channels channel).local_sdp.getD []).map fun media => media.uuid uuid_v5 channel

def stop_media (channel : String) (state : State) : State :=
  { state with
    tables := (stream_ids uuid_v5 state channel).foldl stop_media_stream state.tables }

def hangup_cleanup (channel : String) (state : State) : State :=
  let stopped := stop_media uuid_v5 channel state
  { stopped with cleaned := channel :: stopped.cleaned }

/-- One operation, or anything that befalls channels and rooms elsewhere. -/
inductive Operation where
  | bridge_media (src_channel dst_channel : String)
  | unbridge_media (src_channel dst_channel : String)
  | join_room (channel room : String) (answer_sdp : SessionDescription)
  | subscribe_room (channel : String) (members : List String)
  | hangup_cleanup (channel : String)
  | elsewhere (channels : String → Channel) (rooms : Sets String)

def operate (state : State) : Operation → State
  | .bridge_media src_channel dst_channel => bridge_media uuid_v5 src_channel dst_channel state
  | .unbridge_media src_channel dst_channel => unbridge_media uuid_v5 src_channel dst_channel state
  | .join_room channel room answer_sdp => join_room uuid_v5 channel room answer_sdp state
  | .subscribe_room channel members => subscribe_room uuid_v5 channel members state
  | .hangup_cleanup channel => hangup_cleanup uuid_v5 channel state
  | .elsewhere channels rooms => { state with channels := channels, rooms := rooms }

def tables : Runs.Machine State Operation :=
  fun state operation => some (operate uuid_v5 state operation)

end

/-- No stream is sent anywhere yet. -/
def idle (channels : String → Channel) (rooms : Sets String) : State where
  channels := channels
  rooms := rooms
  tables := empty String
  cleaned := []

end MediaTables
