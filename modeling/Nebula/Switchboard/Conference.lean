import Mathlib.Data.Finset.Card
import Nebula.Lib.Completion

/- The members of a conference, each in a call of join and then wait, and what the media streams
   of the members are linked to. Every command to Redis is a step of its own. -/
namespace Conferences
open Interleaving

section Model

inductive Media where
  | audio
  | video
  deriving DecidableEq

inductive Side where
  | destinations
  | sources
  deriving DecidableEq

/-- The entry for a stream in the set of another: that of the destination among the destinations
    of the source, or that of the source among the sources of the destination. -/
structure Link where
  side : Side
  media : Media
  src_channel : ℕ
  dst_channel : ℕ
  deriving DecidableEq

structure Conference where
  needs_chairman : Bool
  moh : Bool
  is_chairman : ℕ → Bool
  has_video : ℕ → Bool

/-- nebula:conference:{id}:members and :chairmans, how many of the two events were added to its
    stream, which channels have hung up, and the sets of the media streams. -/
structure Shared where
  members : Finset ℕ
  chairmans : Finset ℕ
  joins : ℕ
  leaves : ℕ
  hungUp : Finset ℕ
  links : Finset Link

/-- The four places that ask chairman_joined. -/
inductive Site where
  | join
  | join_again
  | wait
  | wait_again
  deriving DecidableEq

inductive Task where
  | check_hangup (member : ℕ)
  | unlink (link : Link)
  deriving DecidableEq

/-- Where a call of join and wait stands. A select knows how many of the events it waits for there
    were as it began. -/
inductive Stage where
  | idle
  | join_chairman
  | join_event
  | join_members
  | chairman_joined (site : Site) (chairmans : Option (List ℕ))
  | no_chairman (in_wait : Bool) (start : ℕ)
  | bridge_media (links : List Link)
  | play_alone
  | play_sound (member start : ℕ)
  | play_moh (member start : ℕ)
  | wait (start : ℕ)
  | leave
  | leave_event
  | leave_members
  | unbridge_media (tasks : List Task)
  | left

/-- The members that join has found stay known after it, in the model only. -/
structure Proc where
  stage : Stage
  found : List ℕ

/-- What a set lists comes in any order. -/
inductive Choice where
  | next
  | listed (order : List ℕ)
  | hangup
  | event

inductive Event where
  | hangup (channel : ℕ)

def Lists (order : List ℕ) (set : Finset ℕ) : Prop := order.Nodup ∧ order.toFinset = set

instance (order : List ℕ) (set : Finset ℕ) : Decidable (Lists order set) :=
  inferInstanceAs (Decidable (_ ∧ _))

variable (conference : Conference) (channel : ℕ) (shared : Shared)

def bridge_media (src_channel dst_channel : ℕ) : List Link :=
  [⟨.destinations, .audio, src_channel, dst_channel⟩,
    ⟨.sources, .audio, src_channel, dst_channel⟩] ++
    if conference.has_video src_channel && conference.has_video dst_channel then
      [⟨.destinations, .video, src_channel, dst_channel⟩,
        ⟨.sources, .video, src_channel, dst_channel⟩]
    else []

def unbridge_media (src_channel dst_channel : ℕ) : List Link :=
  [⟨.destinations, .audio, src_channel, dst_channel⟩, ⟨.sources, .audio, src_channel, dst_channel⟩]

/-- What join adds for the other members that it has found. -/
def bridges (members : List ℕ) : List Link :=
  (members.filter (· ≠ channel)).flatMap fun member =>
    bridge_media conference channel member ++ bridge_media conference member channel

/-- What leave does for the other members that are left. -/
def unbridges (members : List ℕ) : List Task :=
  (members.filter (· ≠ channel)).flatMap fun member =>
    .check_hangup member ::
      (unbridge_media channel member ++ unbridge_media member channel).map .unlink

/-- How each place goes on with the answer of chairman_joined. -/
def Site.answered (found : List ℕ) (site : Site) (chairman_joined : Bool) : Stage :=
  match site with
  | .join => if conference.needs_chairman && !chairman_joined then .no_chairman false shared.joins
    else .bridge_media (bridges conference channel found)
  | .join_again => if chairman_joined then .bridge_media (bridges conference channel found)
    else .no_chairman false shared.joins
  | .wait => if chairman_joined then .play_alone else .no_chairman true shared.joins
  | .wait_again => if chairman_joined then .wait shared.leaves else .no_chairman true shared.joins

def Shared.carryOut : Task → Shared
  | .check_hangup member =>
    if member ∈ shared.hungUp then { shared with members := shared.members.erase member }
    else shared
  | .unlink link => { shared with links := shared.links.erase link }

/-- A sound ends, a hang-up is found in the stream of a channel again and again, and an event of
    the conference once after the select began. -/
def step (choice : Choice) (proc : Proc) : Option (Shared × Proc) :=
  let go shared stage := some (shared, { proc with stage })
  match proc.stage, choice with
  | .idle, .next => go { shared with members := insert channel shared.members } .join_chairman
  | .join_chairman, .next =>
    go (if conference.is_chairman channel then
        { shared with chairmans := insert channel shared.chairmans } else shared) .join_event
  | .join_event, .next => go { shared with joins := shared.joins + 1 } .join_members
  | .join_members, .listed members =>
    if Lists members shared.members then some (shared, ⟨.chairman_joined .join none, members⟩)
    else none
  | .chairman_joined site none, .listed chairmans =>
    if Lists chairmans shared.chairmans then go shared (.chairman_joined site (some chairmans))
    else none
  | .chairman_joined site (some (chairman :: rest)), .next =>
    if chairman ∈ shared.hungUp then
      go { shared with chairmans := shared.chairmans.erase chairman }
        (.chairman_joined site (some rest))
    else go shared (site.answered conference channel shared proc.found true)
  | .chairman_joined site (some []), .next =>
    go shared (site.answered conference channel shared proc.found false)
  | .no_chairman in_wait _, .hangup =>
    if channel ∈ shared.hungUp then go shared (.no_chairman in_wait shared.joins) else none
  | .no_chairman in_wait start, .event =>
    if start < shared.joins then
      go shared (.chairman_joined (if in_wait then .wait_again else .join_again) none)
    else none
  | .bridge_media (link :: rest), .next =>
    go { shared with links := insert link shared.links } (.bridge_media rest)
  | .bridge_media [], .next => go shared .play_alone
  | .play_alone, .listed members =>
    if Lists members shared.members then
      go shared (match members with
        | [member] => .play_sound member shared.joins
        | _ => .wait shared.leaves)
    else none
  | .play_sound member _, .next =>
    go shared (if conference.moh then .play_moh member shared.joins else .wait shared.leaves)
  | .play_sound member _, .hangup | .play_moh member _, .hangup =>
    if member ∈ shared.hungUp then go shared (.wait shared.leaves) else none
  | .play_sound _ start, .event | .play_moh _ start, .event =>
    if start < shared.joins then go shared (.wait shared.leaves) else none
  | .wait _, .hangup => if channel ∈ shared.hungUp then go shared .leave else none
  | .wait start, .event =>
    if start < shared.leaves then
      go shared (if conference.needs_chairman then .chairman_joined .wait none else .play_alone)
    else none
  | .leave, .next => go { shared with members := shared.members.erase channel } .leave_event
  | .leave_event, .next => go { shared with leaves := shared.leaves + 1 } .leave_members
  | .leave_members, .listed members =>
    if Lists members shared.members then go shared (.unbridge_media (unbridges channel members))
    else none
  | .unbridge_media (task :: rest), .next => go (shared.carryOut task) (.unbridge_media rest)
  | .unbridge_media [], .next => go shared .left
  | _, _ => none

/-- The hang-up of a channel is added to its stream once. -/
def happen (shared : Shared) : Event → Option Shared
  | .hangup channel =>
    if channel ∈ shared.hungUp then none
    else some { shared with hungUp := insert channel shared.hungUp }

def calls : System Shared Proc Choice Event where
  step := fun channel choice shared proc => step conference channel shared choice proc
  outside := fun event shared => happen shared event

def start : World Shared Proc where
  shared := ⟨∅, ∅, 0, 0, ∅, ∅⟩
  procs := fun _ => ⟨.idle, []⟩

end Model

section Claimed
variable (conference : Conference)

/-- The call is under way. -/
def Stage.begun : Stage → Prop
  | .idle => False
  | _ => True

/-- Joined, not waiting for a chairman, and not leaving. -/
def Stage.joined : Stage → Prop
  | .chairman_joined .wait _ | .chairman_joined .wait_again _ | .play_alone | .play_sound _ _
  | .play_moh _ _ | .wait _ => True
  | _ => False

def Link.between (link : Link) (channel other : ℕ) : Prop :=
  link.src_channel = channel ∧ link.dst_channel = other ∨
    link.src_channel = other ∧ link.dst_channel = channel

/-- What holds in a state from which the calls go on as the guard lets them. -/
structure Right (guard : Guard Shared Proc Choice Event) (world : World Shared Proc) : Prop where
  ends : ∀ channel ∈ world.shared.hungUp, (world.procs channel).stage.begun →
    Completion.Completes (calls conference) guard channel (fun proc => proc.stage = .left) world
  out : ∀ channel, (world.procs channel).stage = .left → channel ∉ world.shared.members
  connected : ∀ channel ∈ world.shared.members, ∀ member ∈ world.shared.members,
    channel ≠ member → (world.procs channel).stage.joined → (world.procs member).stage.joined →
      ∀ link ∈ bridge_media conference channel member, link ∈ world.shared.links
  apart : ∀ channel ∈ world.shared.members, ∀ other, (world.procs other).stage = .left →
    ∀ link ∈ world.shared.links, ¬link.between channel other

/-- Has not left, and if it is leaving it will still remove the link. -/
def Stage.clears (link : Link) : Stage → Prop
  | .idle | .left => False
  | .unbridge_media tasks => .unlink link ∈ tasks
  | _ => True

/-- No channel hangs up while it waits for a chairman or comes to wait for one after; no one is
    linked to a channel that has left or has been cut off from it; no one goes on to wait as
    another who is alone; and no channel leaves that is linked by video to a member. -/
def Attended : Guard Shared Proc Choice Event := fun world action =>
  match action with
  | .outside (.hangup channel) => match (world.procs channel).stage with
    | .no_chairman _ _ => False
    | _ => True
  | .proc channel choice => match (world.procs channel).stage with
    | .chairman_joined site (some []) =>
      channel ∈ world.shared.hungUp → site = .join ∧ conference.needs_chairman = false
    | .bridge_media (link :: _) => (world.procs link.src_channel).stage.clears link ∧
      (world.procs link.dst_channel).stage.clears link
    | .play_sound member _ => choice = .next → conference.moh → member = channel
    | .leave_members => ∀ link ∈ world.shared.links, link.media = .video →
      ∀ member ∈ world.shared.members, ¬link.between channel member
    | _ => True

end Claimed

end Conferences
