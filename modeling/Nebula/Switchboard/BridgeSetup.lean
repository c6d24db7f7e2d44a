import Nebula.Switchboard.Bridge
import Nebula.Switchboard.CallContexts

/- bridge_extensions starts the outbound channels one after another and writes the
   record of the bridge after the last of them. handle_answer of a channel that has
   been started runs beside it. The end of the ringing itself is Bridge::answer. -/
namespace BridgeSetup
open Interleaving Bridge CallContexts

/-- A location of an extension, with the id generated for its outbound channel. -/
structure Location where
  id : Channel
  isUser : Bool
  deriving DecidableEq

/-- What bridge_extensions is called with, and the context of its inbound channel. -/
structure Request where
  self : Channel
  context : CallContext
  extensions : List (Option (List Location))
  ringtone : String
  announcement : String
  tenant_id : String

/-- The locations in the order of the two loops. -/
def Request.locations (request : Request) : List Location :=
  request.extensions.flatMap (fun found => found.getD [])

def Request.endpoints_has_user (request : Request) : Bool :=
  request.locations.any (fun location => location.isUser)

/-- Calls that come neither from a sip user nor from a trunk ring straight away. -/
def Request.rings (request : Request) : Bool := request.context.endpoint.isProvider

/-- media holds each pair of channels whose streams are bridged, source first. -/
structure Session where
  bridge : Shared
  bridge_id : Bool
  ringtone : String
  announcement : String
  spawned : List Channel
  answered : List Channel
  media : List (Channel × Channel)
  deriving DecidableEq

inductive Step where
  | extensions (rest : List Location)
  | spawn (location : Location) (rest : List Location)
  | set_inbound
  | set_ringtone
  | set_announcement
  | set_tenant_id
  | ring
  | ringing
  | incoming_bridge
  | bridged
  | handle_answer (channel : Channel)
  | set_answered (channel : Channel)
  | answer (channel : Channel) (call : Bridge.Proc)
  | get_inbound (channel : Channel)
  | inbound_answer (channel inbound : Channel)
  | inbound_context (channel inbound : Channel)
  | stop_ringtone (channel inbound : Channel)
  | transfer_peer (channel : Channel)
  | bridge_media (channel peer : Channel)
  | bridge_media_back (channel peer : Channel)
  | connected (channel : Channel)
  | alreadyHungUp
  | alreadyAnswered
  | failed
  | elsewhere
  | idle
  deriving DecidableEq

/-- Whether an awaited call succeeds, and the peer of a transferred call. -/
structure Choice where
  bridge : Bridge.Choice := {}
  succeeds : Bool := true
  peer : Option Channel := none

/-- What becomes of Bridge::answer after one of its commands. -/
def afterCall (channel : Channel) (call arrived : Bridge.Proc) : Step :=
  match call, arrived with
  | .bridgeEvent _, _ => .get_inbound channel
  | .exists _, .returned => .alreadyHungUp
  | .isHangup _, .returned => .alreadyHungUp
  | .answered _, .returned => .alreadyAnswered
  | _, .returned => .elsewhere
  | _, arrived => .answer channel arrived

def attempt (choice : Choice) (next : Step) : Step := if choice.succeeds then next else .failed

/-- The record of a bridge comes into being with the first field that is set. -/
def Session.setField (session : Session) (set : Shared → Shared) : Session :=
  { session with bridge := { set session.bridge with present := true } }

def afterTenantId (request : Request) : Step :=
  if request.rings then .ring
  else if request.endpoints_has_user then .incoming_bridge else .bridged

def step (request : Request) (pid : Nat) (choice : Choice) (session : Session) :
    Step → Option (Session × Step)
  | .extensions [] => some ({ session with bridge_id := true }, .set_inbound)
  | .extensions (location :: rest) =>
    some ({ session with
      bridge := { session.bridge with channels := session.bridge.channels.insert location.id } },
      .spawn location rest)
  | .spawn location rest =>
    some ({ session with spawned := location.id :: session.spawned }, .extensions rest)
  | .set_inbound =>
    some (session.setField (fun bridge => { bridge with inbound := some request.self }),
      .set_ringtone)
  | .set_ringtone =>
    some ({ session.setField id with ringtone := request.ringtone }, .set_announcement)
  | .set_announcement =>
    some ({ session.setField id with announcement := request.announcement }, .set_tenant_id)
  | .set_tenant_id =>
    some (session.setField (fun bridge => { bridge with tenantId := request.tenant_id }),
      afterTenantId request)
  | .ring => some (session, attempt choice .ringing)
  | .ringing =>
    some (session.setField (fun bridge => { bridge with ringing := 183 }),
      if request.endpoints_has_user then .incoming_bridge else .bridged)
  | .incoming_bridge =>
    some ({ session with bridge := { session.bridge with incoming := true } }, .bridged)
  | .handle_answer channel =>
    -- Only a channel that was invited can answer.
    if channel ∈ session.spawned then
      some (session, if channel ∈ session.answered then .elsewhere else .set_answered channel)
    else none
  | .set_answered channel =>
    some ({ session with answered := channel :: session.answered },
      attempt choice (.answer channel (.answer channel)))
  | .answer channel call =>
    match Bridge.step pid choice.bridge session.bridge call with
    | some (bridge, arrived) => some ({ session with bridge := bridge }, afterCall channel call arrived)
    | none => none
  | .get_inbound channel =>
    some (session, match session.bridge.inbound with
      | some inbound => .inbound_answer channel inbound
      | none => .failed)
  | .inbound_answer channel inbound =>
    some ({ session with answered := session.answered.insert inbound },
      attempt choice (.inbound_context channel inbound))
  | .inbound_context channel inbound =>
    some (session, match request.context.callback with
      | some _ => .elsewhere
      | none => .stop_ringtone channel inbound)
  | .stop_ringtone channel inbound =>
    some (session, attempt choice (match request.context.transfer with
      | some _ => .transfer_peer channel
      | none => .bridge_media channel inbound))
  | .transfer_peer channel =>
    some (session, match choice.peer with
      | some peer => .bridge_media channel peer
      | none => .elsewhere)
  | .bridge_media channel peer =>
    some ({ session with media := (peer, channel) :: session.media },
      attempt choice (.bridge_media_back channel peer))
  | .bridge_media_back channel peer =>
    some ({ session with media := (channel, peer) :: session.media },
      attempt choice (.connected channel))
  | .bridged => none
  | .connected _ => none
  | .alreadyHungUp => none
  | .alreadyAnswered => none
  | .failed => none
  | .elsewhere => none
  | .idle => none

def unlock (pid : Nat) (session : Session) : Option Session :=
  match Bridge.unlock pid session.bridge with
  | some bridge => some { session with bridge := bridge }
  | none => none

def setup (request : Request) : System Session Step Choice Nat where
  step := step request
  outside := unlock

/-- A generated id: no key of the bridge exists yet. -/
def noBridge : Shared where
  present := false
  inbound := none
  tenantId := ""
  incoming := false
  marks := []
  ringing := 0
  channels := []
  hangupChannels := []
  stream := []
  lock := none
  unlocking := []

/-- Process 0 is bridge_extensions, process 1 handle_answer of the channel. -/
def start (request : Request) (channel : Channel) : World Session Step where
  shared := ⟨noBridge, false, "", "", [], [], []⟩
  procs := fun
    | 0 => .extensions request.locations
    | 1 => .handle_answer channel
    | _ => .idle

def ended : Step → Bool
  | .connected _ => true
  | .alreadyHungUp => true
  | .alreadyAnswered => true
  | .failed => true
  | .elsewhere => true
  | _ => false

/-- The answer is not refused as hung up, and when both have finished, the channel
    is the one that answered and its media go both ways to the inbound channel. -/
structure Answerable (request : Request) (channel : Channel) (world : World Session Step) :
    Prop where
  accepted : world.procs 1 ≠ .alreadyHungUp
  connected : world.procs 0 = .bridged → ended (world.procs 1) = true →
    answerChannel world.shared.bridge = channel.id ∧
      (request.self, channel) ∈ world.shared.media ∧ (channel, request.self) ∈ world.shared.media

/-- Awaited calls succeed, and a callee who is asked for confirmation gives it. -/
def CallsSucceed : Guard Session Step Choice Nat :=
  fun _ action => ∀ pid choice, action = .proc pid choice →
    choice.succeeds = true ∧ choice.bridge.accepted = true

/-- Bridge::answer looks for the record of the bridge when there is one. -/
def RecordFirst : Guard Session Step Choice Nat :=
  fun world action => ∀ pid choice channel call, action = .proc pid choice →
    world.procs pid = .answer channel (.exists call) → world.shared.bridge.present = true

def isSetup : Step → Bool
  | .extensions _ => true
  | .spawn _ _ => true
  | .set_inbound => true
  | .set_ringtone => true
  | .set_announcement => true
  | .set_tenant_id => true
  | .ring => true
  | .ringing => true
  | .incoming_bridge => true
  | .bridged => true
  | .idle => true
  | _ => false

/-- From set_inbound on. -/
def recorded : Step → Bool
  | .set_ringtone => true
  | .set_announcement => true
  | .set_tenant_id => true
  | .ring => true
  | .ringing => true
  | .incoming_bridge => true
  | .bridged => true
  | _ => false

/-- The bridge is marked as answered by the channel, and by nothing else. -/
def Taken (channel : Channel) (bridge : Shared) : Prop :=
  bridge.marks = [.answerChannel channel] ∧ bridge.present = true

/-- What the call of Bridge::answer knows of the bridge. -/
inductive Stage where
  | unmarked
  | found
  | taken

def Stage.Holds (channel : Channel) (bridge : Shared) : Stage → Prop
  | .unmarked => bridge.marks = []
  | .found => bridge.marks = [] ∧ bridge.present = true
  | .taken => Taken channel bridge

/-- Where Bridge::answer of a channel stands; other commands it does not come to. -/
def callStage : Bridge.Proc → Option (Channel × Stage)
  | .answer own => some (own, .unmarked)
  | .lock (.ender (.answer own)) => some (own, .unmarked)
  | .exists (.ender (.answer own)) => some (own, .unmarked)
  | .isHangup (.ender (.answer own)) => some (own, .found)
  | .answered (.ender (.answer own)) => some (own, .found)
  | .tenantId (.answer own) => some (own, .found)
  | .incoming (.answer own) => some (own, .found)
  | .mark (.answer own) => some (own, .found)
  | .members (.answer own) => some (own, .taken)
  | .srem (.ender (.answer own)) _ _ => some (own, .taken)
  | .sadd (.ender (.answer own)) _ _ => some (own, .taken)
  | .hangupEvent (.ender (.answer own)) _ _ => some (own, .taken)
  | .bridgeEvent (.answer own) => some (own, .taken)
  | _ => none

def KnownCall (channel : Channel) (bridge : Shared) (call : Bridge.Proc) : Prop :=
  ∃ stage : Stage, callStage call = some (channel, stage) ∧ stage.Holds channel bridge

def Known (request : Request) (channel : Channel) (session : Session) : Step → Prop
  | .handle_answer own => own = channel ∧ session.bridge.marks = [] ∧ session.answered = []
  | .set_answered own => own = channel ∧ session.bridge.marks = []
  | .answer own call => own = channel ∧ KnownCall channel session.bridge call
  | .get_inbound own => own = channel ∧ Taken channel session.bridge
  | .inbound_answer own inbound =>
    own = channel ∧ inbound = request.self ∧ Taken channel session.bridge
  | .inbound_context own inbound =>
    own = channel ∧ inbound = request.self ∧ Taken channel session.bridge
  | .stop_ringtone own inbound =>
    own = channel ∧ inbound = request.self ∧ Taken channel session.bridge
  | .bridge_media own peer => own = channel ∧ peer = request.self ∧ Taken channel session.bridge
  | .bridge_media_back own peer =>
    own = channel ∧ peer = request.self ∧ Taken channel session.bridge ∧
      (request.self, channel) ∈ session.media
  | .connected own =>
    own = channel ∧ Taken channel session.bridge ∧ (request.self, channel) ∈ session.media ∧
      (channel, request.self) ∈ session.media
  | step => isSetup step = true ∧ (recorded step = true → session.bridge.present = true)

def InboundSet (request : Request) (session : Session) : Prop :=
  session.bridge.present = true → session.bridge.inbound = some request.self

def outline (request : Request) (channel : Channel) : Outline Session Step where
  whole := InboundSet request
  known := Known request channel
  apart := fun step other => isSetup step = true ∨ isSetup other = true

/-- What a step of bridge_extensions leaves alone. -/
structure Besides (session after : Session) : Prop where
  marks : after.bridge.marks = session.bridge.marks
  media : after.media = session.media
  answered : after.answered = session.answered
  present : session.bridge.present = true → after.bridge.present = true

theorem set_field_besides (session : Session) {set : Shared → Shared}
    (kept : (set session.bridge).marks = session.bridge.marks) :
    Besides session (session.setField set) where
  marks := kept
  media := rfl
  answered := rfl
  present := fun _ => rfl

theorem besides_refl {session after : Session} (bridge : after.bridge = session.bridge)
    (media : after.media = session.media) (answered : after.answered = session.answered) :
    Besides session after where
  marks := by rw [bridge]
  media := media
  answered := answered
  present := fun present => by rw [bridge]; exact present

theorem inbound_kept {request : Request} {session after : Session}
    (whole : InboundSet request session) (present : after.bridge.present = session.bridge.present)
    (inbound : after.bridge.inbound = session.bridge.inbound) : InboundSet request after := by
  intro exists_
  rw [inbound]
  exact whole (present ▸ exists_)

/-- A step of bridge_extensions. -/
structure SetsUp (request : Request) (session after : Session) (arrived : Step) : Prop where
  whole : InboundSet request after
  setting : isSetup arrived = true
  record : recorded arrived = true → after.bridge.present = true
  besides : Besides session after

theorem setup_step {request : Request} {pid : Nat} {choice : Choice} {session after : Session}
    {step arrived : Step} (setting : isSetup step = true)
    (record : recorded step = true → session.bridge.present = true)
    (succeeds : choice.succeeds = true) (whole : InboundSet request session)
    (stepped : BridgeSetup.step request pid choice session step = some (after, arrived)) :
    SetsUp request session after arrived := by
  cases step with
  | extensions rest =>
    cases rest with
    | nil =>
      cases stepped
      exact ⟨whole, rfl, nofun, besides_refl rfl rfl rfl⟩
    | cons location rest =>
      cases stepped
      exact ⟨inbound_kept whole rfl rfl, rfl, nofun, rfl, rfl, rfl, id⟩
  | spawn location rest =>
    cases stepped
    exact ⟨whole, rfl, nofun, besides_refl rfl rfl rfl⟩
  | set_inbound =>
    cases stepped
    exact ⟨fun _ => rfl, rfl, fun _ => rfl, set_field_besides session rfl⟩
  | set_ringtone =>
    cases stepped
    exact ⟨fun _ => whole (record rfl), rfl, fun _ => rfl, rfl, rfl, rfl, fun _ => rfl⟩
  | set_announcement =>
    cases stepped
    exact ⟨fun _ => whole (record rfl), rfl, fun _ => rfl, rfl, rfl, rfl, fun _ => rfl⟩
  | set_tenant_id =>
    cases stepped
    refine ⟨fun _ => whole (record rfl), ?_, fun _ => rfl, set_field_besides session rfl⟩
    unfold afterTenantId
    split
    · rfl
    · split <;> rfl
  | ring =>
    cases stepped
    simp only [attempt, succeeds, if_true]
    exact ⟨whole, rfl, fun _ => record rfl, besides_refl rfl rfl rfl⟩
  | ringing =>
    cases stepped
    refine ⟨fun _ => whole (record rfl), ?_, fun _ => rfl, set_field_besides session rfl⟩
    split <;> rfl
  | incoming_bridge =>
    cases stepped
    exact ⟨inbound_kept whole rfl rfl, rfl, fun _ => record rfl, rfl, rfl, rfl, id⟩
  | bridged => cases stepped
  | idle => cases stepped
  | _ => cases setting

/-- What bridge_extensions does leaves the other process what it knows. -/
theorem known_besides {request : Request} {channel : Channel} {session after : Session}
    {step : Step} (known : Known request channel session step) (besides : Besides session after) :
    Known request channel after step := by
  have taken : Taken channel session.bridge → Taken channel after.bridge := by
    rintro ⟨marks, present⟩
    exact ⟨besides.marks.trans marks, besides.present present⟩
  cases step with
  | handle_answer own =>
    exact ⟨known.1, besides.marks.trans known.2.1, besides.answered.trans known.2.2⟩
  | set_answered own => exact ⟨known.1, besides.marks.trans known.2⟩
  | answer own call =>
    obtain ⟨same, stage, placed, holds⟩ := known
    refine ⟨same, stage, placed, ?_⟩
    cases stage with
    | unmarked => exact besides.marks.trans holds
    | found => exact ⟨besides.marks.trans holds.1, besides.present holds.2⟩
    | taken => exact taken holds
  | get_inbound own => exact ⟨known.1, taken known.2⟩
  | inbound_answer own inbound => exact ⟨known.1, known.2.1, taken known.2.2⟩
  | inbound_context own inbound => exact ⟨known.1, known.2.1, taken known.2.2⟩
  | stop_ringtone own inbound => exact ⟨known.1, known.2.1, taken known.2.2⟩
  | bridge_media own peer => exact ⟨known.1, known.2.1, taken known.2.2⟩
  | bridge_media_back own peer =>
    exact ⟨known.1, known.2.1, taken known.2.2.1, besides.media ▸ known.2.2.2⟩
  | connected own =>
    exact ⟨known.1, taken known.2.1, besides.media ▸ known.2.2.1, besides.media ▸ known.2.2.2⟩
  | _ => exact ⟨known.1, fun record => besides.present (known.2 record)⟩

/-- A command of Bridge::answer, with the record there when it is looked for. -/
structure CallGoesOn (channel : Channel) (bridge after : Shared) (call arrived : Bridge.Proc) :
    Prop where
  inbound : after.inbound = bridge.inbound
  present : bridge.present = true → after.present = true
  created : after.present = true → bridge.present = true
  arrives : afterCall channel call arrived = .answer channel arrived ∧
      KnownCall channel after arrived ∨
    afterCall channel call arrived = .get_inbound channel ∧ Taken channel after

theorem call_goes_on {channel : Channel} {bridge after : Shared} {call arrived : Bridge.Proc}
    (inbound : after.inbound = bridge.inbound) (present : after.present = bridge.present)
    (goes : afterCall channel call arrived = .answer channel arrived) {stage : Stage}
    (placed : callStage arrived = some (channel, stage)) (holds : stage.Holds channel after) :
    CallGoesOn channel bridge after call arrived where
  inbound := inbound
  present := fun before => present ▸ before
  created := fun now => present ▸ now
  arrives := Or.inl ⟨goes, stage, placed, holds⟩

/-- The loop over the other channels, at one of them or at its end. -/
theorem loop_goes_on {channel : Channel} {bridge after : Shared} {call : Bridge.Proc}
    {left : List Channel} (inbound : after.inbound = bridge.inbound)
    (present : after.present = bridge.present) (taken : Taken channel after)
    (goes : ∀ arrived, arrived ≠ .returned → afterCall channel call arrived = .answer channel arrived) :
    CallGoesOn channel bridge after call ((Mover.ender (.answer channel)).goOn left) := by
  cases left with
  | nil => exact call_goes_on inbound present (goes _ nofun) rfl taken
  | cons first rest => exact call_goes_on inbound present (goes _ nofun) rfl taken

theorem call_step {pid : Nat} {choice : Bridge.Choice} {channel : Channel} {bridge after : Shared}
    {call arrived : Bridge.Proc} (known : KnownCall channel bridge call)
    (accepted : choice.accepted = true)
    (recordFirst : ∀ inner, call = .exists inner → bridge.present = true)
    (stepped : Bridge.step pid choice bridge call = some (after, arrived)) :
    CallGoesOn channel bridge after call arrived := by
  obtain ⟨stage, placed, holds⟩ := known
  unfold callStage at placed
  split at placed
  case h_14 => cases placed
  all_goals
    cases placed
    simp only [Bridge.step, accepted, if_true, Option.some.injEq, Prod.mk.injEq] at stepped
  case h_1 =>
    obtain ⟨rfl, rfl⟩ := stepped
    exact call_goes_on rfl rfl rfl rfl holds
  case h_2 =>
    unfold Bridge.lock at stepped
    split at stepped
    · cases stepped
      exact call_goes_on rfl rfl rfl rfl holds
    · split at stepped
      · cases stepped
        exact call_goes_on rfl rfl rfl rfl holds
      · cases stepped
        exact call_goes_on rfl rfl rfl rfl holds
  case h_3 =>
    have present := recordFirst _ rfl
    simp only [present, if_true] at stepped
    obtain ⟨rfl, rfl⟩ := stepped
    exact call_goes_on rfl rfl rfl rfl ⟨holds, present⟩
  case h_4 =>
    have open_ : hungUp bridge = false := by simp [hungUp, holds.1]
    simp only [open_, Bool.false_eq_true, if_false] at stepped
    obtain ⟨rfl, rfl⟩ := stepped
    exact call_goes_on rfl rfl rfl rfl holds
  case h_5 =>
    have unanswered : Bridge.answered bridge = false := by
      simp [Bridge.answered, answerChannel, holds.1, latestAnswer]
    simp only [unanswered, Bool.false_eq_true, if_false] at stepped
    obtain ⟨rfl, rfl⟩ := stepped
    exact call_goes_on rfl rfl rfl rfl holds
  case h_6 =>
    obtain ⟨rfl, rfl⟩ := stepped
    split
    · exact call_goes_on rfl rfl rfl rfl holds
    · exact call_goes_on rfl rfl rfl rfl holds
  case h_7 =>
    obtain ⟨rfl, rfl⟩ := stepped
    exact call_goes_on rfl rfl rfl rfl holds
  case h_8 =>
    obtain ⟨rfl, rfl⟩ := stepped
    refine ⟨rfl, fun _ => rfl, fun _ => holds.2, Or.inl ⟨rfl, .taken, rfl, ?_, rfl⟩⟩
    simp only [Ender.mark, holds.1]
  case h_9 =>
    split at stepped
    · cases stepped
      exact loop_goes_on rfl rfl holds (fun arrived left => by cases arrived <;> first | rfl | exact absurd rfl left)
    · cases stepped
  case h_10 =>
    obtain ⟨rfl, rfl⟩ := stepped
    exact call_goes_on rfl rfl rfl rfl holds
  case h_11 =>
    obtain ⟨rfl, rfl⟩ := stepped
    exact call_goes_on rfl rfl rfl rfl holds
  case h_12 =>
    obtain ⟨rfl, rfl⟩ := stepped
    exact loop_goes_on rfl rfl holds (fun arrived left => by cases arrived <;> first | rfl | exact absurd rfl left)
  case h_13 =>
    obtain ⟨rfl, rfl⟩ := stepped
    exact ⟨rfl, id, id, Or.inr ⟨rfl, holds⟩⟩

/-- A step of handle_answer. -/
structure Answers (request : Request) (channel : Channel) (session after : Session)
    (arrived : Step) : Prop where
  inbound : after.bridge.inbound = session.bridge.inbound
  present : session.bridge.present = true → after.bridge.present = true
  created : after.bridge.present = true → session.bridge.present = true
  known : Known request channel after arrived

theorem answers_of_known {request : Request} {channel : Channel} {session after : Session}
    {arrived : Step} (same : after.bridge = session.bridge)
    (known : Known request channel after arrived) : Answers request channel session after arrived where
  inbound := by rw [same]
  present := fun before => same ▸ before
  created := fun now => same ▸ now
  known := known

theorem answer_step {request : Request} (noTransfer : request.context.transfer = none)
    (noCallback : request.context.callback = none) {pid : Nat} {choice : Choice} {channel : Channel}
    {session after : Session} {step arrived : Step} (answering : isSetup step = false)
    (known : Known request channel session step) (whole : InboundSet request session)
    (succeeds : choice.succeeds = true ∧ choice.bridge.accepted = true)
    (recordFirst : ∀ own call, step = .answer own (.exists call) → session.bridge.present = true)
    (stepped : BridgeSetup.step request pid choice session step = some (after, arrived)) :
    Answers request channel session after arrived := by
  cases step with
  | handle_answer own =>
    simp only [BridgeSetup.step] at stepped
    split at stepped
    · cases stepped
      simp only [known.2.2, List.not_mem_nil, if_false]
      exact answers_of_known rfl ⟨known.1, known.2.1⟩
    · cases stepped
  | set_answered own =>
    simp only [BridgeSetup.step, attempt, succeeds.1, if_true] at stepped
    cases stepped
    exact answers_of_known rfl ⟨known.1, .unmarked, by rw [known.1]; rfl, known.2⟩
  | answer own call =>
    simp only [BridgeSetup.step] at stepped
    cases called : Bridge.step pid choice.bridge session.bridge call with
    | none =>
      rw [called] at stepped
      cases stepped
    | some result =>
      obtain ⟨bridge, reached⟩ := result
      rw [called] at stepped
      cases stepped
      obtain ⟨rfl, knownCall⟩ := known
      have goesOn := call_step knownCall succeeds.2
        (fun inner isExists => recordFirst own inner (by rw [isExists])) called
      refine ⟨goesOn.inbound, goesOn.present, goesOn.created, ?_⟩
      rcases goesOn.arrives with ⟨goes, knows⟩ | ⟨goes, taken⟩
      · rw [goes]
        exact ⟨rfl, knows⟩
      · rw [goes]
        exact ⟨rfl, taken⟩
  | get_inbound own =>
    simp only [BridgeSetup.step, whole known.2.2] at stepped
    cases stepped
    exact answers_of_known rfl ⟨known.1, rfl, known.2⟩
  | inbound_answer own inbound =>
    simp only [BridgeSetup.step, attempt, succeeds.1, if_true] at stepped
    cases stepped
    exact answers_of_known rfl known
  | inbound_context own inbound =>
    simp only [BridgeSetup.step, noCallback] at stepped
    cases stepped
    exact answers_of_known rfl known
  | stop_ringtone own inbound =>
    simp only [BridgeSetup.step, attempt, succeeds.1, if_true, noTransfer] at stepped
    cases stepped
    exact answers_of_known rfl known
  | transfer_peer own => cases known.1
  | bridge_media own peer =>
    simp only [BridgeSetup.step, attempt, succeeds.1, if_true] at stepped
    cases stepped
    obtain ⟨rfl, rfl, taken⟩ := known
    exact answers_of_known rfl ⟨rfl, rfl, taken, List.mem_cons_self⟩
  | bridge_media_back own peer =>
    simp only [BridgeSetup.step, attempt, succeeds.1, if_true] at stepped
    cases stepped
    obtain ⟨rfl, rfl, taken, there⟩ := known
    exact answers_of_known rfl ⟨rfl, taken, List.mem_cons_of_mem _ there, List.mem_cons_self⟩
  | connected own => cases stepped
  | alreadyHungUp => cases stepped
  | alreadyAnswered => cases stepped
  | failed => cases stepped
  | elsewhere => cases stepped
  | _ => cases answering

theorem known_setup {request : Request} {channel : Channel} {session after : Session} {step : Step}
    (setting : isSetup step = true) (known : Known request channel session step)
    (present : session.bridge.present = true → after.bridge.present = true) :
    Known request channel after step := by
  cases step <;> first
    | exact ⟨known.1, fun record => present (known.2 record)⟩
    | cases setting

theorem known_of_sets_up {request : Request} (channel : Channel) {session after : Session}
    {arrived : Step} (setsUp : SetsUp request session after arrived) :
    Known request channel after arrived := by
  have setting := setsUp.setting
  cases arrived <;> first
    | exact ⟨rfl, setsUp.record⟩
    | cases setting

theorem record_of_known {request : Request} {channel : Channel} {session : Session} {step : Step}
    (setting : isSetup step = true) (known : Known request channel session step) :
    recorded step = true → session.bridge.present = true := by
  cases step <;> first
    | exact known.2
    | cases setting

theorem step_keeps {request : Request} {channel : Channel}
    (noTransfer : request.context.transfer = none) (noCallback : request.context.callback = none)
    {world : World Session Step} {pid : Nat} {choice : Choice} {session : Session} {arrived : Step}
    (holds : (outline request channel).Holds world)
    (succeeds : CallsSucceed world (.proc pid choice))
    (recordFirst : RecordFirst world (.proc pid choice))
    (stepped : (setup request).step pid choice world.shared (world.procs pid) =
      some (session, arrived)) : (outline request channel).Keeps world pid session arrived := by
  have known := holds.known pid
  have fine := succeeds pid choice rfl
  by_cases setting : isSetup (world.procs pid) = true
  · have setsUp := setup_step setting (record_of_known setting known) fine.1 holds.whole stepped
    exact {
      whole := setsUp.whole
      known := known_of_sets_up channel setsUp
      undisturbed := fun other _ => known_besides (holds.known other) setsUp.besides
      free := fun other _ => Or.inl setsUp.setting }
  · have others : ∀ other, other ≠ pid → isSetup (world.procs other) = true := by
      intro other different
      rcases holds.apart other pid different with left | right
      · exact left
      · exact absurd right setting
    have answers := answer_step noTransfer noCallback (by simpa using setting) known holds.whole fine
      (fun own call isExists => recordFirst pid choice own call rfl isExists) stepped
    exact {
      whole := fun present => by rw [answers.inbound]; exact holds.whole (answers.created present)
      known := answers.known
      undisturbed := fun other different =>
        known_setup (others other different) (holds.known other) answers.present
      free := fun other different => Or.inr (others other different) }

theorem unlock_besides {pid : Nat} {session after : Session}
    (unlocked : unlock pid session = some after) :
    Besides session after ∧ after.bridge.present = session.bridge.present ∧
      after.bridge.inbound = session.bridge.inbound := by
  simp only [unlock, Bridge.unlock] at unlocked
  split at unlocked
  · rename_i bridge freed
    cases unlocked
    split at freed
    · cases freed
      exact ⟨⟨rfl, rfl, rfl, id⟩, rfl, rfl⟩
    · cases freed
  · cases unlocked

theorem start_holds (request : Request) (channel : Channel) :
    (outline request channel).Holds (start request channel) := by
  constructor
  · intro present
    cases present
  · intro pid
    match pid with
    | 0 => exact ⟨rfl, nofun⟩
    | 1 => exact ⟨rfl, rfl, rfl⟩
    | _ + 2 => exact ⟨rfl, nofun⟩
  · intro pid other different
    match pid, other with
    | 0, _ => exact Or.inl rfl
    | _ + 2, _ => exact Or.inl rfl
    | 1, 0 => exact Or.inr rfl
    | 1, _ + 2 => exact Or.inr rfl
    | 1, 1 => exact absurd rfl different

theorem run_outline {request : Request} {channel : Channel}
    (noTransfer : request.context.transfer = none) (noCallback : request.context.callback = none)
    {last : World Session Step}
    (run : Run (setup request) (fun world action => CallsSucceed world action ∧
      RecordFirst world action) (start request channel) last) :
    (outline request channel).Holds last := by
  apply Outline.run_holds (fun _ _ => Or.symm) (start_holds request channel) _ _ run
  · intro world pid choice session arrived holds allowed stepped
    exact step_keeps noTransfer noCallback holds allowed.1 allowed.2 stepped
  · intro world event session holds _ unlocked
    obtain ⟨besides, present, inbound⟩ := unlock_besides unlocked
    exact {
      whole := inbound_kept holds.whole present inbound
      known := fun pid => known_besides (holds.known pid) besides
      apart := holds.apart }

theorem answerable_of_outline {request : Request} {channel : Channel} {world : World Session Step}
    (holds : (outline request channel).Holds world) : Answerable request channel world := by
  have known := holds.known 1
  constructor
  · intro refused
    rw [refused] at known
    cases known.1
  · intro _ is_over
    cases reached : world.procs 1 with
    | connected own =>
      rw [reached] at known
      obtain ⟨_, taken, there, back⟩ := known
      refine ⟨?_, there, back⟩
      rw [answerChannel, taken.1]
      rfl
    | _ =>
      rw [reached] at is_over known
      first
        | (cases is_over; done)
        | cases known.1

/-- Where the record is missing, the answer is refused: the condition is needed. -/
theorem no_record_refuses (request : Request) (world : World Session Step) (choice : Choice)
    (channel : Channel) (call : Call) (stands : world.procs 1 = .answer channel (.exists call))
    (missing : world.shared.bridge.present = false) :
    act (setup request) world (.proc 1 choice) =
      some (world.moved 1 world.shared .alreadyHungUp) := by
  apply act_proc
  rw [stands]
  simp [setup, step, Bridge.step, missing, afterCall]

/-- In every run in which Bridge::answer looks for the record of the bridge after
    bridge_extensions has begun it. -/
theorem answered_from_first_ring (request : Request) (channel : Channel)
    (noTransfer : request.context.transfer = none) (noCallback : request.context.callback = none)
    (last : World Session Step)
    (run : Run (setup request) (fun world action => CallsSucceed world action ∧
      RecordFirst world action) (start request channel) last) :
    Answerable request channel last :=
  answerable_of_outline (run_outline noTransfer noCallback run)

def caller : Channel := ⟨"inbound", by decide⟩

def desk : Channel := ⟨"desk", by decide⟩

def mobile : Channel := ⟨"mobile", by decide⟩

/-- A call of a sip user to an extension with two locations. -/
def twoPhones : Request where
  self := caller
  context := ⟨.User ⟨"u1", "t1", none, none⟩, "10.0.0.1", "200", none, none, none, none, none,
    none, none, none, none, none, false, none, none, none, none⟩
  extensions := [some [⟨desk, true⟩, ⟨mobile, true⟩]]
  ringtone := ""
  announcement := ""
  tenant_id := "t1"

def moves (pids : List Nat) : List (Action Choice Nat) :=
  pids.map (fun pid => .proc pid { bridge := { order := [mobile, desk] } })

/-- The next step does not look for a record that is missing. -/
def notMissing (world : World Session Step) : Action Choice Nat → Bool
  | .proc pid choice => choice.succeeds && choice.bridge.accepted &&
    match world.procs pid with
    | .answer _ (.exists _) => world.shared.bridge.present
    | _ => true
  | .outside _ => true

theorem not_missing_sound (world : World Session Step) (action : Action Choice Nat)
    (passed : notMissing world action = true) :
    CallsSucceed world action ∧ RecordFirst world action := by
  constructor
  · intro pid choice isProc
    subst isProc
    simp only [notMissing, Bool.and_eq_true] at passed
    exact passed.1
  · intro pid choice channel call isProc stands
    subst isProc
    simp only [notMissing, stands, Bool.and_eq_true] at passed
    exact passed.2

/-- The desk phone answers while the mobile is still being called, but bridge_extensions
    sets the inbound before Bridge::answer looks. -/
def setFirst : List (Action Choice Nat) :=
  moves ([0, 0, 1, 1, 1, 1] ++ [0, 0, 0, 0] ++ List.replicate 16 1 ++ List.replicate 4 0)

theorem answered_from_first_ring_set_first : ∃ last : World Session Step,
    runWhere (setup twoPhones) notMissing (start twoPhones desk) setFirst = some last ∧
    last.procs 0 = .bridged ∧ last.procs 1 = .connected desk ∧ Answerable twoPhones desk last := by
  have ran : ∃ last : World Session Step,
      runWhere (setup twoPhones) notMissing (start twoPhones desk) setFirst = some last ∧
      last.procs 0 = .bridged ∧ last.procs 1 = .connected desk := ⟨_, rfl, rfl, rfl⟩
  obtain ⟨last, ran, setUp, connected⟩ := ran
  exact ⟨last, ran, setUp, connected, answered_from_first_ring twoPhones desk rfl rfl last
    (run_of_runWhere not_missing_sound setFirst ran)⟩

/-- The desk phone answers at once, while the mobile is still being called. -/
def answeredAtOnce : List (Action Choice Nat) := moves [0, 0, 1, 1, 1, 1, 1]

/-- Every call succeeds, and the answer is refused as of a bridge that has hung up. -/
theorem first_ring_refused :
    ¬ ∀ (request : Request) (channel : Channel) (last : World Session Step),
      request.context.transfer = none → request.context.callback = none →
      Run (setup request) CallsSucceed (start request channel) last →
        Answerable request channel last := by
  intro always
  have ran : ∃ last : World Session Step,
      runWhere (setup twoPhones) (fun _ action => match action with
        | .proc _ choice => choice.succeeds && choice.bridge.accepted
        | .outside _ => true) (start twoPhones desk) answeredAtOnce = some last ∧
      last.procs 1 = .alreadyHungUp := ⟨_, rfl, rfl⟩
  obtain ⟨last, ran, refused⟩ := ran
  apply (always twoPhones desk last rfl rfl (run_of_runWhere _ answeredAtOnce ran)).accepted refused
  intro world action passed pid choice isProc
  subst isProc
  simpa using passed

end BridgeSetup
