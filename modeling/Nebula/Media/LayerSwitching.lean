import Nebula.Media.VideoReceiver

/- The layer that each destination of a video stream gets: requests name the layer to switch to,
   and packets of all layers come in between. -/
namespace LayerSwitching
open ByteStrings
open VideoReceiver (Rtp Readings Handled VideoStreamReceiver receiveRtpPacket)

inductive VideoSwitchState where
  | switched (rid : String)
  | switching (from_ to_ : String)
  deriving DecidableEq

namespace VideoSwitchState

/-- Whether a packet goes to the destination, and the state after it. -/
def forward (rid : String) (isKeyFrame : Bool) : VideoSwitchState → Bool × VideoSwitchState
  | .switched r => (decide (rid = r), .switched r)
  | .switching from_ to_ =>
    if rid = from_ then (true, .switching from_ to_)
    else if rid = to_ ∧ isKeyFrame then (true, .switched to_)
    else (false, .switching from_ to_)

def request (new : String) : VideoSwitchState → VideoSwitchState
  | .switched r => if r ≠ new then .switching r new else .switched r
  | .switching from_ to_ =>
    if from_ = new then .switched new
    else if to_ ≠ new then .switching from_ new
    else .switching from_ to_

/-- The layer that the destination has until a switch is done. -/
def current : VideoSwitchState → String
  | .switched rid => rid
  | .switching from_ _ => from_

def Proper : VideoSwitchState → Prop
  | .switched _ => True
  | .switching from_ to_ => from_ ≠ to_

theorem forward_current {rid : String} {isKeyFrame : Bool} (state : VideoSwitchState) :
    ((state.forward rid isKeyFrame).1 = true → (state.forward rid isKeyFrame).2.current = rid) ∧
      ((state.forward rid isKeyFrame).1 = false → (state.forward rid isKeyFrame).2 = state) := by
  cases state with
  | switched r =>
    exact ⟨fun goes => (of_decide_eq_true goes).symm, fun _ => rfl⟩
  | switching from_ to_ =>
    simp only [forward]
    split
    · rename_i same
      exact ⟨fun _ => same.symm, fun _ => rfl⟩
    · split
      · rename_i done
        exact ⟨fun _ => done.1.symm, fun no => by cases no⟩
      · exact ⟨fun no => (by cases no), fun _ => rfl⟩

/-- What goes is of the current layer, or a key frame of the one that is being switched to. -/
theorem forward_layer {rid : String} {isKeyFrame : Bool} {state : VideoSwitchState}
    (goes : (state.forward rid isKeyFrame).1 = true) :
    rid = state.current ∨ (isKeyFrame = true ∧ state = .switching state.current rid) := by
  cases state with
  | switched r => exact Or.inl (of_decide_eq_true goes)
  | switching from_ to_ =>
    simp only [forward] at goes
    split at goes
    · rename_i same
      exact Or.inl same
    · split at goes
      · rename_i done
        rw [done.1]
        exact Or.inr ⟨done.2, rfl⟩
      · cases goes

theorem forward_proper {rid : String} {isKeyFrame : Bool} {state : VideoSwitchState}
    (proper : state.Proper) : (state.forward rid isKeyFrame).2.Proper := by
  cases state with
  | switched r => trivial
  | switching from_ to_ =>
    simp only [forward]
    split
    · exact proper
    · split
      · trivial
      · exact proper

theorem request_current (new : String) (state : VideoSwitchState) :
    (state.request new).current = state.current := by
  cases state with
  | switched r =>
    simp only [request]
    split
    · rfl
    · rfl
  | switching from_ to_ =>
    simp only [request]
    split
    · rename_i same
      exact same.symm
    · split
      · rfl
      · rfl

theorem request_proper (new : String) {state : VideoSwitchState} (proper : state.Proper) :
    (state.request new).Proper := by
  cases state with
  | switched r =>
    simp only [request]
    split
    · rename_i differs
      exact differs
    · trivial
  | switching from_ to_ =>
    simp only [request]
    split
    · trivial
    · rename_i differs
      split
      · exact differs
      · exact proper

end VideoSwitchState

section Model
variable {Uuid : Type} [DecidableEq Uuid]

structure Sending (Uuid : Type) where
  receiver : VideoStreamReceiver
  destinationLayers : IndexMap Uuid VideoSwitchState

/-- A packet that went to a destination, and the state that the destination had before. -/
structure Forwarded (Uuid : Type) where
  destination : Uuid
  rid : String
  isKeyFrame : Bool
  packet : Bytes
  state : VideoSwitchState

inductive Output (Uuid : Type) where
  | forwarded (packet : Forwarded Uuid)
  | removed (destination : Uuid)
  | pli (mediaSsrc : UInt32)

/-- A request has the destination as it was parsed, where that succeeded. -/
inductive Event (Uuid : Type) where
  | packet (packet : Bytes) (readings : Readings)
  | mute (muted : Bool)
  | updateDestinationLayer (dst : Option Uuid) (rid : Option String)

/-- One turn of the loop over the destinations. -/
def sendTo (handled : Handled) (sending : Sending Uuid) (destination : Uuid) :
    Sending Uuid × List (Output Uuid) :=
  match sending.destinationLayers.entries.lookup destination with
  | none => (sending, [])
  | some state =>
    let forward := state.forward handled.rid handled.isKeyFrame
    ({ sending with destinationLayers := sending.destinationLayers.insert destination forward.2 },
      if forward.1 then
        [.forwarded ⟨destination, handled.rid, handled.isKeyFrame, handled.packet, state⟩]
      else [])

def sendToAll (handled : Handled) (sending : Sending Uuid) :
    List Uuid → Sending Uuid × List (Output Uuid)
  | [] => (sending, [])
  | destination :: rest =>
    let sent := sendTo handled sending destination
    let others := sendToAll handled sent.1 rest
    (others.1, sent.2 ++ others.2)

def updateDestinationLayer (sending : Sending Uuid) (dst : Option Uuid) (rid : Option String) :
    Sending Uuid × List (Output Uuid) :=
  match dst, rid with
  | none, _ => (sending, [])
  | some dst, none =>
    ({ sending with destinationLayers := sending.destinationLayers.erase dst }, [.removed dst])
  | some dst, some new =>
    let state := ((sending.destinationLayers.entries.lookup dst).map
      (VideoSwitchState.request new)).getD (.switched new)
    ({ sending with destinationLayers := sending.destinationLayers.insert dst state },
      ((sending.receiver.incomingLayers.entries.lookup new).map fun layer =>
        Output.pli layer.ssrc).toList)

variable (unmarshal : Bytes → Option Rtp) (quotient : Nat → Nat → Nat)

def step (sending : Sending Uuid) : Event Uuid → Outcome (Sending Uuid × List (Output Uuid))
  | .packet packet readings => do
    let received ← receiveRtpPacket unmarshal quotient sending.receiver packet readings
    let sending := { sending with receiver := received.1 }
    match received.2 with
    | none => pure (sending, [])
    | some handled =>
      pure (sendToAll handled sending (sending.destinationLayers.entries.map Prod.fst))
  | .mute muted => pure ({ sending with receiver := { sending.receiver with muted } }, [])
  | .updateDestinationLayer dst rid => pure (updateDestinationLayer sending dst rid)

/-- The state in the end and all that was put out; a panic ends the run. -/
def run (sending : Sending Uuid) : List (Event Uuid) → Sending Uuid × List (Output Uuid)
  | [] => (sending, [])
  | event :: rest =>
    match step unmarshal quotient sending event with
    | .error _ => (sending, [])
    | .ok (after, outputs) => ((run after rest).1, outputs ++ (run after rest).2)

def Sending.new (typeNumber : UInt8) (hasCodec : Bool) : Sending Uuid :=
  ⟨VideoStreamReceiver.new typeNumber hasCodec, IndexMap.empty⟩

end Model

section KeyFrames
variable {Uuid : Type} [DecidableEq Uuid]

/-- The RID that last went to each destination since it was registered. -/
def note (last : Uuid → Option String) : Output Uuid → Uuid → Option String
  | .forwarded packet => Function.update last packet.destination (some packet.rid)
  | .removed destination => Function.update last destination none
  | .pli _ => last

/-- A packet has the RID of the one before it, or it is a key frame of the layer that is being
    switched to. -/
def Follows (last : Uuid → Option String) : Output Uuid → Prop
  | .forwarded packet => ∀ rid, last packet.destination = some rid →
      packet.rid = rid ∨
        (packet.isKeyFrame = true ∧ ∃ from_, packet.state = .switching from_ packet.rid)
  | .removed _ => True
  | .pli _ => True

def KeyFrameSwitches (last : Uuid → Option String) : List (Output Uuid) → Prop
  | [] => True
  | output :: rest => Follows last output ∧ KeyFrameSwitches (note last output) rest

theorem keyFrameSwitches_append (last : Uuid → Option String) (front rest : List (Output Uuid)) :
    KeyFrameSwitches last (front ++ rest) ↔
      KeyFrameSwitches last front ∧ KeyFrameSwitches (front.foldl note last) rest := by
  induction front generalizing last with
  | nil => simp [KeyFrameSwitches]
  | cons output front ih => simp [KeyFrameSwitches, ih, and_assoc]

/-- The states agree with what was sent, and a switch is to another layer. -/
structure Agrees (last : Uuid → Option String) (sending : Sending Uuid) : Prop where
  layer : ∀ destination rid, last destination = some rid →
    ∃ state, sending.destinationLayers.entries.lookup destination = some state ∧
      state.current = rid
  proper : ∀ destination state,
    sending.destinationLayers.entries.lookup destination = some state → state.Proper

/-- What a step keeps: its outputs go on from what was sent, and so do the states. -/
structure GoesOn (last : Uuid → Option String) (after : Sending Uuid)
    (outputs : List (Output Uuid)) : Prop where
  follows : KeyFrameSwitches last outputs
  agrees : Agrees (outputs.foldl note last) after

theorem GoesOn.append {last : Uuid → Option String} {middle after : Sending Uuid}
    {front rest : List (Output Uuid)} (first : GoesOn last middle front)
    (second : Agrees (front.foldl note last) middle → GoesOn (front.foldl note last) after rest) :
    GoesOn last after (front ++ rest) := by
  have onward := second first.agrees
  refine ⟨(keyFrameSwitches_append last front rest).mpr ⟨first.follows, onward.follows⟩, ?_⟩
  rw [List.foldl_append]
  exact onward.agrees

/-- A state that is set to one with the layer that was last sent. -/
theorem Agrees.set {last next : Uuid → Option String} {sending : Sending Uuid}
    (agrees : Agrees last sending) {destination : Uuid} {state : VideoSwitchState}
    (proper : state.Proper)
    (own : ∀ rid, next destination = some rid → state.current = rid)
    (others : ∀ other, other ≠ destination → next other = last other) :
    Agrees next { sending with
      destinationLayers := sending.destinationLayers.insert destination state } where
  layer := by
    intro other rid noted
    rw [IndexMap.lookup_insert]
    by_cases same : other = destination
    · subst same
      exact ⟨state, if_pos rfl, own rid noted⟩
    · rw [if_neg same]
      rw [others other same] at noted
      exact agrees.layer other rid noted
  proper := by
    intro other kept found
    rw [IndexMap.lookup_insert] at found
    split at found
    · obtain rfl := Option.some.inj found
      exact proper
    · exact agrees.proper other kept found

theorem Agrees.current {last : Uuid → Option String} {sending : Sending Uuid}
    (agrees : Agrees last sending) {destination : Uuid} {state : VideoSwitchState}
    (found : sending.destinationLayers.entries.lookup destination = some state) {rid : String}
    (noted : last destination = some rid) : state.current = rid := by
  obtain ⟨held, same, layer⟩ := agrees.layer destination rid noted
  rw [found] at same
  obtain rfl := Option.some.inj same
  exact layer

theorem sendTo_goesOn {last : Uuid → Option String} {sending : Sending Uuid}
    (agrees : Agrees last sending) (handled : Handled) (destination : Uuid) :
    GoesOn last (sendTo handled sending destination).1 (sendTo handled sending destination).2 := by
  unfold sendTo
  cases found : sending.destinationLayers.entries.lookup destination with
  | none => exact ⟨trivial, agrees⟩
  | some state =>
    have after := @VideoSwitchState.forward_current handled.rid handled.isKeyFrame state
    have proper := @VideoSwitchState.forward_proper handled.rid handled.isKeyFrame state
      (agrees.proper destination state found)
    cases goes : (state.forward handled.rid handled.isKeyFrame).1 with
    | true =>
      simp only [goes, if_true]
      refine ⟨⟨?_, trivial⟩, agrees.set proper ?_ ?_⟩
      · intro rid noted
        rw [← agrees.current found noted]
        exact (VideoSwitchState.forward_layer goes).imp_right fun switch =>
          ⟨switch.1, state.current, switch.2⟩
      · intro rid noted
        have now : some handled.rid = some rid := by simpa [note] using noted
        rw [← Option.some.inj now]
        exact after.1 goes
      · intro other differs
        simp [note, differs]
    | false =>
      simp only [goes]
      refine ⟨trivial, agrees.set proper ?_ fun other differs => rfl⟩
      intro rid noted
      rw [after.2 goes]
      exact agrees.current found noted

theorem sendToAll_goesOn {last : Uuid → Option String} {sending : Sending Uuid}
    (agrees : Agrees last sending) (handled : Handled) (destinations : List Uuid) :
    GoesOn last (sendToAll handled sending destinations).1
      (sendToAll handled sending destinations).2 := by
  induction destinations generalizing last sending with
  | nil => exact ⟨trivial, agrees⟩
  | cons destination rest ih => exact (sendTo_goesOn agrees handled destination).append ih

theorem keyFrameSwitches_pli (last : Uuid → Option String) (pli : Option UInt32) :
    KeyFrameSwitches last ((pli.map Output.pli).toList : List (Output Uuid)) ∧
      ((pli.map Output.pli).toList : List (Output Uuid)).foldl note last = last := by
  cases pli with
  | none => exact ⟨trivial, rfl⟩
  | some ssrc => exact ⟨⟨trivial, trivial⟩, rfl⟩

theorem update_goesOn {last : Uuid → Option String} {sending : Sending Uuid}
    (agrees : Agrees last sending) (dst : Option Uuid) (rid : Option String) :
    GoesOn last (updateDestinationLayer sending dst rid).1
      (updateDestinationLayer sending dst rid).2 := by
  cases dst with
  | none => exact ⟨trivial, agrees⟩
  | some dst =>
    cases rid with
    | none =>
      refine ⟨⟨trivial, trivial⟩, ?_, ?_⟩
      · intro other rid noted
        change Function.update last dst none other = some rid at noted
        by_cases same : other = dst
        · subst same
          rw [Function.update_self] at noted
          cases noted
        · have kept : last other = some rid := by rwa [Function.update_of_ne same] at noted
          obtain ⟨state, found, layer⟩ := agrees.layer other rid kept
          exact ⟨state, by
            show (sending.destinationLayers.erase dst).entries.lookup other = some state
            rw [IndexMap.lookup_erase, if_neg same, found], layer⟩
      · intro other state found
        change (sending.destinationLayers.erase dst).entries.lookup other = some state at found
        rw [IndexMap.lookup_erase] at found
        split at found
        · cases found
        · exact agrees.proper other state found
    | some new =>
      obtain ⟨asks, same⟩ := keyFrameSwitches_pli last
        ((sending.receiver.incomingLayers.entries.lookup new).map fun layer => layer.ssrc)
      rw [Option.map_map] at asks same
      refine ⟨asks, ?_⟩
      show Agrees (List.foldl note last (Option.map (Output.pli ∘ _) _).toList) _
      rw [same]
      refine agrees.set ?_ ?_ fun _ _ => rfl
      · cases found : sending.destinationLayers.entries.lookup dst with
        | none => trivial
        | some state => exact VideoSwitchState.request_proper new (agrees.proper dst state found)
      · intro rid noted
        obtain ⟨state, found, layer⟩ := agrees.layer dst rid noted
        rw [found]
        exact (VideoSwitchState.request_current new state).trans layer

variable {unmarshal : Bytes → Option Rtp} {quotient : Nat → Nat → Nat}

theorem step_goesOn {last : Uuid → Option String} {sending after : Sending Uuid}
    (agrees : Agrees last sending) {event : Event Uuid} {outputs : List (Output Uuid)}
    (done : step unmarshal quotient sending event = .ok (after, outputs)) :
    GoesOn last after outputs := by
  cases event with
  | packet packet readings =>
    obtain ⟨received, _, done⟩ := bind_ok_inv done
    have kept : Agrees last { sending with receiver := received.1 } :=
      ⟨agrees.layer, agrees.proper⟩
    cases result : received.2 with
    | none =>
      rw [result] at done
      obtain ⟨rfl, rfl⟩ := Prod.mk.inj (Except.ok.inj done)
      exact ⟨trivial, kept⟩
    | some handled =>
      rw [result] at done
      have sent := Except.ok.inj done
      have onward := sendToAll_goesOn kept handled
        (sending.destinationLayers.entries.map Prod.fst)
      rw [sent] at onward
      exact onward
  | mute muted =>
    obtain ⟨rfl, rfl⟩ := Prod.mk.inj (Except.ok.inj done)
    exact ⟨trivial, agrees.layer, agrees.proper⟩
  | updateDestinationLayer dst rid =>
    have updated := Except.ok.inj done
    have onward := update_goesOn agrees dst rid
    rw [updated] at onward
    exact onward

theorem run_goesOn {last : Uuid → Option String} {sending : Sending Uuid}
    (agrees : Agrees last sending) (events : List (Event Uuid)) :
    GoesOn last (run unmarshal quotient sending events).1
      (run unmarshal quotient sending events).2 := by
  induction events generalizing last sending with
  | nil => exact ⟨trivial, agrees⟩
  | cons event rest ih =>
    unfold run
    cases done : step unmarshal quotient sending event with
    | error fault => exact ⟨trivial, agrees⟩
    | ok result => exact (step_goesOn agrees done).append ih

/-- In every run from a new receiver, what goes to a destination changes its layer only with a key
    frame of the layer that is being switched to, and no switch is from a layer to itself. -/
theorem run_keyFrameSwitches (typeNumber : UInt8) (hasCodec : Bool) (events : List (Event Uuid)) :
    KeyFrameSwitches (fun _ => none)
        (run unmarshal quotient (Sending.new typeNumber hasCodec) events).2 ∧
      ∀ destination from_ to_,
        (run unmarshal quotient (Sending.new typeNumber hasCodec)
          events).1.destinationLayers.entries.lookup destination =
            some (.switching from_ to_) → from_ ≠ to_ := by
  have fresh : Agrees (fun _ => none) (Sending.new typeNumber hasCodec : Sending Uuid) :=
    ⟨fun destination rid noted => (by cases noted), fun destination state found => (by cases found)⟩
  have whole := @run_goesOn _ _ unmarshal quotient _ _ fresh events
  exact ⟨whole.follows, fun destination from_ to_ found => whole.agrees.proper destination _ found⟩

end KeyFrames

end LayerSwitching
