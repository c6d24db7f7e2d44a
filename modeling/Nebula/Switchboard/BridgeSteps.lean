import Nebula.Switchboard.Bridge

/- What a single Redis command of a call can do, in the terms the invariants of
   a bridge are stated in. -/
namespace BridgeSteps
open Interleaving Bridge

/-- The call has seen that the bridge is not hung up and has not marked it yet. -/
@[simp] def deciding : Proc → Bool
  | .answered (.ender _) => true
  | .tenantId _ => true
  | .incoming _ => true
  | .mark _ => true
  | _ => false

/-- The call has also seen that the bridge is not answered. -/
@[simp] def sawUnanswered : Proc → Bool
  | .tenantId (.answer _) => true
  | .incoming (.answer _) => true
  | .mark (.answer _) => true
  | .mark (.hangup result) => result != .Ok
  | _ => false

/-- The call has marked the bridge and has yet to report it on the stream. -/
@[simp] def finishing : Proc → Option Ender
  | .members ender => some ender
  | .srem (.ender ender) _ _ => some ender
  | .sadd (.ender ender) _ _ => some ender
  | .hangupEvent (.ender ender) _ _ => some ender
  | .bridgeEvent ender => some ender
  | _ => none

/-- The call is going to move the channel over. -/
@[simp] def carries : Proc → Channel → Prop
  | .members (.answer own), channel => channel ≠ own
  | .members (.hangup _), _ => True
  | .srem _ first rest, channel => channel = first ∨ channel ∈ rest
  | .sadd _ first rest, channel => channel = first ∨ channel ∈ rest
  | .hangupEvent _ _ rest, channel => channel ∈ rest
  | _, _ => False

/-- The call has taken the channel out of one set and not put it into the other. -/
@[simp] def midway : Proc → Channel → Prop
  | .sadd _ first _, channel => channel = first
  | _, _ => False

/-- What is on the stream about the bridge itself. -/
def ends (bridge : Shared) : List ChannelEvent := bridge.stream.filter isBridgeEnd

/- A command that changes nothing the calls decide by, and what the call may have
   learned from it. -/
structure Looks (bridge after : Shared) (proc arrived : Proc) : Prop where
  marks : after.marks = bridge.marks
  ends : ends after = ends bridge
  channels : after.channels = bridge.channels
  hangupChannels : after.hangupChannels = bridge.hangupChannels
  idle : ∀ channel, ¬ carries proc channel
  starts : finishing arrived = none ∧ ∀ channel, ¬ midway arrived channel
  decides : deciding arrived = true →
    deciding proc = true ∨ (∃ ender, proc = .isHangup (.ender ender)) ∧ hungUp bridge = false
  saw : sawUnanswered arrived = true → sawUnanswered proc = true ∨ answered bridge = false

/-- All a command can do. -/
inductive Effect (bridge : Shared) : Shared → Proc → Proc → Prop where
  | looks {after : Shared} {proc arrived : Proc} :
    Looks bridge after proc arrived → Effect bridge after proc arrived
  | mark (ender : Ender) :
    Effect bridge { bridge with present := true, marks := ender.mark :: bridge.marks }
      (.mark ender) (.members ender)
  | members (ender : Ender) (order : List Channel) : order.Perm bridge.channels →
    Effect bridge bridge (.members ender) ((Mover.ender ender).goOn (ender.takes order))
  | srem (mover : Mover) (first : Channel) (rest : List Channel) :
    Effect bridge { bridge with channels := bridge.channels.filter (· ≠ first) }
      (.srem mover first rest) (.sadd mover first rest)
  | sadd (mover : Mover) (first : Channel) (rest : List Channel) :
    Effect bridge { bridge with hangupChannels := bridge.hangupChannels.insert first }
      (.sadd mover first rest) (.hangupEvent mover first rest)
  | hangupEvent (mover : Mover) (first : Channel) (rest : List Channel) :
    Effect bridge { bridge with stream := .Hangup first :: bridge.stream }
      (.hangupEvent mover first rest) (mover.goOn rest)
  | bridgeEvent (ender : Ender) :
    Effect bridge { bridge with stream := ender.event :: bridge.stream }
      (.bridgeEvent ender) .returned

/-- A call that only reads and goes somewhere it knows nothing new. -/
theorem looks_plain {bridge : Shared} {proc arrived : Proc}
    (idle : ∀ channel, ¬ carries proc channel) (finishing : finishing arrived = none)
    (midway : ∀ channel, ¬ midway arrived channel) (decides : deciding arrived = false)
    (saw : sawUnanswered arrived = false) : Looks bridge bridge proc arrived where
  marks := rfl
  ends := rfl
  channels := rfl
  hangupChannels := rfl
  idle := idle
  starts := ⟨finishing, midway⟩
  decides := fun decided => by rw [decides] at decided; cases decided
  saw := fun seen => by rw [saw] at seen; cases seen

theorem looks_lock {bridge : Shared} {proc : Proc} (idle : ∀ channel, ¬ carries proc channel)
    (call : Call) : Looks bridge bridge proc (.lock call) :=
  looks_plain idle rfl (by simp) rfl rfl

theorem looks_returned {bridge : Shared} {proc : Proc}
    (idle : ∀ channel, ¬ carries proc channel) : Looks bridge bridge proc .returned :=
  looks_plain idle rfl (by simp) rfl rfl

/-- Neither the mutex nor the lists that no call decides by matter to what it saw. -/
theorem looks_besides {bridge after : Shared} {proc arrived : Proc}
    (looks : Looks bridge bridge proc arrived)
    (same : after.marks = bridge.marks ∧ after.stream = bridge.stream ∧
      after.channels = bridge.channels ∧ after.hangupChannels = bridge.hangupChannels) :
    Looks bridge after proc arrived where
  marks := same.1
  ends := by simp [ends, same.2.1]
  channels := same.2.2.1
  hangupChannels := same.2.2.2
  idle := looks.idle
  starts := looks.starts
  decides := looks.decides
  saw := looks.saw

theorem looks_afterLock (bridge : Shared) (call : Call) :
    Looks bridge bridge (.lock call) (afterLock call) := by
  cases call with
  | ender ender => exact looks_plain (by simp) rfl (by simp [afterLock]) rfl rfl
  | handleResponse code => exact looks_plain (by simp) rfl (by simp [afterLock]) rfl rfl

theorem looks_afterIsHangup {bridge : Shared} (stillOpen : hungUp bridge = false) (call : Call) :
    Looks bridge bridge (.isHangup call) (afterIsHangup call) := by
  cases call with
  | ender ender =>
    have decides : (∃ other, Proc.isHangup (.ender ender) = .isHangup (.ender other)) ∧
        hungUp bridge = false := ⟨⟨ender, rfl⟩, stillOpen⟩
    cases ender with
    | answer channel =>
      exact ⟨rfl, rfl, rfl, rfl, by simp, by simp [afterIsHangup], fun _ => Or.inr decides,
        by simp [afterIsHangup]⟩
    | hangup result =>
      exact ⟨rfl, rfl, rfl, rfl, by simp, by simp [afterIsHangup], fun _ => Or.inr decides,
        by simp [afterIsHangup]⟩
  | handleResponse code =>
    simp only [afterIsHangup]
    split
    · exact looks_plain (by simp) rfl (by simp) rfl rfl
    · exact looks_returned (by simp)

theorem looks_afterAnswered {bridge : Shared} (unanswered : answered bridge = false)
    (call : Call) : Looks bridge bridge (.answered call) (afterAnswered call) := by
  cases call with
  | ender ender =>
    cases ender with
    | answer channel =>
      exact ⟨rfl, rfl, rfl, rfl, by simp, by simp [afterAnswered], by simp,
        fun _ => Or.inr unanswered⟩
    | hangup result =>
      exact ⟨rfl, rfl, rfl, rfl, by simp, by simp [afterAnswered], by simp,
        fun _ => Or.inr unanswered⟩
  | handleResponse code => exact looks_plain (by simp) rfl (by simp [afterAnswered]) rfl rfl

/-- Behind the removal from the incoming list a call knows what it knew before it. -/
theorem looks_afterIncoming {bridge : Shared} {proc : Proc} {ender : Ender}
    (known : proc = .tenantId ender ∨ proc = .incoming ender) :
    Looks bridge bridge proc (afterIncoming ender) := by
  have decides : deciding proc = true := by
    rcases known with rfl | rfl <;> rfl
  have idle : ∀ channel, ¬ carries proc channel := by
    rcases known with rfl | rfl <;> simp
  cases ender with
  | answer channel =>
    have saw : sawUnanswered proc = true := by
      rcases known with rfl | rfl <;> rfl
    exact ⟨rfl, rfl, rfl, rfl, idle, by simp [afterIncoming], fun _ => Or.inl decides,
      fun _ => Or.inl saw⟩
  | hangup result =>
    unfold afterIncoming
    by_cases fine : result = .Ok
    · subst fine
      exact ⟨rfl, rfl, rfl, rfl, idle, by simp, fun _ => Or.inl decides, by simp⟩
    · simp only [fine, ne_eq, not_false_iff, if_true]
      exact ⟨rfl, rfl, rfl, rfl, idle, by simp, fun _ => Or.inl decides, by simp⟩

theorem step_effect {pid : Nat} {choice : Choice} {bridge after : Shared} {proc arrived : Proc}
    (stepped : step pid choice bridge proc = some (after, arrived)) :
    Effect bridge after proc arrived := by
  cases proc with
  | returned => cases stepped
  | mark ender => cases stepped; exact Effect.mark ender
  | srem mover first rest => cases stepped; exact Effect.srem mover first rest
  | sadd mover first rest => cases stepped; exact Effect.sadd mover first rest
  | hangupEvent mover first rest => cases stepped; exact Effect.hangupEvent mover first rest
  | bridgeEvent ender => cases stepped; exact Effect.bridgeEvent ender
  | members ender =>
    simp only [step] at stepped
    split at stepped
    · rename_i listed
      cases stepped
      exact Effect.members ender choice.order listed
    · cases stepped
  | lock call =>
    apply Effect.looks
    simp only [step, Bridge.lock] at stepped
    split at stepped
    · cases stepped
      exact looks_besides (looks_afterLock bridge call) ⟨rfl, rfl, rfl, rfl⟩
    · split at stepped
      · cases stepped
        exact looks_besides (looks_afterLock bridge call) ⟨rfl, rfl, rfl, rfl⟩
      · cases stepped
        exact looks_lock (by simp) call
  | answer channel =>
    apply Effect.looks
    cases stepped
    split
    · exact looks_lock (by simp) _
    · exact looks_returned (by simp)
  | channelHangup channel =>
    apply Effect.looks
    simp only [step] at stepped
    split at stepped
    · cases stepped
      exact looks_returned (by simp)
    · cases stepped
      split
      · exact looks_plain (by simp) rfl (by simp) rfl rfl
      · exact looks_plain (by simp) rfl (by simp) rfl rfl
  | handleTimeout completedElsewhere =>
    apply Effect.looks
    simp only [step] at stepped
    split at stepped
    · cases stepped
      exact looks_lock (by simp) _
    · cases stepped
      split
      · exact looks_returned (by simp)
      · exact looks_plain (by simp) rfl (by simp) rfl rfl
  | «exists» call =>
    apply Effect.looks
    cases stepped
    split
    · exact looks_plain (by simp) rfl (by simp) rfl rfl
    · exact looks_returned (by simp)
  | isHangup call =>
    apply Effect.looks
    cases stepped
    split
    · exact looks_returned (by simp)
    · rename_i stillOpen
      exact looks_afterIsHangup (by simpa using stillOpen) call
  | answered call =>
    apply Effect.looks
    cases stepped
    split
    · exact looks_returned (by simp)
    · rename_i unanswered
      exact looks_afterAnswered (by simpa using unanswered) call
  | tenantId ender =>
    apply Effect.looks
    cases stepped
    split
    · cases ender with
      | answer channel => exact ⟨rfl, rfl, rfl, rfl, by simp, by simp, by simp, by simp⟩
      | hangup result => exact ⟨rfl, rfl, rfl, rfl, by simp, by simp, by simp, by simp⟩
    · exact looks_afterIncoming (Or.inl rfl)
  | incoming ender =>
    apply Effect.looks
    cases stepped
    exact looks_besides (looks_afterIncoming (Or.inr rfl)) ⟨rfl, rfl, rfl, rfl⟩
  | ringing code =>
    apply Effect.looks
    cases stepped
    split
    · exact looks_returned (by simp)
    · exact looks_plain (by simp) rfl (by simp) rfl rfl
  | setRinging code =>
    apply Effect.looks
    cases stepped
    exact looks_besides (looks_returned (by simp)) ⟨rfl, rfl, rfl, rfl⟩
  | inboundHangup =>
    apply Effect.looks
    cases stepped
    exact looks_lock (by simp) _
  | outboundAnswer channel =>
    apply Effect.looks
    cases stepped
    split
    · exact looks_lock (by simp) _
    · exact looks_plain (by simp) rfl (by simp) rfl rfl
  | outboundMembers =>
    apply Effect.looks
    cases stepped
    split
    · exact looks_lock (by simp) _
    · exact looks_returned (by simp)

theorem unlock_same {pid : Nat} {bridge after : Shared} (unlocked : unlock pid bridge = some after) :
    ∃ lock unlocking, after = { bridge with lock := lock, unlocking := unlocking } := by
  unfold unlock at unlocked
  split at unlocked
  · cases unlocked
    exact ⟨_, _, rfl⟩
  · cases unlocked

end BridgeSteps
