import Mathlib.Tactic.Common
import Nebula.Lib.Interleaving

/- A bridge in Redis and the calls that work on it, cut into their Redis commands.
   Reads that decide nothing about the bridge, key lifetimes and what happens to
   the channels themselves are left out. -/
namespace Bridge
open Interleaving

/-- Channels are named by a generated id; a field that is not set reads as "". -/
structure Channel where
  id : String
  named : id ≠ ""
  deriving DecidableEq

inductive ChannelBridgeResult where
  | Ok
  | Cancelled
  | Noanswer
  | NoanswerWithCompletedElsewhere
  | Unavailable
  | Busy
  deriving DecidableEq, Repr

inductive ChannelEvent where
  | Hangup (channel : Channel)
  | BridgeAnswer (channel : Channel)
  | BridgeHangup (result : ChannelBridgeResult)
  deriving DecidableEq

/-- The calls that end the ringing of a bridge. -/
inductive Ender where
  | answer (channel : Channel)
  | hangup (result : ChannelBridgeResult)
  deriving DecidableEq

/-- The calls that take the mutex. -/
inductive Call where
  | ender (ender : Ender)
  | handleResponse (code : Int)
  deriving DecidableEq

/-- Who moves channels over to the hung up ones. -/
inductive Mover where
  | ender (ender : Ender)
  | outbound (channel : Channel)
  deriving DecidableEq

/-- The fields of the bridge that are set once it is decided. -/
inductive Mark where
  | answerChannel (channel : Channel)
  | hangup
  deriving DecidableEq

/- The keys of one bridge. marks and stream are kept whole, the newest first; the
   value of a field is its newest mark. unlocking are the unlocks on their way. -/
structure Shared where
  present : Bool
  inbound : Option Channel
  tenantId : String
  incoming : Bool
  marks : List Mark
  ringing : Int
  channels : List Channel
  hangupChannels : List Channel
  stream : List ChannelEvent
  lock : Option Nat
  unlocking : List Nat
  deriving DecidableEq

def latestAnswer : List Mark → String
  | [] => ""
  | .answerChannel channel :: _ => channel.id
  | .hangup :: older => latestAnswer older

def answerChannel (bridge : Shared) : String := latestAnswer bridge.marks

def answered (bridge : Shared) : Bool := answerChannel bridge != ""

def hungUp (bridge : Shared) : Bool := bridge.marks.contains .hangup

/-- Where a call stands: the next command it sends. -/
inductive Proc where
  | answer (channel : Channel)
  | channelHangup (channel : Channel)
  | handleTimeout (completedElsewhere : Bool)
  | lock (call : Call)
  | exists (call : Call)
  | isHangup (call : Call)
  | answered (call : Call)
  | tenantId (ender : Ender)
  | incoming (ender : Ender)
  | mark (ender : Ender)
  | members (ender : Ender)
  | srem (mover : Mover) (channel : Channel) (rest : List Channel)
  | sadd (mover : Mover) (channel : Channel) (rest : List Channel)
  | hangupEvent (mover : Mover) (channel : Channel) (rest : List Channel)
  | bridgeEvent (ender : Ender)
  | ringing (code : Int)
  | setRinging (code : Int)
  | inboundHangup
  | outboundAnswer (channel : Channel)
  | outboundMembers
  | returned
  deriving DecidableEq

/-- What a call meets that the bridge does not decide: whether the callee accepts,
    whether a deadline has passed, and in which order a set is listed. -/
structure Choice where
  accepted : Bool := true
  elapsed : Bool := false
  order : List Channel := []

def hangup (result : ChannelBridgeResult) : Proc := .lock (.ender (.hangup result))

def handleResponse (code : Int) : Proc := .lock (.handleResponse code)

def cancel : Proc := hangup .Cancelled

def afterLock : Call → Proc
  | .ender ender => .exists (.ender ender)
  | .handleResponse code => .answered (.handleResponse code)

def afterIsHangup : Call → Proc
  | .ender (.answer channel) => .answered (.ender (.answer channel))
  | .ender (.hangup result) => .tenantId (.hangup result)
  | .handleResponse code => if code = 180 ∨ code = 183 then .ringing code else .returned

def afterAnswered : Call → Proc
  | .ender (.answer channel) => .tenantId (.answer channel)
  | .ender (.hangup result) => .mark (.hangup result)
  | .handleResponse code => .exists (.handleResponse code)

def afterIncoming : Ender → Proc
  | .answer channel => .mark (.answer channel)
  | .hangup result =>
    if result ≠ .Ok then .answered (.ender (.hangup result)) else .mark (.hangup result)

def Ender.mark : Ender → Mark
  | .answer channel => .answerChannel channel
  | .hangup _ => .hangup

def Ender.event : Ender → ChannelEvent
  | .answer channel => .BridgeAnswer channel
  | .hangup result => .BridgeHangup result

/-- The channels an ender takes out of those it has listed. -/
def Ender.takes (ender : Ender) (listed : List Channel) : List Channel :=
  match ender with
  | .answer channel => listed.filter (· ≠ channel)
  | .hangup _ => listed

def Mover.goOn (mover : Mover) : List Channel → Proc
  | channel :: rest => .srem mover channel rest
  | [] =>
    match mover with
    | .ender who => .bridgeEvent who
    | .outbound channel => .outboundAnswer channel

def isBridgeEnd : ChannelEvent → Bool
  | .BridgeAnswer _ => true
  | .BridgeHangup _ => true
  | .Hangup _ => false

/- The mutex is a temporary of the statement that locks it, so its drop sends the
   unlock on its way as soon as lock returns. -/
def lock (pid : Nat) (elapsed : Bool) (call : Call) (bridge : Shared) : Shared × Proc :=
  match bridge.lock with
  | none =>
    ({ bridge with lock := some pid, unlocking := pid :: bridge.unlocking }, afterLock call)
  | some _ =>
    if elapsed then ({ bridge with unlocking := pid :: bridge.unlocking }, afterLock call)
    else (bridge, .lock call)

def step (pid : Nat) (choice : Choice) (bridge : Shared) : Proc → Option (Shared × Proc)
  | .answer channel =>
    some (bridge, if choice.accepted then .lock (.ender (.answer channel)) else .returned)
  | .channelHangup channel =>
    match bridge.inbound with
    | none => some (bridge, .returned)
    | some inbound =>
      some (bridge,
        if inbound = channel then .inboundHangup else .srem (.outbound channel) channel [])
  | .handleTimeout completedElsewhere =>
    if choice.elapsed then
      some (bridge,
        hangup (if completedElsewhere then .NoanswerWithCompletedElsewhere else .Noanswer))
    else some (bridge,
      if bridge.stream.any isBridgeEnd then .returned else .handleTimeout completedElsewhere)
  | .lock call => some (lock pid choice.elapsed call bridge)
  | .exists call => some (bridge, if bridge.present then .isHangup call else .returned)
  | .isHangup call => some (bridge, if hungUp bridge then .returned else afterIsHangup call)
  | .answered call => some (bridge, if answered bridge then .returned else afterAnswered call)
  | .tenantId ender =>
    some (bridge, if bridge.tenantId ≠ "" then .incoming ender else afterIncoming ender)
  | .incoming ender => some ({ bridge with incoming := false }, afterIncoming ender)
  | .mark ender =>
    some ({ bridge with present := true, marks := ender.mark :: bridge.marks }, .members ender)
  | .members ender =>
    if choice.order.Perm bridge.channels then
      some (bridge, (Mover.ender ender).goOn (ender.takes choice.order))
    else none
  | .srem mover channel rest =>
    some ({ bridge with channels := bridge.channels.filter (· ≠ channel) },
      .sadd mover channel rest)
  | .sadd mover channel rest =>
    some ({ bridge with hangupChannels := bridge.hangupChannels.insert channel },
      .hangupEvent mover channel rest)
  | .hangupEvent mover channel rest =>
    some ({ bridge with stream := .Hangup channel :: bridge.stream }, mover.goOn rest)
  | .bridgeEvent ender =>
    some ({ bridge with stream := ender.event :: bridge.stream }, .returned)
  | .ringing code => some (bridge, if code ≤ bridge.ringing then .returned else .setRinging code)
  | .setRinging code => some ({ bridge with present := true, ringing := code }, .returned)
  | .inboundHangup => some (bridge, hangup (if answered bridge then .Ok else .Noanswer))
  | .outboundAnswer channel =>
    some (bridge,
      if answerChannel bridge = channel.id then hangup .Ok else .outboundMembers)
  | .outboundMembers => some (bridge, if bridge.channels = [] then hangup .Busy else .returned)
  | .returned => none

/-- The unlock of a dropped mutex arrives: the key is deleted if it has its value. -/
def unlock (pid : Nat) (bridge : Shared) : Option Shared :=
  if pid ∈ bridge.unlocking then
    some { bridge with
      lock := if bridge.lock = some pid then none else bridge.lock
      unlocking := bridge.unlocking.erase pid }
  else none

def system : System Shared Proc Choice Nat where
  step := step
  outside := unlock

/-- Calls that have sent nothing yet. -/
def Proc.starting : Proc → Bool
  | .answer _ => true
  | .channelHangup _ => true
  | .handleTimeout _ => true
  | .lock _ => true
  | .returned => true
  | _ => false

/-- A bridge that is neither answered nor hung up, before any of the calls. -/
structure Fresh (world : World Shared Proc) : Prop where
  marks : world.shared.marks = []
  stream : ∀ event ∈ world.shared.stream, isBridgeEnd event = false
  procs : ∀ pid, (world.procs pid).starting = true

end Bridge
