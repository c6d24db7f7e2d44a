import Nebula.Lib.Interleaving
import Nebula.Switchboard.CallContexts

/- Parking slots. park takes the key of a slot and then writes its name into the
   call's context; retrieve reads the key and deletes it; the hangup of a channel
   deletes the key that its context names. Each step is one command or one call. -/
namespace Parking
open Interleaving CallContexts

/-- What a slot's key holds is the channel; the number is that of the park that set it. -/
structure Parked where
  id : Nat
  channel : String
  deriving DecidableEq

inductive Cause where
  | retrieve (parked : Parked)
  | hangup (channel : String)
  deriving DecidableEq

structure Freed where
  slot : String
  parked : Parked
  cause : Cause
  deriving DecidableEq

/- The keys of the slots and of their details (by the uuid in them), the contexts and
   the channels that are hung up. taken, handed and freed are the books: who took a slot,
   who was read from one by a retrieve, and what each deletion of a key removed. -/
structure Shared where
  slots : String → Option Parked
  details : String → Option String
  contexts : String → Option CallContext
  hungUp : List String
  taken : List (String × Parked)
  handed : List Parked
  freed : List Freed

inductive Proc where
  | park (channel slot : String)
  | parkPeer (channel slot peer : String)
  | setnx (channel slot : String)
  | parkContext (channel slot : String)
  | hmset (channel slot : String)
  | hold (channel slot : String)
  | setMediaMode (channel slot : String)
  | parkAgain (channel slot : String)
  | toChannel (channel slot : String) (context : CallContext) (to_channel : String)
  | leaveTransfer (channel slot : String) (context : CallContext) (to_channel : String)
    (to_channel_context : CallContext)
  | setRefer (channel slot : String) (context : CallContext)
  | proxyHangup (channel slot : String)
  | deleteChannelUser (channel slot : String)
  | parked (channel slot : String)
  | refused (channel slot : String)
  | parkFailed (channel slot : String)
  | retrieve (self slot new_channel : String)
  | notFound (self slot : String)
  | parkUuid (self slot new_channel : String) (parked : Parked)
  | del (self slot new_channel : String) (parked : Parked)
  | delDetails (self slot new_channel : String) (parked : Parked)
  | parkedContext (self slot new_channel : String) (parked : Parked)
  | unhold (self slot new_channel : String) (parked : Parked) (context : CallContext)
  | peerContext (self slot new_channel : String) (parked : Parked) (context : CallContext)
  | selfContext (self slot new_channel : String) (parked : Parked) (context : CallContext)
  | answerCallerId (self slot new_channel : String) (parked : Parked)
    (context self_context : CallContext)
  | newContext (self slot new_channel : String) (parked : Parked) (context : CallContext)
  | setParked (self slot new_channel : String) (parked : Parked) (context : CallContext)
  | retrieved (self slot : String)
  | retrieveFailed (self slot : String)
  | hangup (channel : String)
  | setHangup (channel : String)
  | hangupEndpoint (channel : String)
  | hangupUuid (channel slot : String)
  | hangupDel (channel slot : String)
  | hangupDelDetails (channel slot : String)
  | ended (channel : String)
  | idle
  deriving DecidableEq

/-- Whether an awaited call succeeds, the peer of a channel, the new uuid of a park and
    the caller id that is shown. -/
structure Choice where
  succeeds : Bool := true
  peer : Option String := none
  park_uuid : String := ""
  caller_id : String := ""

/-- `?` on an awaited call. -/
def attempt (choice : Choice) (next failed : Proc) : Proc := if choice.succeeds then next else failed

/-- `?` on get_call_context. -/
def found (context : Option CallContext) (next : CallContext → Proc) (failed : Proc) : Proc :=
  match context with
  | some context => next context
  | none => failed

def Shared.setSlot (shared : Shared) (slot : String) (value : Option Parked) : Shared :=
  { shared with slots := Function.update shared.slots slot value }

def Shared.setDetails (shared : Shared) (slot : String) (value : Option String) : Shared :=
  { shared with details := Function.update shared.details slot value }

def Shared.setContext (shared : Shared) (channel : String) (context : CallContext) : Shared :=
  { shared with contexts := Function.update shared.contexts channel (some context) }

/-- SETNX of a slot's key that was not there. -/
def Shared.take (shared : Shared) (slot : String) (parked : Parked) : Shared :=
  { shared.setSlot slot (some parked) with taken := (slot, parked) :: shared.taken }

/-- DEL of a slot's key, which is noted if the key was there. -/
def Shared.delSlot (shared : Shared) (slot : String) (cause : Cause) : Shared :=
  match shared.slots slot with
  | some parked =>
    { shared.setSlot slot none with freed := ⟨slot, parked, cause⟩ :: shared.freed }
  | none => shared

/-- The peer's transfer decides on whose channel the call is parked. -/
def parkOn (channel slot : String) (peer_context : Option CallContext) : Proc :=
  match peer_context.bind CallContext.transfer with
  | some ⟨.Recipient from_channel _ _ _⟩ => .park from_channel slot
  | _ => .setnx channel slot

def afterParkAgain (channel slot : String) (context : CallContext) : Proc :=
  match context.transfer with
  | some ⟨.Initiator to_channel _⟩ => .toChannel channel slot context to_channel
  | _ => .setRefer channel slot context

def referSlot (context : CallContext) (direction : CallDirection) (peer slot : String) :
    CallContext :=
  { context with refer := some ⟨direction, peer, some slot, false⟩ }

/-- The context of the new channel that retrieve links to the parked one. -/
def newChannelContext (context : CallContext) (park_channel slot : String) : CallContext where
  endpoint := context.endpoint
  proxy_host := ""
  «to» := ""
  answer_caller_id := none
  call_queue_id := none
  call_queue_name := none
  call_flow_moh := none
  intra_peer := none
  redirect_peer := none
  refer := some ⟨.Recipient, park_channel, some slot, false⟩
  transfer := none
  cdr := none
  answred_at := none
  forward := false
  backup := none
  recording := none
  callback := none
  callback_peer := none

/-- The slot that hangup_endpoint frees: the branches before that of refer come first. -/
def slotToFree (context : CallContext) : Option String :=
  match context.intra_peer, context.redirect_peer, context.refer with
  | none, none, some refer => refer.slot
  | _, _, _ => none

def step (pid : Nat) (choice : Choice) (shared : Shared) : Proc → Option (Shared × Proc)
  | .park channel slot =>
    some (shared, match choice.peer with
      | some peer => .parkPeer channel slot peer
      | none => .setnx channel slot)
  | .parkPeer channel slot peer => some (shared, parkOn channel slot (shared.contexts peer))
  | .setnx channel slot =>
    match shared.slots slot with
    | some _ => some (shared, .refused channel slot)
    | none =>
      some (shared.take slot ⟨pid, channel⟩, .parkContext channel slot)
  | .parkContext channel slot =>
    some (shared, found (shared.contexts channel) (fun _ => .hmset channel slot)
      (.parkFailed channel slot))
  | .hmset channel slot =>
    some (shared.setDetails slot (some choice.park_uuid),
      attempt choice (.hold channel slot) (.parkFailed channel slot))
  | .hold channel slot =>
    some (shared, attempt choice (.setMediaMode channel slot) (.parkFailed channel slot))
  | .setMediaMode channel slot =>
    some (shared, attempt choice (.parkAgain channel slot) (.parkFailed channel slot))
  | .parkAgain channel slot =>
    some (shared, found (shared.contexts channel) (afterParkAgain channel slot)
      (.parkFailed channel slot))
  | .toChannel channel slot context to_channel =>
    some (shared, found (shared.contexts to_channel)
      (.leaveTransfer channel slot context to_channel) (.parkFailed channel slot))
  | .leaveTransfer channel slot context to_channel to_channel_context =>
    some (shared.setContext to_channel { to_channel_context with transfer := none },
      .setRefer channel slot context)
  | .setRefer channel slot context =>
    some (shared.setContext channel
      { referSlot context .Initiator "" slot with transfer := none }, .proxyHangup channel slot)
  | .proxyHangup channel slot =>
    some (shared, attempt choice (.deleteChannelUser channel slot) (.parkFailed channel slot))
  | .deleteChannelUser channel slot =>
    some (shared, attempt choice (.parked channel slot) (.parkFailed channel slot))
  | .retrieve self slot new_channel =>
    match shared.slots slot with
    | none => some (shared, .notFound self slot)
    | some parked =>
      some ({ shared with handed := parked :: shared.handed },
        .parkUuid self slot new_channel parked)
  | .parkUuid self slot new_channel parked => some (shared, .del self slot new_channel parked)
  | .del self slot new_channel parked =>
    some (shared.delSlot slot (.retrieve parked), .delDetails self slot new_channel parked)
  | .delDetails self slot new_channel parked =>
    some (shared.setDetails slot none, .parkedContext self slot new_channel parked)
  | .parkedContext self slot new_channel parked =>
    some (shared, found (shared.contexts parked.channel) (.unhold self slot new_channel parked)
      (.retrieveFailed self slot))
  | .unhold self slot new_channel parked context =>
    some (shared, attempt choice (.peerContext self slot new_channel parked context)
      (.retrieveFailed self slot))
  | .peerContext self slot new_channel parked context =>
    some (shared, match choice.peer.bind shared.contexts with
      | some _ => .selfContext self slot new_channel parked context
      | none => .newContext self slot new_channel parked context)
  | .selfContext self slot new_channel parked context =>
    some (shared, found (shared.contexts self) (.answerCallerId self slot new_channel parked context)
      (.retrieveFailed self slot))
  | .answerCallerId self slot new_channel parked context self_context =>
    some (shared.setContext self { self_context with answer_caller_id := some choice.caller_id },
      .newContext self slot new_channel parked context)
  | .newContext self slot new_channel parked context =>
    some (shared.setContext new_channel (newChannelContext context parked.channel slot),
      .setParked self slot new_channel parked context)
  | .setParked self slot new_channel parked context =>
    some (shared.setContext parked.channel (referSlot context .Initiator new_channel slot),
      attempt choice (.retrieved self slot) (.retrieveFailed self slot))
  | .hangup channel =>
    some (shared, if channel ∈ shared.hungUp then .ended channel else .setHangup channel)
  | .setHangup channel =>
    some ({ shared with hungUp := channel :: shared.hungUp }, .hangupEndpoint channel)
  | .hangupEndpoint channel =>
    some (shared, match (shared.contexts channel).bind slotToFree with
      | some slot => .hangupUuid channel slot
      | none => .ended channel)
  | .hangupUuid channel slot => some (shared, .hangupDel channel slot)
  | .hangupDel channel slot =>
    some (shared.delSlot slot (.hangup channel), .hangupDelDetails channel slot)
  | .hangupDelDetails channel slot => some (shared.setDetails slot none, .ended channel)
  | .parked _ _ => none
  | .refused _ _ => none
  | .parkFailed _ _ => none
  | .notFound _ _ => none
  | .retrieved _ _ => none
  | .retrieveFailed _ _ => none
  | .ended _ => none
  | .idle => none

theorem take_slots (shared : Shared) (slot : String) (parked : Parked) (other : String) :
    (shared.take slot parked).slots other = if other = slot then some parked else shared.slots other := by
  by_cases same : other = slot
  · subst same
    simp [Shared.take, Shared.setSlot]
  · simp [Shared.take, Shared.setSlot, same]

theorem del_slots (shared : Shared) (slot : String) (cause : Cause) (other : String) :
    (shared.delSlot slot cause).slots other = if other = slot then none else shared.slots other := by
  unfold Shared.delSlot
  by_cases same : other = slot
  · subst same
    split
    · simp [Shared.setSlot]
    · rename_i empty
      simp [empty]
  · split
    · simp [Shared.setSlot, same]
    · simp [same]

theorem del_taken (shared : Shared) (slot : String) (cause : Cause) :
    (shared.delSlot slot cause).taken = shared.taken := by
  unfold Shared.delSlot
  split <;> rfl

theorem del_handed (shared : Shared) (slot : String) (cause : Cause) :
    (shared.delSlot slot cause).handed = shared.handed := by
  unfold Shared.delSlot
  split <;> rfl

/-- The deletion of a key notes what the key held, and nothing else. -/
theorem mem_del_freed {shared : Shared} {slot : String} {cause : Cause} {freed : Freed} :
    freed ∈ (shared.delSlot slot cause).freed ↔
      freed ∈ shared.freed ∨ ∃ parked, shared.slots slot = some parked ∧ freed = ⟨slot, parked, cause⟩ := by
  unfold Shared.delSlot
  cases there : shared.slots slot with
  | none => simp
  | some parked => simp [or_comm]

def parking : System Shared Proc Choice Empty where
  step := step
  outside := fun event _ => nomatch event

/-- The calls of a run before they have sent anything. -/
def begins : Proc → Bool
  | .park _ _ => true
  | .retrieve _ _ _ => true
  | .hangup _ => true
  | .idle => true
  | _ => false

/-- All slots are free, and all calls are still to come. -/
structure Fresh (world : World Shared Proc) : Prop where
  slots : ∀ slot, world.shared.slots slot = none
  books : world.shared.taken = [] ∧ world.shared.handed = [] ∧ world.shared.freed = []
  procs : ∀ pid, begins (world.procs pid) = true

end Parking
