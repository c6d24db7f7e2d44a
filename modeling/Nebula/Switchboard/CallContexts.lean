import Nebula.Lib.StoredRecords

/- The call context of a channel: one JSON value in the channel's hash. Every
   operation reads the whole of it with get_call_context and writes the whole of it
   back with set_call_context, and waits for Redis, the database or another service
   in between. -/
namespace CallContexts
open StoredRecords

inductive CallDirection where
  | Initiator
  | Recipient
  deriving DecidableEq

structure User where
  uuid : String
  tenant_id : String
  disable_external_transfer_recording : Option Bool
  unlimited_recording : Option Bool
  deriving DecidableEq

inductive Endpoint where
  | User (user : User)
  | Trunk (uuid : String)
  | Provider (number : String)
  deriving DecidableEq

def Endpoint.user : Endpoint → Option CallContexts.User
  | .User user => some user
  | _ => none

def Endpoint.isProvider : Endpoint → Bool
  | .Provider _ => true
  | _ => false

structure ReferContext where
  direction : CallDirection
  peer : String
  slot : Option String
  no_recording : Bool
  deriving DecidableEq

inductive TransferTarget where
  | Location (location endpoint : String)
  | Number (number : String)
  deriving DecidableEq

inductive TransferPeer where
  | Initiator (to_channel : String) (empty_sdp : Bool)
  | Recipient (from_channel : String) (target : TransferTarget) (auto_answer : Bool)
    (destination : String)
  deriving DecidableEq

structure TransferContext where
  peer : TransferPeer
  deriving DecidableEq

structure RecordingContext where
  started : Bool
  expires : Nat
  paused : Bool
  deriving DecidableEq

/-- The fields that the operations below read or change. -/
structure CallContext where
  endpoint : Endpoint
  proxy_host : String
  «to» : String
  answer_caller_id : Option String
  call_queue_id : Option String
  call_queue_name : Option String
  call_flow_moh : Option String
  intra_peer : Option String
  redirect_peer : Option String
  refer : Option ReferContext
  transfer : Option TransferContext
  cdr : Option String
  answred_at : Option Nat
  forward : Bool
  backup : Option User
  recording : Option RecordingContext
  callback : Option String
  callback_peer : Option String
  deriving DecidableEq

inductive Field where
  | endpoint
  | proxy_host
  | «to»
  | answer_caller_id
  | call_queue_id
  | call_queue_name
  | call_flow_moh
  | intra_peer
  | redirect_peer
  | refer
  | transfer
  | cdr
  | answred_at
  | forward
  | backup
  | recording
  | callback
  | callback_peer
  deriving DecidableEq

def Field.Value : Field → Type
  | .endpoint => Endpoint
  | .proxy_host => String
  | .«to» => String
  | .refer => Option ReferContext
  | .transfer => Option TransferContext
  | .answred_at => Option Nat
  | .forward => Bool
  | .backup => Option User
  | .recording => Option RecordingContext
  | _ => Option String

instance : (field : Field) → DecidableEq field.Value
  | .endpoint => inferInstanceAs (DecidableEq Endpoint)
  | .proxy_host => inferInstanceAs (DecidableEq String)
  | .«to» => inferInstanceAs (DecidableEq String)
  | .answer_caller_id => inferInstanceAs (DecidableEq (Option String))
  | .call_queue_id => inferInstanceAs (DecidableEq (Option String))
  | .call_queue_name => inferInstanceAs (DecidableEq (Option String))
  | .call_flow_moh => inferInstanceAs (DecidableEq (Option String))
  | .intra_peer => inferInstanceAs (DecidableEq (Option String))
  | .redirect_peer => inferInstanceAs (DecidableEq (Option String))
  | .refer => inferInstanceAs (DecidableEq (Option ReferContext))
  | .transfer => inferInstanceAs (DecidableEq (Option TransferContext))
  | .cdr => inferInstanceAs (DecidableEq (Option String))
  | .answred_at => inferInstanceAs (DecidableEq (Option Nat))
  | .forward => inferInstanceAs (DecidableEq Bool)
  | .backup => inferInstanceAs (DecidableEq (Option User))
  | .recording => inferInstanceAs (DecidableEq (Option RecordingContext))
  | .callback => inferInstanceAs (DecidableEq (Option String))
  | .callback_peer => inferInstanceAs (DecidableEq (Option String))

def view : (field : Field) → CallContext → field.Value
  | .endpoint, context => context.endpoint
  | .proxy_host, context => context.proxy_host
  | .«to», context => context.«to»
  | .answer_caller_id, context => context.answer_caller_id
  | .call_queue_id, context => context.call_queue_id
  | .call_queue_name, context => context.call_queue_name
  | .call_flow_moh, context => context.call_flow_moh
  | .intra_peer, context => context.intra_peer
  | .redirect_peer, context => context.redirect_peer
  | .refer, context => context.refer
  | .transfer, context => context.transfer
  | .cdr, context => context.cdr
  | .answred_at, context => context.answred_at
  | .forward, context => context.forward
  | .backup, context => context.backup
  | .recording, context => context.recording
  | .callback, context => context.callback
  | .callback_peer, context => context.callback_peer

/-- What an operation waits for besides call contexts. -/
inductive Question where
  | call (name : String)
  | is_answered (channel : String)
  | get_peer (channel : String)
  | get_extension (tenant_id exten : String)
  | get_transfer_target (target : String)
  | get_recording (tenant_id : String)
  | internal_caller_id (inbound : String)

/-- The settings of a tenant in the table of recordings. -/
structure Recording where
  global_enabled : Option Bool
  expires_in : Nat

/-- A call tells whether it succeeded, and a search what it found. -/
def Answer : Question → Type
  | .call _ => Bool
  | .is_answered _ => Bool
  | .get_peer _ => Option String
  | .get_extension _ _ => Bool
  | .get_transfer_target _ => Option TransferTarget
  | .get_recording _ => Option Recording
  | .internal_caller_id _ => String

abbrev Op := Program String CallContext Question Answer

/-- Runs `next` if the call succeeds. -/
def attempt (name : String) (failed next : Op) : Op :=
  .ask (.call name) fun succeeded => match succeeded with
    | true => next
    | false => failed

/-- get_call_context fails where no context is stored. -/
def get_call_context (channel : String) (failed : Op) (next : CallContext → Op) : Op :=
  .get channel fun found => match found with
    | some context => next context
    | none => failed

/-- set_call_context, after the context that was read has been changed. -/
def set_call_context (channel : String) (context : CallContext)
    (change : CallContext → CallContext) (next : Op) : Op :=
  .set channel context change next

/-- One field or two are set and nothing is waited for in between. -/
def update (channel : String) (change : CallContext → CallContext) : Op :=
  get_call_context channel .done fun context => set_call_context channel context change .done

end CallContexts
