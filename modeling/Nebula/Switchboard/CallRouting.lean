import Nebula.Lib.Runs
import Mathlib.Logic.Function.Basic

/- The routing of a call through call flows, extensions and users. Each flow runs module
   by module; a module that starts another flow is the last one of its own, so that at
   any time one flow runs. How long bridges, prompts and queues take and what comes of
   them is a choice of the step, as is what the caller presses and what time it is. -/
namespace CallRouting

inductive ModuleName where
  | start
  | musiconhold
  | extension
  | pressextension
  | dialbyextension
  | backupextension
  | forwardcall
  | room
  | conference
  | play
  | recording
  | voicemail
  | callqueue
  | callflow
  | diary
  | callflowcontent
  | outofhours
  | trunk
  | busy
  | sleep
  | fax
  | calleridmatch
  | offnetconnect
  | unsupported
  deriving DecidableEq

/-- `values` are the keys of a module that hold a string, `nexts` those of its object
    `next`, `extension` and `user` those of a backup extension. -/
inductive Module where
  | mk (name : ModuleName) (values : List (String × String)) (nexts : List (String × String))
    (extension : Option Int) (user : Option String) (dial_by_extension : Bool)
    (callflow_content : Option (List (String × Module)))

abbrev Flow := List (String × Module)

namespace Module

def name : Module → ModuleName
  | .mk name _ _ _ _ _ _ => name

def values : Module → List (String × String)
  | .mk _ values _ _ _ _ _ => values

def nexts : Module → List (String × String)
  | .mk _ _ nexts _ _ _ _ => nexts

def extension : Module → Option Int
  | .mk _ _ _ extension _ _ _ => extension

def user : Module → Option String
  | .mk _ _ _ _ user _ _ => user

def dial_by_extension : Module → Bool
  | .mk _ _ _ _ _ dial_by_extension _ => dial_by_extension

def callflow_content : Module → Option Flow
  | .mk _ _ _ _ _ _ callflow_content => callflow_content

def module_value (module : Module) (key : String) : Option String :=
  module.values.lookup key

def get_next (module : Module) (key : String) : Option String :=
  module.nexts.lookup key

end Module

inductive Discriminator where
  | sipuser
  | huntgroup
  | callflow
  | voicemailmenu
  | other
  deriving DecidableEq

structure Extension where
  tenant_id : String
  number : Int
  discriminator : Discriminator
  parent_id : String

structure UserCallHandling where
  forward_internal : Option Bool
  forward_internal_number : Option String
  forward_external : Option Bool
  forward_external_number : Option String
  blind_transfer_return_to_sender : Option Bool
  busy_callflow : Option Flow
  noanswer_callflow : Option Flow
  unavailable_callflow : Option Flow
  busy_callflow_id : Option String
  noanswer_callflow_id : Option String
  unavailable_callflow_id : Option String

/-- `voicemail` is the mailbox that get_user_voicemail finds. -/
structure User where
  uuid : String
  tenant_id : String
  extension : Option Int
  call_handling : Option UserCallHandling
  transfer_mailbox : Bool
  transfer_backup_extension : Option Int
  voicemail : Option String

structure CallFlow where
  uuid : String
  tenant_id : String
  flow : Flow

/-- The call flows of the records, in their order. -/
structure Diary where
  uuid : String
  tenant_id : String
  records : List String

structure Number where
  tenant_id : Option String
  sip_user_id : Option String
  diary_id : Option String
  call_flow_id : Option String

structure Config where
  extensions : List Extension
  users : List User
  callflows : List CallFlow
  diaries : List Diary

def get_extension (config : Config) (tenant_id : String) (number : Int) : Option Extension :=
  config.extensions.find? fun extension =>
    extension.tenant_id = tenant_id && extension.number = number

def get_user (config : Config) (tenant_id uuid : String) : Option User :=
  (config.users.find? fun user => user.uuid = uuid).filter fun user =>
    tenant_id = "admin" || user.tenant_id = tenant_id

def get_callflow (config : Config) (tenant_id uuid : String) : Option CallFlow :=
  (config.callflows.find? fun callflow => callflow.uuid = uuid).filter fun callflow =>
    tenant_id = "admin" || callflow.tenant_id = tenant_id

def get_diary (config : Config) (tenant_id uuid : String) : Option Diary :=
  (config.diaries.find? fun diary => diary.uuid = uuid).filter fun diary =>
    tenant_id = "admin" || diary.tenant_id = tenant_id

/-- str::parse::<i64>: an optional sign, decimal digits, and no more than 64 bits. -/
def parse_i64 (text : String) : Option Int :=
  let digits (chars : List Char) : Option Nat :=
    if !chars.isEmpty && chars.all Char.isDigit then
      some (chars.foldl (fun value char => 10 * value + (char.toNat - '0'.toNat)) 0)
    else none
  let fits (value : Int) : Option Int :=
    if -9223372036854775808 ≤ value ∧ value < 9223372036854775808 then some value else none
  match text.toList with
  | '-' :: rest => (digits rest).bind fun value => fits (-value)
  | '+' :: rest => (digits rest).bind fun value => fits value
  | chars => (digits chars).bind fun value => fits value

/-- The fields of the call context that routing reads; of backup, refer and redirect_peer
    only whether they are set. -/
structure Context where
  forward : Bool
  backup : Bool
  is_internal_call : Bool
  refer : Bool
  redirect_peer : Bool
  sender : Option User

inductive ChannelBridgeResult where
  | Ok
  | Cancelled
  | Noanswer
  | NoanswerWithCompletedElsewhere
  | Busy
  | Unavailable
  deriving DecidableEq

inductive CallQueueResult where
  | Ok
  | Fail
  | Timeout
  | RingTimeout
  | MaxWaitingReached
  | Shortcode
  | Pickup
  | NoRegistered
  deriving DecidableEq

/-- What comes of the calls that a step waits for: whether one that must succeed fails,
    what a bridge or a queue ends with, what the caller presses, whether the time or the
    caller's number matches, which record of a diary it is now, and which of the start
    modules is met first. -/
structure Choice where
  fails : Bool := false
  bridge : ChannelBridgeResult := .Noanswer
  queue : CallQueueResult := .Fail
  digits : String := ""
  holds : Bool := false
  record : Nat := 0
  start : Nat := 0

/-- What a module ends with: the next one, no next one, or another flow. -/
inductive Outcome where
  | next (key : String)
  | no_next
  | callflow (callflow : CallFlow)
  | content (flow : Flow)
  | forward (extension : Extension)
  | backup (extension : Extension)

def Outcome.ofNext : Option String → Outcome
  | some key => .next key
  | none => .no_next

def Outcome.ofCallflow : Option CallFlow → Outcome
  | some found => .callflow found
  | none => .no_next

/-- Where a module goes on after a bridge. -/
def bridged (value : String → Option String) : ChannelBridgeResult → Option String
  | .Ok => value "answer"
  | .Busy => (value "busy").or (value "noanswer")
  | .Unavailable => (value "unavailable").or (value "noanswer")
  | .Noanswer | .NoanswerWithCompletedElsewhere | .Cancelled => value "noanswer"

/-- The end of a bridge to an extension that the caller has dialled. -/
def dialled (value : String → Option String) (result : ChannelBridgeResult) : Outcome :=
  match bridged value result with
  | some "sipuser_voicemail" => .no_next
  | next => .ofNext next

/-- What the caller has dialled within a flow, where it is an extension. -/
def switch_dialled (config : Config) (tenant_uuid : String) (extension : Extension)
    (value : String → Option String) (choice : Choice) : Outcome :=
  match extension.discriminator with
  | .callflow => .ofCallflow (get_callflow config tenant_uuid extension.parent_id)
  | .sipuser | .huntgroup => dialled value choice.bridge
  | _ => .no_next

def switch_dialbyextension (config : Config) (tenant_uuid : String) (module : Module)
    (choice : Choice) : Outcome :=
  if choice.digits = "" then .ofNext (module.get_next "timeout")
  else match (parse_i64 choice.digits).bind (get_extension config tenant_uuid) with
    | none => .ofNext (module.get_next "invalid")
    | some extension => switch_dialled config tenant_uuid extension module.module_value choice

def switch_pressextension (config : Config) (tenant_uuid : String) (module : Module)
    (choice : Choice) : Outcome :=
  if choice.digits = "" then .ofNext (module.get_next "timeout")
  else match module.get_next choice.digits with
    | some next => .next next
    | none =>
      let extension := (parse_i64 choice.digits).bind fun digits =>
        if module.dial_by_extension then get_extension config tenant_uuid digits else none
      match extension with
      | some extension => switch_dialled config tenant_uuid extension module.get_next choice
      | none => .ofNext (module.get_next "invalid")

def switch_backupextension (config : Config) (tenant_uuid : String) (module : Module) : Outcome :=
  match module.extension, module.user with
  | some number, some _ => match get_extension config tenant_uuid number with
    | some extension => .backup extension
    | none => .no_next
  | _, _ => .no_next

/-- A number that is no extension is bridged, and nothing follows. -/
def switch_forward_call (config : Config) (tenant_uuid : String) (module : Module) : Outcome :=
  match (module.module_value "number").bind parse_i64 with
  | some exten => match get_extension config tenant_uuid exten with
    | some extension => .forward extension
    | none => .no_next
  | none => .no_next

def switch_callqueue (module : Module) (choice : Choice) : Outcome :=
  match choice.queue with
  | .Ok | .Pickup => .ofNext (module.module_value "answer")
  | .Timeout => .ofNext (module.module_value "timeout")
  | .MaxWaitingReached => .ofNext (module.module_value "max_waiting_module")
  | .RingTimeout => .ofNext (module.module_value "ring_timeout_module")
  | .NoRegistered => .ofNext (module.module_value "no_registered")
  | .Shortcode => .ofNext (module.module_value "shortcode_module")
  | .Fail => .no_next

def switch_callflow_module (config : Config) (tenant_uuid : String) (module : Module) : Outcome :=
  .ofCallflow ((module.module_value "callflow_uuid").bind (get_callflow config tenant_uuid))

/-- The record is none where no record's time it is. -/
def switch_diary (config : Config) (tenant_uuid : String) (module : Module) (choice : Choice) :
    Outcome :=
  match (module.module_value "diary").bind (get_diary config tenant_uuid) with
  | some diary =>
    .ofCallflow (diary.records[choice.record]?.bind (get_callflow config tenant_uuid))
  | none => .no_next

def switch_callflow_content (module : Module) : Outcome :=
  match module.callflow_content with
  | some flow => .content flow
  | none => .no_next

def switch_outofhours (module : Module) (choice : Choice) : Outcome :=
  .ofNext (module.module_value (if choice.holds then "closed" else "open"))

def switch_callerid_match (module : Module) (choice : Choice) : Outcome :=
  .ofNext (module.module_value (if choice.holds then "match" else "nomatch"))

/-- The caller is connected, or goes on as one who does not match. -/
def switch_offnet_connect (module : Module) (choice : Choice) : Outcome :=
  if choice.holds then .no_next else .ofNext (module.module_value "next")

/-- One module. A call that must succeed and fails ends it, as does one of the modules
    that nothing follows. -/
def execute (config : Config) (tenant_uuid : String) (module : Module) (choice : Choice) :
    Outcome :=
  if choice.fails then .no_next
  else match module.name with
  | .musiconhold | .play | .recording | .sleep => .ofNext (module.module_value "next")
  | .extension => .ofNext (bridged module.module_value choice.bridge)
  | .pressextension => switch_pressextension config tenant_uuid module choice
  | .dialbyextension => switch_dialbyextension config tenant_uuid module choice
  | .backupextension => switch_backupextension config tenant_uuid module
  | .forwardcall => switch_forward_call config tenant_uuid module
  | .callqueue => switch_callqueue module choice
  | .callflow => switch_callflow_module config tenant_uuid module
  | .diary => switch_diary config tenant_uuid module choice
  | .callflowcontent => switch_callflow_content module
  | .outofhours => switch_outofhours module choice
  | .calleridmatch => switch_callerid_match module choice
  | .offnetconnect => switch_offnet_connect module choice
  | .room | .conference | .voicemail | .trunk | .busy | .fax => .no_next
  | .start | .unsupported => .no_next

def plain (name : ModuleName) (values : List (String × String)) : Module :=
  .mk name values [] none none false none

def started (next : String) : String × Module :=
  ("start", plain .start [("next", next)])

/-- A flow of one module extension, of which only the bridge matters. -/
def single : Flow :=
  [started "extension", ("extension", plain .extension [])]

def forwarding (number : String) : Flow :=
  [started "forward", ("forward", plain .forwardcall [("number", number)])]

/-- The module of a user's call handling: a call flow by its id, or else by its content. -/
def handled (key : String) (callflow_id : Option String) (content : Option Flow) :
    List (String × Module) :=
  match callflow_id, content with
  | some id, _ => [(key, plain .callflow [("callflow_uuid", id)])]
  | none, some flow => [(key, .mk .callflowcontent [] [] none none false (some flow))]
  | none, none => []

def ringing : Flow :=
  [started "extension", ("extension", plain .extension
    [("noanswer", "noanswer"), ("busy", "busy"), ("unavailable", "unavailable")])]

/-- The number that all calls of a kind are forwarded to. -/
def forwarded (enabled : Option Bool) (number : Option String) : Option String :=
  number.filter fun number => number ≠ "" && enabled.getD false

def backup_extension (user : User) (context : Context) : Option Int :=
  match user.transfer_backup_extension with
  | some (-1) => if context.refer
      then context.sender.map fun sender => sender.extension.getD 0 else some 0
  | backup => backup

/-- None where the source gives an error. -/
def get_sipuser_flow (user : User) (context : Context) : Option Flow :=
  if context.redirect_peer then some ringing
  else match user.call_handling with
  | some call_handling =>
    let number := if context.is_internal_call
      then forwarded call_handling.forward_internal call_handling.forward_internal_number
      else forwarded call_handling.forward_external call_handling.forward_external_number
    match (if context.forward then none else number) with
    | some number => some (forwarding number)
    | none =>
      if context.refer && call_handling.blind_transfer_return_to_sender.getD false then
        context.sender.map fun _ => ringing ++ [("noanswer", plain .extension [])]
      else some (ringing ++
        handled "noanswer" call_handling.noanswer_callflow_id call_handling.noanswer_callflow ++
        handled "busy" call_handling.busy_callflow_id call_handling.busy_callflow ++
        handled "unavailable" call_handling.unavailable_callflow_id
          call_handling.unavailable_callflow)
  | none =>
    if context.backup then some ringing
    else if user.transfer_mailbox then
      some (ringing ++ match user.voicemail with
        | some _ => [("noanswer", plain .voicemail [])]
        | none => [])
    else match user.transfer_backup_extension with
      | none => some ringing
      | some _ => (backup_extension user context).map fun backup =>
          if backup = 0 then ringing
          else ringing ++ [("noanswer",
            .mk .backupextension [] [] (some backup) (some user.uuid) false none)]

/-- What Switchboard::switch finds that a call is for, where it is for a flow at all. -/
inductive Entry where
  | extension (tenant_id : String) (number : Int) (to_voicemail_message : Bool)
  | user (user : User)
  | number (number : Number)
  | outside (tenant_id : String)
  | content (tenant_id : String) (flow : Flow)

inductive Place where
  | switch (entry : Entry)
  | switch_extension (extension : Extension) (force_leave_message : Bool)
  | switch_user (tenant_id user_id : String)
  | switch_callflow (callflow : CallFlow)
  | callflow (tenant_id : String) (flow : Flow)
  | switching (tenant_uuid : String) (flow : Flow) (module_key : String) (n : Nat)
  | over

/-- `counters` are the fields callflow:{uuid} of the channel. The last three fields are no
    part of the code: how many modules and flows have run, and the users that the call has
    been routed to since a counter or one of the flags forward and backup was last used up. -/
structure State where
  context : Context
  counters : String → Nat
  place : Place
  executed : Nat
  activated : Nat
  visited : List String

def State.goOn (state : State) (place : Place) : State :=
  { state with place := place }

def State.ofCallflow (state : State) : Option CallFlow → State
  | some callflow => state.goOn (.switch_callflow callflow)
  | none => state.goOn .over

def State.ofExtension (state : State) (force_leave_message : Bool) : Option Extension → State
  | some extension => state.goOn (.switch_extension extension force_leave_message)
  | none => state.goOn .over

def switch_internal_number (config : Config) (number : Number) (choice : Choice) (state : State) :
    State :=
  let tenant_id := number.tenant_id.getD ""
  if tenant_id = "" then state.goOn .over
  else if number.sip_user_id.getD "" ≠ "" then
    state.goOn (.switch_user tenant_id (number.sip_user_id.getD ""))
  else if number.diary_id.getD "" ≠ "" then
    match get_diary config tenant_id (number.diary_id.getD "") with
    | some diary =>
      state.ofCallflow (diary.records[choice.record]?.bind (get_callflow config tenant_id))
    | none => state.goOn .over
  else state.ofCallflow (get_callflow config tenant_id (number.call_flow_id.getD ""))

def switch (config : Config) (entry : Entry) (choice : Choice) (state : State) : State :=
  match entry with
  | .extension tenant_id number to_voicemail_message =>
    state.ofExtension to_voicemail_message (get_extension config tenant_id number)
  | .user user => state.goOn (.switch_user user.tenant_id user.uuid)
  | .number number => switch_internal_number config number choice state
  | .outside tenant_id => state.goOn (.callflow tenant_id single)
  | .content tenant_id flow => state.goOn (.callflow tenant_id flow)

def switch_extension (config : Config) (extension : Extension) (force_leave_message : Bool)
    (state : State) : State :=
  match extension.discriminator with
  | .sipuser =>
    if force_leave_message then state.goOn .over
    else state.goOn (.switch_user extension.tenant_id extension.parent_id)
  | .huntgroup => state.goOn (.callflow extension.tenant_id single)
  | .callflow => state.ofCallflow (get_callflow config extension.tenant_id extension.parent_id)
  | .voicemailmenu | .other => state.goOn .over

def switch_user (config : Config) (tenant_id user_id : String) (state : State) : State :=
  match get_user config tenant_id user_id with
  | some user => match get_sipuser_flow user state.context with
    | some flow => { state with
        place := .callflow user.tenant_id flow
        visited := user.uuid :: state.visited }
    | none => state.goOn .over
  | none => state.goOn .over

def switch_callflow (callflow : CallFlow) (choice : Choice) (state : State) : State :=
  let counter := state.counters callflow.uuid + 1
  let counted := { state with counters := Function.update state.counters callflow.uuid counter }
  if counter > 100 then counted.goOn .over
  else if choice.fails then counted.goOn .over
  else { counted with place := .callflow callflow.tenant_id callflow.flow, visited := [] }

/-- CallFlow::start: the flow goes to the next of one of its start modules. -/
def start (tenant_id : String) (flow : Flow) (choice : Choice) (state : State) : State :=
  let starts := flow.filter fun entry => entry.2.name = .start
  let activated := { state with activated := state.activated + 1 }
  match starts[choice.start]?.bind (fun entry => entry.2.module_value "next") with
  | some next => activated.goOn (.switching tenant_id flow next 0)
  | none => activated.goOn .over

/-- One turn of the loop of CallFlow::switch. -/
def switch_module (config : Config) (tenant_uuid : String) (flow : Flow) (module_key : String)
    (n : Nat) (choice : Choice) (state : State) : State :=
  match flow.lookup module_key with
  | none => state.goOn .over
  | some module =>
    if n + 1 > 1000 then state.goOn .over
    else
      let executed := { state with executed := state.executed + 1 }
      match execute config tenant_uuid module choice with
      | .next key => executed.goOn (.switching tenant_uuid flow key (n + 1))
      | .no_next => executed.goOn .over
      | .callflow callflow => executed.goOn (.switch_callflow callflow)
      | .content content => executed.goOn (.callflow tenant_uuid content)
      | .forward extension => { executed with
          context := { state.context with forward := true }
          place := .switch_extension extension false
          visited := if state.context.forward then state.visited else [] }
      | .backup extension => { executed with
          context := { state.context with backup := true }
          place := .switch_extension extension false
          visited := if state.context.backup then state.visited else [] }

/-- A step whose calls fail ends the routing. -/
def State.orFail (state : State) (failed : Bool) (next : State → State) : State :=
  if failed then state.goOn .over else next state

def routing (config : Config) : Runs.Machine State Choice :=
  fun state choice => match state.place with
    | .switch entry => some (state.orFail choice.fails (switch config entry choice))
    | .switch_extension extension force_leave_message =>
      some (state.orFail choice.fails (switch_extension config extension force_leave_message))
    | .switch_user tenant_id user_id =>
      some (state.orFail choice.fails (switch_user config tenant_id user_id))
    | .switch_callflow callflow => some (switch_callflow callflow choice state)
    | .callflow tenant_id flow => some (state.orFail choice.fails (start tenant_id flow choice))
    | .switching tenant_uuid flow module_key n =>
      some (switch_module config tenant_uuid flow module_key n choice state)
    | .over => none

/-- A call that has not been routed yet. -/
def incoming (context : Context) (entry : Entry) : State where
  context := context
  counters := fun _ => 0
  place := .switch entry
  executed := 0
  activated := 0
  visited := []

end CallRouting
