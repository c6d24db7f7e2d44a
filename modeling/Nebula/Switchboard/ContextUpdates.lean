import Nebula.Switchboard.CallContexts

/- The operations that change a call context, each as far as its last
   set_call_context, and which fields each of them changes. The mutex that refer
   holds keeps out other refers of the channel only; waiting for it is one of its
   calls. -/
namespace ContextUpdates
open Interleaving StoredRecords CallContexts

/-- What becomes of a transfer peer that is given up: it is hung up, and the media
    of the two other ends are taken apart. -/
def hangup_transfer (self to_channel : String) (next : Op) : Op :=
  .ask (.call "switchboard_rpc.hangup") fun _ =>
    .ask (.get_peer self) fun peer => match peer with
      | some _ => .ask (.get_peer to_channel) fun _ => next
      | none => next

/-- The common part of refer and park: the other leg of a transfer loses its mark. -/
def leave_transfer (self : String) (context : CallContext) (next : Op) : Op :=
  match context.transfer with
  | some ⟨.Initiator to_channel _⟩ =>
    get_call_context to_channel .done fun to_channel_context =>
      set_call_context to_channel to_channel_context
        (fun context => { context with transfer := none }) <|
          hangup_transfer self to_channel <| .ask (.get_peer self) fun _ => next
  | some ⟨.Recipient _ _ _ _⟩ => next
  | none => next

/-- refer and park of the peer of a transfer's recipient are those of its initiator. -/
def on_initiator (self : String) (from_channel : String → Op) (here : Op) : Op :=
  .ask (.get_peer self) fun peer => match peer with
    | some peer => .get peer fun peer_context => match peer_context with
      | some peer_context => match peer_context.transfer with
        | some ⟨.Recipient from_channel' _ _ _⟩ => from_channel from_channel'
        | _ => here
      | none => here
    | none => here

def blind_transfer (self exten refer_channel_id : String) : Op :=
  get_call_context self .done fun context =>
    match context.endpoint with
    | .User from_user =>
      let refer (no_recording : Bool) : Op :=
        set_call_context self context
          (fun context => { context with
            refer := some ⟨.Initiator, refer_channel_id, none, no_recording⟩, transfer := none })
          .done
      .ask (.call "unhold") fun _ =>
        if from_user.disable_external_transfer_recording.getD false then
          .ask (.get_peer self) fun peer => match peer with
            | some peer => .get peer fun peer_context => match peer_context with
              | some peer_context =>
                if peer_context.endpoint.isProvider then
                  .ask (.get_extension from_user.tenant_id exten) fun found => match found with
                    | true => refer false
                    | false => .ask (.call "media_rpc_client.pause_recording") fun _ => refer true
                else refer false
              | none => refer false
            | none => refer false
        else refer false
    | _ => .done

inductive ReferTo where
  | Channel (channel : String)
  | Exten (exten : String)
  | Teams

/-- `hops` bounds the transfers that are followed to an initiator. -/
def refer : Nat → String → ReferTo → String → Op
  | 0, _, _, _ => .done
  | hops + 1, self, «to», refer_channel_id =>
    on_initiator self (fun from_channel => refer hops from_channel «to» refer_channel_id) <|
      .ask (.call "refer:lock") fun _ =>
        get_call_context self .done fun context =>
          if context.refer.isSome then .done
          else leave_transfer self context <|
            match «to» with
            | .Exten exten => blind_transfer self exten refer_channel_id
            | .Channel refer_channel =>
              match context.endpoint with
              | .User _ =>
                get_call_context refer_channel .done fun refer_channel_context =>
                  if ['*', '*'].isPrefixOf refer_channel_context.«to».toList then
                    blind_transfer self refer_channel_context.«to» refer_channel_id
                  else
                    set_call_context self context
                      (fun context => { context with
                        refer := some ⟨.Initiator, refer_channel, none, false⟩, transfer := none }) <|
                      set_call_context refer_channel refer_channel_context
                        (fun context => { context with
                          refer := some ⟨.Recipient, self, none, false⟩ })
                        .done
              | _ => .done
            | .Teams =>
              match context.endpoint with
              | .User _ =>
                .ask (.call "unhold") fun _ =>
                  set_call_context self context
                    (fun context => { context with
                      refer := some ⟨.Initiator, refer_channel_id, none, false⟩, transfer := none })
                    .done
              | _ => .done

def park : Nat → String → String → Op
  | 0, _, _ => .done
  | hops + 1, self, slot =>
    on_initiator self (fun from_channel => park hops from_channel slot) <|
      attempt "setnx nebula:park" .done <|
        get_call_context self .done fun _ =>
          attempt "hmset nebula:park:details" .done <|
            attempt "hold" .done <|
              attempt "set_media_mode" .done <|
                get_call_context self .done fun context =>
                  leave_transfer self context <|
                    set_call_context self context
                      (fun context => { context with
                        refer := some ⟨.Initiator, "", some slot, false⟩, transfer := none })
                      .done

/-- Unicode's White_Space, which trim takes off. -/
def is_whitespace (c : Char) : Bool :=
  let code := c.toNat
  (9 ≤ code && code ≤ 13) || (0x2000 ≤ code && code ≤ 0x200A) ||
    [0x20, 0x85, 0xA0, 0x1680, 0x2028, 0x2029, 0x202F, 0x205F, 0x3000].contains code

/-- With a blank target the transfer under way is given up. -/
def transfer_call (self target transfer_channel_id : String) (empty_sdp : Bool) : Op :=
  get_call_context self .done fun context =>
    match context.endpoint with
    | .User _ =>
      let replace (next : Op) : Op :=
        match context.transfer with
        | some ⟨.Initiator to_channel _⟩ => hangup_transfer self to_channel next
        | _ => next
      if target.toList.all is_whitespace then
        replace <|
          set_call_context self context (fun context => { context with transfer := none }) .done
      else
        .ask (.get_transfer_target target) fun found => match found with
          | some _ =>
            replace <|
              set_call_context self context
                (fun context => { context with
                  transfer := some ⟨.Initiator transfer_channel_id empty_sdp⟩ })
                .done
          | none => .done
    | _ => .done

def replace_channel (self refer_channel : String) : Op :=
  attempt "answer" .done <|
    get_call_context self .done fun context =>
      set_call_context self context
        (fun context => { context with transfer := some ⟨.Initiator refer_channel false⟩ }) <|
        get_call_context refer_channel .done fun refer_channel_context =>
          set_call_context refer_channel refer_channel_context
            (fun context => { context with
              transfer := some ⟨.Recipient self (.Number "") false ""⟩ })
            .done

/-- `next` runs whether the recording was started or not. -/
def start_recording (self : String) (next : Op) : Op :=
  .ask (.is_answered self) fun answered => match answered with
    | false => next
    | true =>
      get_call_context self next fun context =>
        match context.recording with
        | none => next
        | some recording =>
          let start : Op :=
            attempt "get_audio_id" next <|
              attempt "media_rpc_client.start_recording" next <|
                -- update_cdr reads the context for itself
                get_call_context self next fun _ =>
                  set_call_context self context
                    (fun context => { context with
                      recording := some { recording with started := true } })
                    next
          if recording.started then next
          else match context.transfer, context.cdr with
            | some ⟨.Initiator to_channel _⟩, some _ =>
              .ask (.get_peer to_channel) fun peer => match peer with
                | some _ => start
                | none => next
            | none, some _ => start
            | _, _ => next

def set_answered (self : String) (now : Nat) : Op :=
  attempt "hset last_rtp_packet" .done <|
    attempt "hset answered" .done <|
      attempt "new_event" .done <|
        start_recording self <|
          update self fun context => { context with answred_at := some now }

def recording_start (explicit : Bool) (recording : Option Recording) : Bool :=
  match recording with
  | some ⟨some global, _⟩ => global
  | _ => explicit

def recording_expires (unlimited : Bool) (recording : Option Recording) : Nat :=
  if unlimited then 0
  else match recording with
    | some recording => recording.expires_in
    | none => 30

def update_recording (self tenant_id : String) (explicit unlimited : Bool) : Op :=
  get_call_context self .done fun context =>
    if context.refer.any (fun refer => refer.no_recording) then .done
    else match context.recording with
      | some _ => start_recording self .done
      | none =>
        .ask (.get_recording tenant_id) fun recording =>
          match recording_start explicit recording with
          | false => .done
          | true =>
            set_call_context self context
              (fun context => { context with
                recording := some ⟨false, recording_expires unlimited recording, false⟩ }) <|
              start_recording self .done

/-- do_recording_pause, on the context that toggle_recording has read, and
    do_initialise_recording where there is no recording yet. -/
def toggle_recording (self inbound : String) : Op :=
  get_call_context inbound .done fun context =>
    match context.recording with
    | some recording =>
      attempt "get_audio_id" .done <|
        attempt (if recording.paused then "media_rpc_client.resume_recording"
          else "media_rpc_client.pause_recording") .done <|
          set_call_context inbound context
            (fun context => { context with
              recording := some { recording with paused := !recording.paused } })
            .done
    | none =>
      get_call_context self .done fun user_context =>
        match user_context.endpoint with
        | .User user =>
          update_recording inbound user.tenant_id true (user.unlimited_recording.getD false)
        | _ => .done

def switch_musiconhold (self moh_class : String) : Op :=
  update self fun context => { context with call_flow_moh := some moh_class }

def switch_callqueue (self group_uuid group_name : String) : Op :=
  update self fun context => { context with
    call_queue_id := some group_uuid, call_queue_name := some group_name }

def switch_forward_call (self : String) : Op :=
  update self fun context => { context with forward := true }

def switch_backupextension (self : String) (user : User) : Op :=
  update self fun context => { context with backup := some user }

def new_intra (self intra_id : String) : Op :=
  update self fun context => { context with intra_peer := some intra_id }

def new_redirect (self redirect_id : String) : Op :=
  update self fun context => { context with redirect_peer := some redirect_id }

/-- The part of pickup_channel, of pickup and of retrieve that writes the caller id
    of the picked up call. -/
def set_answer_caller_id (self inbound : String) (next : Op) : Op :=
  .get inbound fun inbound_context => match inbound_context with
    | some _ =>
      get_call_context self .done fun context =>
        .ask (.internal_caller_id inbound) fun caller_id =>
          set_call_context self context
            (fun context => { context with answer_caller_id := some caller_id }) next
    | none => next

def pickup_channel (self inbound : String) : Op :=
  get_call_context self .done fun context =>
    match context.endpoint with
    | .User _ => attempt "add_channel" .done <| set_answer_caller_id self inbound .done
    | _ => .done

/-- From the slot's deletion on. -/
def retrieve (self slot park_channel new_channel : String) : Op :=
  get_call_context park_channel .done fun park_channel_context =>
    attempt "unhold" .done <|
      let refer : Op :=
        attempt "hmset" .done <|
          set_call_context park_channel park_channel_context
            (fun context => { context with
              refer := some ⟨.Initiator, new_channel, some slot, false⟩ })
            .done
      .ask (.get_peer park_channel) fun peer => match peer with
        | some peer => set_answer_caller_id self peer refer
        | none => refer

/-- The part of Bridge::answer for a call back of a queue. -/
def answer (inbound outbound_channel : String) : Op :=
  get_call_context outbound_channel .done fun outbound_context =>
    attempt "answer" .done <|
      get_call_context inbound .done fun inbound_context =>
        match inbound_context.callback with
        | some _ =>
          set_call_context outbound_channel outbound_context
            (fun context => { context with callback_peer := some inbound }) .done
        | none => .done

inductive Operation where
  | refer (hops : Nat) (self : String) («to» : ReferTo) (refer_channel_id : String)
  | park (hops : Nat) (self slot : String)
  | transfer_call (self target transfer_channel_id : String) (empty_sdp : Bool)
  | replace_channel (self refer_channel : String)
  | start_recording (self : String)
  | set_answered (self : String) (now : Nat)
  | update_recording (self tenant_id : String) (explicit unlimited : Bool)
  | toggle_recording (self inbound : String)
  | switch_musiconhold (self moh_class : String)
  | switch_callqueue (self group_uuid group_name : String)
  | switch_forward_call (self : String)
  | switch_backupextension (self : String) (user : User)
  | new_intra (self intra_id : String)
  | new_redirect (self redirect_id : String)
  | pickup_channel (self inbound : String)
  | retrieve (self slot park_channel new_channel : String)
  | answer (inbound outbound_channel : String)

def Operation.program : Operation → Op
  | .refer hops self «to» refer_channel_id => ContextUpdates.refer hops self «to» refer_channel_id
  | .park hops self slot => ContextUpdates.park hops self slot
  | .transfer_call self target transfer_channel_id empty_sdp =>
    ContextUpdates.transfer_call self target transfer_channel_id empty_sdp
  | .replace_channel self refer_channel => ContextUpdates.replace_channel self refer_channel
  | .start_recording self => ContextUpdates.start_recording self .done
  | .set_answered self now => ContextUpdates.set_answered self now
  | .update_recording self tenant_id explicit unlimited =>
    ContextUpdates.update_recording self tenant_id explicit unlimited
  | .toggle_recording self inbound => ContextUpdates.toggle_recording self inbound
  | .switch_musiconhold self moh_class => ContextUpdates.switch_musiconhold self moh_class
  | .switch_callqueue self group_uuid group_name =>
    ContextUpdates.switch_callqueue self group_uuid group_name
  | .switch_forward_call self => ContextUpdates.switch_forward_call self
  | .switch_backupextension self user => ContextUpdates.switch_backupextension self user
  | .new_intra self intra_id => ContextUpdates.new_intra self intra_id
  | .new_redirect self redirect_id => ContextUpdates.new_redirect self redirect_id
  | .pickup_channel self inbound => ContextUpdates.pickup_channel self inbound
  | .retrieve self slot park_channel new_channel =>
    ContextUpdates.retrieve self slot park_channel new_channel
  | .answer inbound outbound_channel => ContextUpdates.answer inbound outbound_channel

abbrev Contexts := World (Store String CallContext) (Proc String CallContext Field Question Answer)

/-- The operations at their start, over the contexts that are stored. -/
def begin_all (operations : List Operation) (stored : Store String CallContext) : Contexts where
  shared := stored
  procs := fun pid => Proc.begin (match operations[pid]? with
    | some operation => operation.program
    | none => .done)

def Finished (world : Contexts) : Prop := ∀ pid, (world.procs pid).program = .done

theorem begin_changes_stored (operations : List Operation) (stored : Store String CallContext) :
    ChangesStored view (begin_all operations stored) := by
  intro pid channel field context changed
  cases changed

/-- In every run in which no operation sets a field back that it does not change,
    every change that no other operation has made as well is stored. -/
theorem no_lost_update (operations : List Operation) (stored : Store String CallContext)
    (last : Contexts)
    (run : Run (programs view) (SetsNothingBack view) (begin_all operations stored) last) :
    ChangesStored view last :=
  run_changes_stored (begin_changes_stored operations stored) run

def alice : User := ⟨"u1", "t1", none, none⟩

/-- A call of alice's that is answered and has a recording which is not started yet. -/
def call : CallContext where
  endpoint := .User alice
  proxy_host := "10.0.0.1"
  «to» := "200"
  answer_caller_id := none
  call_queue_id := none
  call_queue_name := none
  call_flow_moh := none
  intra_peer := none
  redirect_peer := none
  refer := none
  transfer := none
  cdr := some "cdr1"
  answred_at := some 1
  forward := false
  backup := none
  recording := some ⟨false, 30, false⟩
  callback := none
  callback_peer := none

def oneCall : Store String CallContext := fun channel => if channel = "c1" then some call else none

/-- Every call succeeds, and the target of the transfer is found. -/
def fine : (question : Question) → Answer question
  | .call _ => true
  | .is_answered _ => true
  | .get_peer _ => none
  | .get_extension _ _ => false
  | .get_transfer_target _ => some (.Number "300")
  | .get_recording _ => none
  | .internal_caller_id _ => ""

def transferAndRecord : List Operation :=
  [.transfer_call "c1" "300" "c2" false, .start_recording "c1"]

def moves (pids : List Nat) : List (Action ((question : Question) → Answer question) Empty) :=
  pids.map fun pid => .proc pid fine

/-- The transfer reads after the recording has written. -/
def inTurn : List Nat := [1, 1, 1, 1, 1, 1, 0, 0, 0]

/-- The transfer reads before the recording is started and writes after it. -/
def crossing : List Nat := [0, 1, 1, 1, 1, 1, 1, 0, 0]

theorem no_lost_update_in_turn : ∃ last : Contexts,
    runWhere (programs view) writesOverRead (begin_all transferAndRecord oneCall) (moves inTurn) =
      some last ∧ ChangesStored view last ∧
    last.shared "c1" = some { call with
      recording := some ⟨true, 30, false⟩, transfer := some ⟨.Initiator "c2" false⟩ } := by
  have ran : ∃ last : Contexts,
      runWhere (programs view) writesOverRead (begin_all transferAndRecord oneCall)
        (moves inTurn) = some last ∧
      last.shared "c1" = some { call with
        recording := some ⟨true, 30, false⟩, transfer := some ⟨.Initiator "c2" false⟩ } :=
    ⟨_, rfl, rfl⟩
  obtain ⟨last, ran, written⟩ := ran
  refine ⟨last, ran, ?_, written⟩
  exact no_lost_update transferAndRecord oneCall last
    (run_of_runWhere over_read_sets_nothing_back (moves inTurn) ran)

/-- Both operations have finished, and the recording is not marked as started. -/
theorem transfer_loses_recording :
    ¬ ∀ (operations : List Operation) (stored : Store String CallContext) (last : Contexts),
      Run (programs view) (fun _ _ => True) (begin_all operations stored) last →
        Finished last → ChangesStored view last := by
  intro always
  have ran : ∃ last : Contexts,
      runAll (programs view) (begin_all transferAndRecord oneCall) (moves crossing) = some last ∧
      (last.procs 0).program = .done ∧ (last.procs 1).program = .done ∧
      (∀ pid, (last.procs (pid + 2)).program = .done ∧
        (last.procs (pid + 2)).changed "c1" .recording = none) ∧
      (last.procs 0).changed "c1" .recording = none ∧
      (last.procs 1).changed "c1" .recording =
        some { call with recording := some ⟨true, 30, false⟩ } ∧
      last.shared "c1" = some { call with transfer := some ⟨.Initiator "c2" false⟩ } :=
    ⟨_, rfl, rfl, rfl, fun _ => ⟨rfl, rfl⟩, rfl, rfl, rfl⟩
  obtain ⟨last, ran, first, second, others, unchanged, changed, stored⟩ := ran
  have finished : Finished last := by
    intro pid
    match pid with
    | 0 => exact first
    | 1 => exact second
    | pid + 2 => exact (others pid).1
  obtain ⟨context, found, agrees⟩ := always _ _ last (run_of_runAll _ ran) finished 1 "c1"
    .recording _ changed (by
      intro other different
      match other with
      | 0 => exact unchanged
      | 1 => exact absurd rfl different
      | other + 2 => exact (others other).2)
  rw [stored] at found
  cases found
  revert agrees
  decide

end ContextUpdates
