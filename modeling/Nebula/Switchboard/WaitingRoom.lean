import Mathlib.Data.Finset.Basic
import Nebula.Switchboard.RoomRequests

/- The waiting room of a room, which the database finds under more than one identifier. Each
   request is handled by itself, one command to Redis at a time. -/
namespace WaitingRoom
open Interleaving
open RoomRequests (Jwt RoomModel MemberInfo Wss Rpc Request UserAuthClaim room_password_auth)

section Model

/-- What has become of the call ids. -/
inductive Event where
  | sent_to_wait (call_id : String)
  | joined (call_id : String)
  | rejected (call_id : String)
  | left (call_id : String)

/-- Sent to wait, and since neither joined nor rejected nor left; the last event comes first. -/
def Waits (call_id : String) : List Event → Prop
  | [] => False
  | .sent_to_wait other :: before => call_id = other ∨ Waits call_id before
  | .joined other :: before => call_id ≠ other ∧ Waits call_id before
  | .rejected other :: before => call_id ≠ other ∧ Waits call_id before
  | .left other :: before => call_id ≠ other ∧ Waits call_id before

/-- nebula:waiting_room:{room}:members, nebula:room:{room}:members,
    nebula:room:{room}:member:{call_id}, nebula:wss:{addr}, and the room of
    nebula:channel:{call_id}. The history is no part of the code. -/
structure Shared where
  waiting : String → Finset String
  members : String → Finset String
  info : String → String → Option MemberInfo
  wss : String → Wss
  room : String → Option String
  history : List Event

/-- The command that a request has come to. A join that goes on from the waiting room knows, in
    the model only, whether the call was there. -/
inductive Stage where
  | begun
  | wait_info (room call_id display_name : String)
  | wait_wss (room call_id : String)
  | wait (room call_id : String)
  | grant (room call_id display_name : String)
  | is_member (rejects : Bool) (room member : String)
  | get_member_info (rejects : Bool) (room member : String)
  | leave_waiting_room (claims : UserAuthClaim)
  | join (claims : UserAuthClaim) (waited : Bool)
  | join_wss (claims : UserAuthClaim)
  | join_channel (claims : UserAuthClaim)
  | leave (call_id : String)
  | leave_wss (call_id : String)
  | leave_waiting (room call_id : String)
  | leave_room (room call_id : String)
  | leave_members (room call_id : String)
  | done

structure Proc where
  rpc : Rpc
  stage : Stage

/-- A call to the database or another service may fail, and so does a join whose offer cannot be
    read. -/
inductive Choice where
  | succeeds
  | fails
  | is_authenticated (display_name : String) (status : Option Bool)

inductive Admission where
  | granted
  | waiting
  | refused

variable (jwt : Jwt) (get_room : String → Option RoomModel)

/-- What authenticate makes of what is_authenticated has found. -/
def admission (room_model : RoomModel) (room_password : Option String) (status : Option Bool) :
    Admission :=
  let admins := match status with
    | some true => Admission.granted
    | _ => .waiting
  let password_fits := room_password_auth room_model.password room_password
  if room_model.is_open then .granted
  else if room_model.force_password && room_model.force_waiting_room then
    if password_fits then admins else .refused
  else if room_model.force_password then
    if password_fits then .granted else .refused
  else if room_model.force_waiting_room then admins
  else match status with
    | some _ => .granted
    | none => .waiting

def authenticate (request : RoomRequests.AuthRequest) : Choice → Stage
  | .is_authenticated display_name status => match get_room request.room with
    | none => .done
    | some room_model => match admission room_model request.room_password status with
      | .granted => .grant room_model.uuid request.call_id display_name
      | .waiting => .wait_info room_model.uuid request.call_id display_name
      | .refused => .done
  | _ => .done

/-- allow_member and reject_member begin alike. -/
def authorize_member (rejects : Bool) (request : RoomRequests.AuthorizeMemberRequest) : Stage :=
  match jwt.verify request.auth_token with
  | some claims => if claims.is_admin then .is_member rejects claims.room request.member else .done
  | none => .done

/-- The user is looked up and the record of the call is written before the waiting room. -/
def join_room (request : RoomRequests.JoinRoomRequest) : Choice → Stage
  | .succeeds => match jwt.verify request.auth_token with
    | some claims => .leave_waiting_room claims
    | none => .done
  | _ => .done

def leave_room (wss : Wss) : Stage :=
  match wss.call_id with
  | some call_id => .leave call_id
  | none => .done

def begin (shared : Shared) (rpc : Rpc) (choice : Choice) : Stage :=
  match rpc.request with
  | .authenticate (some request) => authenticate get_room request choice
  | .allow_member (some request) => authorize_member jwt false request
  | .reject_member (some request) => authorize_member jwt true request
  | .join_room (some request) => join_room jwt request choice
  | .notification .leave_room => leave_room (shared.wss rpc.addr)
  | _ => .done

variable (shared : Shared)

def Shared.set_info (room call_id : String) (info : MemberInfo) : Shared :=
  { shared with
    info := Function.update shared.info room
      (Function.update (shared.info room) call_id (some info)) }

def Shared.set_wss (addr : String) (wss : Wss) : Shared :=
  { shared with wss := Function.update shared.wss addr wss }

def Shared.set_room (call_id room : String) : Shared :=
  { shared with room := Function.update shared.room call_id (some room) }

def Shared.wait (room call_id : String) : Shared :=
  { shared with
    waiting := Function.update shared.waiting room
      (insert call_id (shared.waiting room)) }

def Shared.stop_waiting (room call_id : String) : Shared :=
  { shared with
    waiting := Function.update shared.waiting room
      ((shared.waiting room).erase call_id) }

def Shared.join (room call_id : String) : Shared :=
  { shared with
    members := Function.update shared.members room
      (insert call_id (shared.members room)) }

def Shared.leave (room call_id : String) : Shared :=
  { shared with
    members := Function.update shared.members room
      ((shared.members room).erase call_id) }

def Shared.happened (event : Event) : Shared :=
  { shared with history := event :: shared.history }

/-- reject_member tells the member and the room, and changes nothing. -/
def step (choice : Choice) (proc : Proc) : Option (Shared × Proc) :=
  let addr := proc.rpc.addr
  let go shared stage := some (shared, { proc with stage })
  match proc.stage with
  | .begun => go shared (begin jwt get_room shared proc.rpc choice)
  | .wait_info room call_id name =>
    go (shared.set_info room call_id ⟨name, addr, proc.rpc.proxy_host⟩) (.wait_wss room call_id)
  | .wait_wss room call_id =>
    go (shared.set_wss addr ((shared.wss addr).hmset { waiting_room := some room, call_id }))
      (.wait room call_id)
  | .wait room call_id =>
    go ((shared.wait room call_id).happened (.sent_to_wait call_id)) .done
  | .grant room call_id name =>
    go (shared.set_info room call_id ⟨name, addr, proc.rpc.proxy_host⟩) .done
  | .is_member rejects room member =>
    go shared (if member ∈ shared.members room then .done
      else .get_member_info rejects room member)
  | .get_member_info rejects room member =>
    go (if rejects && (shared.info room member).isSome then shared.happened (.rejected member)
      else shared) .done
  | .leave_waiting_room claims =>
    go (shared.stop_waiting claims.room claims.call_id)
      (.join claims (claims.call_id ∈ shared.waiting claims.room))
  | .join claims _ => match choice with
    | .succeeds => go ((shared.join claims.room claims.call_id).happened (.joined claims.call_id))
        (.join_wss claims)
    | _ => go shared .done
  | .join_wss claims => match choice with
    | .succeeds => go (shared.set_wss addr
        ((shared.wss addr).hmset { room := some claims.room, call_id := claims.call_id }))
        (.join_channel claims)
    | _ => go shared .done
  | .join_channel claims => match choice with
    | .succeeds => go (shared.set_room claims.call_id claims.room) .done
    | _ => go shared .done
  | .leave call_id =>
    let room := (shared.room call_id).getD ""
    go shared (if room = "" then .leave_wss call_id else .leave_room room call_id)
  | .leave_wss call_id => match (shared.wss addr).waiting_room with
    | some room => go shared (.leave_waiting room call_id)
    | none => go shared .done
  | .leave_waiting room call_id =>
    go ((shared.stop_waiting room call_id).happened (.left call_id)) .done
  | .leave_room room call_id => match choice with
    | .succeeds => go (shared.happened (.left call_id))
        (if call_id ∈ shared.members room then .leave_members room call_id else .done)
    | _ => go shared .done
  | .leave_members room call_id => go (shared.leave room call_id) .done
  | .done => none

def requests : System Shared Proc Choice Empty where
  step := fun _ choice shared proc => step jwt get_room shared choice proc
  outside := nofun

def start (rpcs : Nat → Rpc) : World Shared Proc where
  shared :=
    ⟨fun _ => ∅, fun _ => ∅, fun _ _ => none, fun _ => ⟨none, none, none⟩, fun _ => none, []⟩
  procs := fun pid => ⟨rpcs pid, .begun⟩

end Model

section Claimed
variable (jwt : Jwt) (get_room : String → Option RoomModel) (room : RoomModel)

def Names (id : String) : Prop := get_room id = some room

/-- One of the five requests, for a room that the database resolves to the one. -/
def Concerns : Request → Prop
  | .authenticate (some request) => Names get_room room request.room
  | .allow_member (some request) | .reject_member (some request) =>
    ∀ claims ∈ jwt.verify request.auth_token, Names get_room room claims.room
  | .join_room (some request) =>
    ∀ claims ∈ jwt.verify request.auth_token, Names get_room room claims.room
  | .notification .leave_room => True
  | _ => False

/-- Has been taken out of the waiting room and is not yet a member. -/
def Joining (world : World Shared Proc) (call_id : String) : Prop :=
  ∃ pid claims waited, (world.procs pid).stage = .join claims waited ∧ claims.call_id = call_id

structure Right (world : World Shared Proc) : Prop where
  those_sent : ∀ call_id, ¬Joining world call_id →
    (call_id ∈ world.shared.waiting room.uuid ↔ Waits call_id world.shared.history)
  no_members : ∀ call_id ∈ world.shared.waiting room.uuid, ∀ id, Names get_room room id →
    call_id ∉ world.shared.members id

/-- No member is sent to wait, nor one who is joining; one who waits is not rejected, joins under
    the identifier of the database and is not kept out then, and does not leave a room that it has
    joined before. -/
def Orderly : Guard Shared Proc Choice Empty := fun world action =>
  match action with
  | .proc pid choice =>
    match (world.procs pid).stage with
    | .wait _ call_id =>
      (∀ id, call_id ∉ world.shared.members id) ∧ ¬Joining world call_id
    | .leave_waiting_room claims =>
      claims.room = room.uuid ∨ claims.call_id ∉ world.shared.waiting room.uuid
    | .join _ waited => choice = .succeeds ∨ waited = false
    | .get_member_info rejects id member =>
      rejects ∧ (world.shared.info id member).isSome →
        member ∉ world.shared.waiting room.uuid
    | .leave_room _ call_id =>
      choice = .succeeds → call_id ∉ world.shared.waiting room.uuid
    | _ => True
  | _ => True

end Claimed

section Invariant
variable {jwt : Jwt} {get_room : String → Option RoomModel} {room : RoomModel}
  {world : World Shared Proc} {pid : Nat} {shared : Shared} {proc : Proc} {call_id : String}

/-- What a request knows of the waiting room where it stands. -/
def Stage.known (uuid : String) (waiting : Finset String) : Stage → Prop
  | .wait_info id _ _ | .wait_wss id _ | .wait id _ | .leave_waiting id _ => id = uuid
  | .join claims _ => claims.call_id ∉ waiting
  | _ => True

/-- A join that has yet to add a call which it has found waiting. -/
def adds (proc : Proc) (call_id : String) : Prop :=
  ∃ claims, proc.stage = .join claims true ∧ claims.call_id = call_id

structure Kept (jwt : Jwt) (get_room : String → Option RoomModel) (room : RoomModel)
    (world : World Shared Proc) : Prop where
  concerns : ∀ pid, Concerns jwt get_room room (world.procs pid).rpc.request
  known : ∀ pid, (world.procs pid).stage.known room.uuid (world.shared.waiting room.uuid)
  sent : ∀ call_id ∈ world.shared.waiting room.uuid, Waits call_id world.shared.history
  here : ∀ call_id, Waits call_id world.shared.history →
    call_id ∈ world.shared.waiting room.uuid ∨ Pending adds world call_id
  apart : ∀ call_id ∈ world.shared.waiting room.uuid, ∀ id, call_id ∉ world.shared.members id
  nowhere : ∀ id, id ≠ room.uuid → world.shared.waiting id = ∅
  wss : ∀ addr, ∀ id ∈ (world.shared.wss addr).waiting_room, id = room.uuid

theorem Kept.right (kept : Kept jwt get_room room world) : Right get_room room world where
  those_sent := by
    intro call_id settled
    constructor
    · exact kept.sent call_id
    · intro waits
      rcases kept.here call_id waits with waiting | ⟨pid, claims, joining, own⟩
      · exact waiting
      · exact absurd ⟨pid, claims, true, joining, own⟩ settled
  no_members := fun call_id waiting id _ => kept.apart call_id waiting id

theorem start_kept {rpcs : Nat → Rpc}
    (concerns : ∀ pid, Concerns jwt get_room room (rpcs pid).request) :
    Kept jwt get_room room (start rpcs) where
  concerns := concerns
  known := fun _ => trivial
  sent := fun _ waiting => absurd waiting (Finset.notMem_empty _)
  here := fun _ waits => waits.elim
  apart := fun _ waiting => absurd waiting (Finset.notMem_empty _)
  nowhere := fun _ _ => rfl
  wss := fun _ _ found => nomatch found

theorem known_fewer {uuid : String} {waiting fewer : Finset String} {stage : Stage}
    (known : stage.known uuid waiting) (subset : fewer ⊆ waiting) : stage.known uuid fewer := by
  cases stage with
  | join claims waited => exact fun found => known (subset found)
  | _ => exact known

variable {stage : Stage}

theorem concerns_moved (kept : Kept jwt get_room room world) (shared : Shared) (other : Nat) :
    Concerns jwt get_room room
      ((world.moved pid shared { world.procs pid with stage }).procs other).rpc.request := by
  by_cases own : other = pid
  · subst own
    rw [moved_same]
    exact kept.concerns other
  · rw [moved_other _ _ _ own]
    exact kept.concerns other

theorem known_moved (kept : Kept jwt get_room room world)
    (fewer : shared.waiting room.uuid ⊆ world.shared.waiting room.uuid)
    (known : stage.known room.uuid (shared.waiting room.uuid)) (other : Nat) :
    ((world.moved pid shared { world.procs pid with stage }).procs other).stage.known room.uuid
      (shared.waiting room.uuid) := by
  by_cases own : other = pid
  · subst own
    rw [moved_same]
    exact known
  · rw [moved_other _ _ _ own]
    exact known_fewer (kept.known other) fewer

theorem adds_moved (pending : Pending adds world call_id)
    (other : ¬adds (world.procs pid) call_id) :
    Pending adds (world.moved pid shared proc) call_id :=
  (pending_cases pid shared proc pending).resolve_left other

/-- A step that neither sends to wait nor ends a wait. -/
theorem kept_aside (kept : Kept jwt get_room room world)
    (waiting : shared.waiting = world.shared.waiting)
    (history : shared.history = world.shared.history)
    (members : ∀ id, shared.members id ⊆ world.shared.members id)
    (wss : ∀ addr, ∀ id ∈ (shared.wss addr).waiting_room, id = room.uuid)
    (adding : ∀ call_id, ¬adds (world.procs pid) call_id)
    (known : stage.known room.uuid (world.shared.waiting room.uuid)) :
    Kept jwt get_room room (world.moved pid shared { world.procs pid with stage }) where
  concerns := concerns_moved kept shared
  known := by
    rw [← waiting] at known
    have fewer : shared.waiting room.uuid ⊆ world.shared.waiting room.uuid := by
      rw [waiting]
    exact known_moved kept fewer known
  sent := by
    rw [moved_shared, waiting, history]
    exact kept.sent
  here := by
    rw [moved_shared, waiting, history]
    exact fun call_id waits => (kept.here call_id waits).imp_right fun pending =>
      adds_moved pending (adding call_id)
  apart := by
    rw [moved_shared, waiting]
    exact fun call_id found id among => kept.apart call_id found id (members id among)
  nowhere := by
    rw [moved_shared, waiting]
    exact kept.nowhere
  wss := wss

/-- A step that only goes on. -/
theorem kept_still (kept : Kept jwt get_room room world)
    (adding : ∀ call_id, ¬adds (world.procs pid) call_id)
    (known : stage.known room.uuid (world.shared.waiting room.uuid)) :
    Kept jwt get_room room (world.moved pid world.shared { world.procs pid with stage }) :=
  kept_aside kept rfl rfl (fun _ => Finset.Subset.refl _) kept.wss adding known

/-- A step that ends the wait of a call, which no one else adds. -/
theorem kept_ended (kept : Kept jwt get_room room world) {event : Event} {gone : String}
    (ends : ∀ call_id before, Waits call_id (event :: before) ↔
      call_id ≠ gone ∧ Waits call_id before)
    (waiting : shared.waiting = (world.shared.stop_waiting room.uuid gone).waiting)
    (history : shared.history = event :: world.shared.history)
    (members : ∀ id, shared.members id ⊆ insert gone (world.shared.members id))
    (wss : shared.wss = world.shared.wss)
    (adding : ∀ call_id, call_id ≠ gone → ¬adds (world.procs pid) call_id)
    (known : ∀ waiting, stage.known room.uuid waiting) :
    Kept jwt get_room room (world.moved pid shared { world.procs pid with stage }) := by
  have own : shared.waiting room.uuid = (world.shared.waiting room.uuid).erase gone := by
    rw [waiting]
    exact Function.update_self _ _ _
  have fewer : shared.waiting room.uuid ⊆ world.shared.waiting room.uuid := by
    rw [own]
    exact Finset.erase_subset _ _
  refine ⟨concerns_moved kept shared, known_moved kept fewer (known _), ?_, ?_, ?_, ?_, ?_⟩
  · intro call_id found
    rw [moved_shared, own] at found
    obtain ⟨other, found⟩ := Finset.mem_erase.mp found
    rw [moved_shared, history]
    exact (ends _ _).mpr ⟨other, kept.sent call_id found⟩
  · intro call_id waits
    rw [moved_shared, history] at waits
    obtain ⟨other, waits⟩ := (ends _ _).mp waits
    rcases kept.here call_id waits with found | pending
    · left
      rw [moved_shared, own]
      exact Finset.mem_erase.mpr ⟨other, found⟩
    · exact Or.inr (adds_moved pending (adding call_id other))
  · intro call_id found id among
    rw [moved_shared, own] at found
    obtain ⟨other, found⟩ := Finset.mem_erase.mp found
    rcases Finset.mem_insert.mp (members id among) with same | among
    · exact other same
    · exact kept.apart call_id found id among
  · intro id other
    rw [moved_shared, waiting]
    exact (Function.update_of_ne other _ _).trans (kept.nowhere id other)
  · rw [moved_shared, wss]
    exact kept.wss

theorem stop_absent {id : String} (absent : call_id ∉ shared.waiting id) :
    (shared.stop_waiting id call_id).waiting = shared.waiting := by
  rw [Shared.stop_waiting, Finset.erase_eq_of_notMem absent]
  exact Function.update_eq_self _ _

/-- One who is neither a member nor joining is sent to wait. -/
theorem kept_sent (kept : Kept jwt get_room room world)
    (before : (world.procs pid).stage = .wait room.uuid call_id)
    (stranger : ∀ id, call_id ∉ world.shared.members id) (settled : ¬Joining world call_id) :
    Kept jwt get_room room (world.moved pid
      ((world.shared.wait room.uuid call_id).happened (.sent_to_wait call_id))
      { world.procs pid with stage := .done }) := by
  have own : (world.shared.wait room.uuid call_id).waiting room.uuid =
      insert call_id (world.shared.waiting room.uuid) := Function.update_self _ _ _
  refine ⟨concerns_moved kept _, fun other => ?_, ?_, ?_, ?_, ?_, kept.wss⟩
  · by_cases same : other = pid
    · subst same
      rw [moved_same]
      trivial
    · rw [moved_other _ _ _ same]
      have known := kept.known other
      cases stage : (world.procs other).stage with
      | join claims waited =>
        rw [stage] at known
        intro found
        rw [moved_shared] at found
        rcases Finset.mem_insert.mp (own ▸ found) with rfl | earlier
        · exact settled ⟨other, claims, waited, stage, rfl⟩
        · exact known earlier
      | _ =>
        rw [stage] at known
        exact known
  · intro other found
    rcases Finset.mem_insert.mp (own ▸ found) with same | earlier
    · exact Or.inl same
    · exact Or.inr (kept.sent other earlier)
  · intro other waits
    rcases waits with same | waits
    · left
      exact own ▸ Finset.mem_insert.mpr (Or.inl same)
    · rcases kept.here other waits with earlier | pending
      · left
        exact own ▸ Finset.mem_insert_of_mem earlier
      · right
        apply adds_moved pending
        rintro ⟨claims, joining, _⟩
        rw [before] at joining
        cases joining
  · intro other found id
    rcases Finset.mem_insert.mp (own ▸ found) with same | earlier
    · rw [same]
      exact stranger id
    · exact kept.apart other earlier id
  · intro id other
    exact (Function.update_of_ne other _ _).trans (kept.nowhere id other)

/-- A call that was found waiting is no longer there, and will be added. -/
theorem kept_cleared (kept : Kept jwt get_room room world) {claims : UserAuthClaim}
    (before : (world.procs pid).stage = .leave_waiting_room claims)
    (named : claims.room = room.uuid) :
    Kept jwt get_room room (world.moved pid
      (world.shared.stop_waiting claims.room claims.call_id)
      { world.procs pid with stage := .join claims true }) := by
  have own : (world.shared.stop_waiting claims.room claims.call_id).waiting room.uuid =
      (world.shared.waiting room.uuid).erase claims.call_id := by
    rw [named]
    exact Function.update_self _ _ _
  have fewer : (world.shared.stop_waiting claims.room claims.call_id).waiting room.uuid ⊆
      world.shared.waiting room.uuid := by
    rw [own]
    exact Finset.erase_subset _ _
  have known : (Stage.join claims true).known room.uuid
      ((world.shared.stop_waiting claims.room claims.call_id).waiting room.uuid) := by
    rw [own]
    exact Finset.notMem_erase _ _
  refine ⟨concerns_moved kept _, known_moved kept fewer known, ?_, ?_, ?_, ?_, kept.wss⟩
  · exact fun other waiting => kept.sent other (fewer waiting)
  · intro other waits
    by_cases same : other = claims.call_id
    · exact Or.inr (pending_moved ⟨claims, rfl, same.symm⟩)
    · rcases kept.here other waits with waiting | pending
      · left
        exact own ▸ Finset.mem_erase.mpr ⟨same, waiting⟩
      · right
        apply adds_moved pending
        rintro ⟨claims, joining, _⟩
        rw [before] at joining
        cases joining
  · exact fun other waiting => kept.apart other (fewer waiting)
  · intro id other
    rw [named]
    exact (Function.update_of_ne other _ _).trans (kept.nowhere id other)

theorem not_adding {stage : Stage} (before : (world.procs pid).stage = stage)
    (other : ∀ claims, stage ≠ .join claims true) (call_id : String) :
    ¬adds (world.procs pid) call_id := by
  rintro ⟨claims, joining, _⟩
  exact other claims (before.symm.trans joining)

theorem names_known {id : String} {room_model : RoomModel} (names : Names get_room room id)
    (found : get_room id = some room_model) : room_model.uuid = room.uuid := by
  rw [Option.some.inj (found.symm.trans names)]

theorem authenticate_known {request : RoomRequests.AuthRequest} {waiting : Finset String}
    (names : Names get_room room request.room) (choice : Choice) :
    (authenticate get_room request choice).known room.uuid waiting := by
  unfold authenticate
  split
  · split
    · trivial
    · rename_i room_model found
      split
      · trivial
      · exact names_known names found
      · trivial
  · trivial

theorem authorize_member_known {uuid : String} {waiting : Finset String} (rejects : Bool)
    (request : RoomRequests.AuthorizeMemberRequest) :
    (authorize_member jwt rejects request).known uuid waiting := by
  unfold authorize_member
  split
  · split <;> trivial
  · trivial

theorem join_room_known {uuid : String} {waiting : Finset String}
    (request : RoomRequests.JoinRoomRequest) (choice : Choice) :
    (join_room jwt request choice).known uuid waiting := by
  unfold join_room
  split
  · split <;> trivial
  · trivial

theorem begin_known {rpc : Rpc} {waiting : Finset String}
    (concerns : Concerns jwt get_room room rpc.request) (choice : Choice) :
    (begin jwt get_room shared rpc choice).known room.uuid waiting := by
  unfold begin
  split
  · rename_i request isRequest
    rw [isRequest] at concerns
    exact authenticate_known concerns choice
  · exact authorize_member_known false _
  · exact authorize_member_known true _
  · exact join_room_known _ choice
  · unfold leave_room
    split <;> trivial
  · trivial

theorem set_wss_same {addr : String} {wss : Wss} : (shared.set_wss addr wss).wss addr = wss :=
  Function.update_self _ _ _

theorem set_wss_other {addr other : String} {wss : Wss} (apart : other ≠ addr) :
    (shared.set_wss addr wss).wss other = shared.wss other := Function.update_of_ne apart _ _

theorem wss_hmset (kept : Kept jwt get_room room world) {addr : String}
    {fields : RoomRequests.WssFields} (own : ∀ id ∈ fields.waiting_room, id = room.uuid) :
    ∀ other, ∀ id ∈ ((world.shared.set_wss addr
      ((world.shared.wss addr).hmset fields)).wss other).waiting_room, id = room.uuid := by
  intro other id found
  by_cases same : other = addr
  · subst same
    rw [set_wss_same] at found
    cases given : fields.waiting_room with
    | none =>
      rw [RoomRequests.Wss.hmset, given] at found
      exact kept.wss other id found
    | some room =>
      rw [RoomRequests.Wss.hmset, given] at found
      exact own id (given.trans found)
  · rw [set_wss_other same] at found
    exact kept.wss other id found

/-- A call that does not wait is rejected, joins or leaves. -/
theorem kept_gone (kept : Kept jwt get_room room world) {event : Event} {gone : String}
    (ends : ∀ call_id before, Waits call_id (event :: before) ↔
      call_id ≠ gone ∧ Waits call_id before)
    (absent : gone ∉ world.shared.waiting room.uuid)
    (adding : ∀ call_id, call_id ≠ gone → ¬adds (world.procs pid) call_id)
    (known : ∀ waiting, stage.known room.uuid waiting) :
    Kept jwt get_room room (world.moved pid (world.shared.happened event)
      { world.procs pid with stage }) :=
  kept_ended kept ends (stop_absent absent).symm rfl (fun _ => Finset.subset_insert _ _) rfl
    adding known

theorem get_member_info_kept (kept : Kept jwt get_room room world) {rejects : Bool}
    {id member : String} (before : (world.procs pid).stage = .get_member_info rejects id member)
    (orderly : rejects ∧ (world.shared.info id member).isSome →
      member ∉ world.shared.waiting room.uuid) :
    Kept jwt get_room room (world.moved pid
      (if rejects && (world.shared.info id member).isSome then
        world.shared.happened (.rejected member) else world.shared)
      { world.procs pid with stage := .done }) := by
  by_cases rejected : rejects && (world.shared.info id member).isSome
  · rw [if_pos rejected]
    exact kept_gone kept (fun _ _ => Iff.rfl) (orderly (Bool.and_eq_true_iff.mp rejected))
      (fun other _ => not_adding before nofun other) fun _ => trivial
  · rw [if_neg rejected]
    exact kept_still kept (not_adding before nofun) trivial

/-- A join takes its call out of the waiting room of the database's identifier, or finds it in
    none. -/
theorem leave_waiting_room_kept (kept : Kept jwt get_room room world) {claims : UserAuthClaim}
    (before : (world.procs pid).stage = .leave_waiting_room claims)
    (orderly : claims.room = room.uuid ∨ claims.call_id ∉ world.shared.waiting room.uuid) :
    Kept jwt get_room room (world.moved pid
      (world.shared.stop_waiting claims.room claims.call_id)
      { world.procs pid with
        stage := .join claims (claims.call_id ∈ world.shared.waiting claims.room) }) := by
  by_cases found : claims.call_id ∈ world.shared.waiting room.uuid
  · have named := orderly.resolve_right (not_not_intro found)
    rw [decide_eq_true (named.symm ▸ found)]
    exact kept_cleared kept before named
  · have absent : claims.call_id ∉ world.shared.waiting claims.room := by
      by_cases named : claims.room = room.uuid
      · rw [named]
        exact found
      · rw [kept.nowhere claims.room named]
        exact Finset.notMem_empty _
    exact kept_aside kept (stop_absent absent) rfl (fun _ => Finset.Subset.refl _) kept.wss
      (not_adding before nofun) found

theorem join_kept (kept : Kept jwt get_room room world) {claims : UserAuthClaim} {waited : Bool}
    (before : (world.procs pid).stage = .join claims waited)
    (absent : claims.call_id ∉ world.shared.waiting room.uuid) :
    Kept jwt get_room room (world.moved pid
      ((world.shared.join claims.room claims.call_id).happened (.joined claims.call_id))
      { world.procs pid with stage := .join_wss claims }) := by
  refine kept_ended kept (fun _ _ => Iff.rfl) (stop_absent absent).symm rfl (fun id => ?_) rfl
    (fun other apart => ?_) fun _ => trivial
  · by_cases same : id = claims.room
    · subst same
      exact (Function.update_self _ _ _).subset
    · exact (Function.update_of_ne same _ _).subset.trans (Finset.subset_insert _ _)
  · rintro ⟨own, joining, same⟩
    rw [before] at joining
    cases joining
    exact apart same.symm

theorem leave_members_kept (kept : Kept jwt get_room room world) {id : String}
    (before : (world.procs pid).stage = .leave_members id call_id) :
    Kept jwt get_room room (world.moved pid (world.shared.leave id call_id)
      { world.procs pid with stage := .done }) := by
  refine kept_aside kept rfl rfl (fun other => ?_) kept.wss (not_adding before nofun) trivial
  by_cases same : other = id
  · subst same
    exact (Function.update_self _ _ _).subset.trans (Finset.erase_subset _ _)
  · exact (Function.update_of_ne same _ _).subset

theorem step_kept (kept : Kept jwt get_room room world) {choice : Choice}
    (orderly : Orderly room world (.proc pid choice))
    (stepped : step jwt get_room world.shared choice (world.procs pid) = some (shared, proc)) :
    Kept jwt get_room room (world.moved pid shared proc) := by
  have known := kept.known pid
  simp only [Orderly] at orderly
  unfold step at stepped
  cases stage : (world.procs pid).stage with
  | begun =>
    rw [stage] at stepped
    cases stepped
    exact kept_still kept (not_adding stage nofun) (begin_known (kept.concerns pid) choice)
  | wait_info id call_id name =>
    rw [stage] at stepped known
    cases stepped
    exact kept_aside kept rfl rfl (fun _ => Finset.Subset.refl _) kept.wss
      (not_adding stage nofun) known
  | wait_wss id call_id =>
    rw [stage] at stepped known
    cases stepped
    refine kept_aside kept rfl rfl (fun _ => Finset.Subset.refl _) (wss_hmset kept ?_)
      (not_adding stage nofun) known
    rintro other ⟨⟩
    exact known
  | wait id call_id =>
    rw [stage] at stepped known orderly
    cases stepped
    obtain rfl : id = room.uuid := known
    exact kept_sent kept stage orderly.1 orderly.2
  | grant id call_id name =>
    rw [stage] at stepped
    cases stepped
    exact kept_aside kept rfl rfl (fun _ => Finset.Subset.refl _) kept.wss
      (not_adding stage nofun) trivial
  | is_member rejects id member =>
    rw [stage] at stepped
    cases stepped
    refine kept_still kept (not_adding stage nofun) ?_
    split <;> trivial
  | get_member_info rejects id member =>
    rw [stage] at stepped orderly
    cases stepped
    exact get_member_info_kept kept stage orderly
  | leave_waiting_room claims =>
    rw [stage] at stepped orderly
    cases stepped
    exact leave_waiting_room_kept kept stage orderly
  | join claims waited =>
    rw [stage] at stepped known orderly
    cases choice with
    | succeeds =>
      cases stepped
      exact join_kept kept stage known
    | fails | is_authenticated =>
      cases stepped
      have found : waited = false := orderly.resolve_left nofun
      refine kept_still kept (not_adding stage fun claims same => ?_) trivial
      rw [found] at same
      cases same
  | join_wss claims =>
    rw [stage] at stepped
    cases choice with
    | succeeds =>
      cases stepped
      exact kept_aside kept rfl rfl (fun _ => Finset.Subset.refl _) (wss_hmset kept nofun)
        (not_adding stage nofun) trivial
    | fails | is_authenticated =>
      cases stepped
      exact kept_still kept (not_adding stage nofun) trivial
  | join_channel claims =>
    rw [stage] at stepped
    cases choice with
    | succeeds =>
      cases stepped
      exact kept_aside kept rfl rfl (fun _ => Finset.Subset.refl _) kept.wss
        (not_adding stage nofun) trivial
    | fails | is_authenticated =>
      cases stepped
      exact kept_still kept (not_adding stage nofun) trivial
  | leave call_id =>
    rw [stage] at stepped
    cases stepped
    refine kept_still kept (not_adding stage nofun) ?_
    split <;> trivial
  | leave_wss call_id =>
    rw [stage] at stepped
    dsimp only at stepped
    split at stepped <;> cases stepped
    · rename_i id found
      exact kept_still kept (not_adding stage nofun) (kept.wss _ id found)
    · exact kept_still kept (not_adding stage nofun) trivial
  | leave_waiting id call_id =>
    rw [stage] at stepped known
    cases stepped
    obtain rfl : id = room.uuid := known
    exact kept_ended kept (fun _ _ => Iff.rfl) rfl rfl (fun _ => Finset.subset_insert _ _) rfl
      (fun other _ => not_adding stage nofun other) fun _ => trivial
  | leave_room id call_id =>
    rw [stage] at stepped orderly
    cases choice with
    | succeeds =>
      cases stepped
      refine kept_gone kept (fun _ _ => Iff.rfl) (orderly rfl)
        (fun other _ => not_adding stage nofun other) fun _ => ?_
      split <;> trivial
    | fails | is_authenticated =>
      cases stepped
      exact kept_still kept (not_adding stage nofun) trivial
  | leave_members id call_id =>
    rw [stage] at stepped
    cases stepped
    exact leave_members_kept kept stage
  | done =>
    rw [stage] at stepped
    cases stepped

end Invariant

section Runs

/-- The waiting room is right where the requests are orderly. -/
theorem waiting_right (jwt : Jwt) (get_room : String → Option RoomModel) (room : RoomModel)
    (rpcs : Nat → Rpc) (concerns : ∀ pid, Concerns jwt get_room room (rpcs pid).request)
    (world : World Shared Proc)
    (run : Run (requests jwt get_room) (Orderly room) (start rpcs) world) :
    Right get_room room world := by
  have kept : Kept jwt get_room room world := by
    refine run_keeps (Kept jwt get_room room) (start_kept concerns)
      (fun before action after kept orderly acted => ?_) run
    rcases act_cases acted with ⟨pid, choice, shared, proc, rfl, stepped, rfl⟩ | ⟨event, _⟩
    · exact step_kept kept orderly stepped
    · cases event
  exact kept.right

/-- A room that is found by its identifier in either case. -/
def lobby : RoomModel := ⟨"e7", "tenant", false, false, true, none⟩

def find (id : String) : Option RoomModel :=
  if id = "e7" ∨ id = "E7" then some lobby else none

def claims (call_id : String) (is_admin : Bool) : UserAuthClaim :=
  ⟨"e7", "tenant", call_id, none, "", is_admin⟩

/-- A token is the call id that it is for. -/
def ownToken : Jwt where
  sign := fun claims => if claims.room = "e7" then some claims.call_id else none
  verify := fun token => some (claims token (token = "host"))

/-- The guest asks to come in, the host rejects the guest, and the guest joins. -/
def visit (pid : Nat) : Rpc where
  proxy_host := "proxy"
  addr := if pid = 1 then "host" else "guest"
  request := match pid with
    | 0 => .authenticate (some ⟨"E7", "guest", none, none, none, none, none, none⟩)
    | 1 => .reject_member (some ⟨"guest", "host"⟩)
    | 2 => .join_room (some ⟨"", "guest", none, none⟩)
    | _ => .notification .leave_room

theorem visit_concerns (pid : Nat) : Concerns ownToken find lobby (visit pid).request := by
  rcases pid with _ | _ | _ | pid
  · rfl
  · rintro _ ⟨⟩
    rfl
  · rintro _ ⟨⟩
    rfl
  · trivial

def moves (count pid : Nat) : List (Action Choice Empty) :=
  List.replicate count (.proc pid .succeeds)

def asked : List (Action Choice Empty) :=
  .proc 0 (.is_authenticated "Guest" none) :: moves 2 0

/-- Only the first three requests move, and none of them is a join on its way. -/
theorem settled_of_ran {actions : List (Action Choice Empty)} {world : World Shared Proc}
    (ran : runAll (requests ownToken find) (start visit) actions = some world)
    (three : ∀ action ∈ actions, ∀ pid choice, action = .proc pid choice → pid < 3)
    (done : ∀ pid, pid < 3 → ∀ claims waited, (world.procs pid).stage ≠ .join claims waited)
    (call_id : String) : ¬Joining world call_id := by
  rintro ⟨pid, claims, waited, joining, _⟩
  by_cases moves : pid < 3
  · exact done pid moves claims waited joining
  · have still : world.procs pid = (start visit).procs pid :=
      runAll_still actions
        (fun action listed choice same => moves (three action listed pid choice same)) ran
    rw [still] at joining
    cases joining

def direct (world : World Shared Proc) : Action Choice Empty → Bool
  | .proc pid choice => match (world.procs pid).stage, choice with
    | .wait _ _, _ | .get_member_info _ _ _, _ | .leave_room _ _, _ => false
    | .leave_waiting_room claims, _ => claims.room = "e7"
    | .join _ _, .succeeds => true
    | .join _ _, _ => false
    | _, _ => true
  | .outside _ => true

theorem direct_orderly (world : World Shared Proc) (action : Action Choice Empty)
    (passed : direct world action = true) : Orderly lobby world action := by
  cases action with
  | outside event => cases event
  | proc pid choice =>
    simp only [direct] at passed
    simp only [Orderly]
    cases stage : (world.procs pid).stage with
    | wait id call_id | get_member_info rejects id member | leave_room id call_id =>
      rw [stage] at passed
      cases passed
    | leave_waiting_room claims =>
      rw [stage] at passed
      exact Or.inl (of_decide_eq_true passed)
    | join claims waited =>
      rw [stage] at passed
      cases choice with
      | succeeds => exact Or.inl rfl
      | fails | is_authenticated =>
        cases passed
    | _ => trivial

/-- The guest waits and joins. -/
theorem waiting_right_guest : ∃ world : World Shared Proc, Right find lobby world ∧
    world.shared.history = [.joined "guest", .sent_to_wait "guest"] ∧
    "guest" ∈ world.shared.members "e7" := by
  have came : ∃ world, runWhere (requests ownToken find) direct (start visit) asked = some world ∧
      (world.procs 0).stage = .wait "e7" "guest" ∧ world.shared.members = (fun _ => ∅) ∧
      (∀ pid, pid < 3 → ∀ claims waited, (world.procs pid).stage ≠ .join claims waited) ∧
      ∃ sent, act (requests ownToken find) world (.proc 0 .succeeds) = some sent ∧
        ∃ last, runWhere (requests ownToken find) direct sent (moves 5 2) = some last ∧
          last.shared.history = [.joined "guest", .sent_to_wait "guest"] ∧
          "guest" ∈ last.shared.members "e7" := by
    refine ⟨_, rfl, rfl, rfl, ?_, _, rfl, _, rfl, rfl, Finset.mem_insert_self _ _⟩
    rintro pid near claims waited
    rcases pid with _ | _ | _ | pid
    · nofun
    · nofun
    · nofun
    · omega
  obtain ⟨world, ran, waits, members, settled, sent, acted, last, ended, history, member⟩ := came
  have before := run_of_runWhere direct_orderly asked ran
  have nobody := settled_of_ran (runAll_of_runWhere asked ran) (by simp [asked, moves]) settled
  have orderly : Orderly lobby world (.proc 0 .succeeds) := by
    simp only [Orderly, waits, members]
    exact ⟨fun _ => Finset.notMem_empty _, nobody "guest"⟩
  have run := run_trans (Run.next before orderly acted)
    (run_of_runWhere direct_orderly (moves 5 2) ended)
  exact ⟨last, waiting_right ownToken find lobby visit visit_concerns last run, history, member⟩

/-- The guest is rejected and still waits. -/
theorem rejected_still_waits : ¬∀ (jwt : Jwt) (get_room : String → Option RoomModel)
    (room : RoomModel) (rpcs : Nat → Rpc) (world : World Shared Proc),
    (∀ pid, Concerns jwt get_room room (rpcs pid).request) →
      Run (requests jwt get_room) (fun _ _ => True) (start rpcs) world →
        Right get_room room world := by
  intro always
  have came : ∃ world, runAll (requests ownToken find) (start visit)
        (asked ++ moves 1 0 ++ moves 3 1) = some world ∧
      world.shared.history = [.rejected "guest", .sent_to_wait "guest"] ∧
      "guest" ∈ world.shared.waiting "e7" ∧
      ∀ pid, pid < 3 → ∀ claims waited, (world.procs pid).stage ≠ .join claims waited := by
    refine ⟨_, rfl, rfl, Finset.mem_insert_self _ _, ?_⟩
    rintro pid near claims waited
    rcases pid with _ | _ | _ | pid
    · nofun
    · nofun
    · nofun
    · omega
  obtain ⟨world, ran, history, waiting, settled⟩ := came
  have nobody := settled_of_ran ran (by simp [asked, moves]) settled
  have right := always ownToken find lobby visit world visit_concerns (run_of_runAll _ ran)
  have waits := (right.those_sent "guest" (nobody "guest")).mp waiting
  rw [history] at waits
  exact waits.1 rfl

end Runs

end WaitingRoom
