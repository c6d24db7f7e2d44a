import Nebula.Switchboard.RoomRights

/- Who may act as the admin of a room. Rights are looked up by the call id that the
   record of a connection names; where no request takes a call id that has the rights of
   another connection, an admin-only request is only accepted on a connection that has
   joined its room as an admin or made the room itself. -/
namespace RoomAuthority
open Interleaving RoomRequests RoomRights

/-- The request is one of the connection, and has registered it as the user's. -/
def Registered (world : World Shared Proc) (addr uuid : String) : Prop :=
  ∃ pid credentials user, (world.procs pid).rpc.addr = addr ∧
    (world.procs pid).rpc.request = .register_room_api (some credentials) ∧
    LoggedIn (world.procs pid).heard credentials user ∧ user.uuid = uuid

/-- A request of the connection has joined the room as an admin, or made it. -/
def Entitled (jwt : Jwt) (world : World Shared Proc) (addr room : String) : Prop :=
  ∃ pid, (world.procs pid).rpc.addr = addr ∧ room ∈ (world.procs pid).joined ∧
    Shows jwt (Registered world addr) (world.procs pid).rpc.request (world.procs pid).heard room

def accepted (proc : Proc) : Prop :=
  ∃ reply, proc.place = .doing (.reply (.ok reply))

/-- An admin-only request is accepted for a room only if the connection is entitled to it. -/
def Authorised (jwt : Jwt) (world : World Shared Proc) : Prop :=
  ∀ pid, (world.procs pid).rpc.request.admin_only = true →
    (accepted (world.procs pid) → ∃ room, room ∈ (world.procs pid).admitted) ∧
    ∀ room ∈ (world.procs pid).admitted, Entitled jwt world (world.procs pid).rpc.addr room

def Admin (shared : Shared) (call_id : String) : Prop :=
  (shared.channels call_id).room_admin = some "yes"

/-- If the channel has the rights of an admin, they are the connection's. -/
def Own (shared : Shared) (addr call_id : String) : Prop :=
  Admin shared call_id → (shared.channels call_id).api_addr = some addr

/-- A connection names no channel with another's rights, takes its own rights to no other
    room, and gives rights to no channel that another connection names; a call is converted
    by its registered user; and a look-up that finds rights has read one state. -/
def Proven (shared : Shared) (proc : Proc) : Prop :=
  match proc.place with
  | .doing (.hmset_wss fields _) => Own shared proc.rpc.addr fields.call_id
  | .doing (.set_api_remote_addr call_id _) => Own shared proc.rpc.addr call_id
  | .doing (.hmset_channel call_id fields _) =>
    (fields.room_admin = none → Own shared proc.rpc.addr call_id ∧
      (Admin shared call_id → (shared.channels call_id).room = some fields.room)) ∧
    (fields.room_admin = some "yes" →
      (∀ other, other ≠ proc.rpc.addr → (shared.wss other).call_id ≠ some call_id) ∧
      ∀ request, proc.rpc.request = .convert_to_room (some request) → ∀ user self other,
        (⟨.convert_to_room request.call_id, (.ok (user, self, other) :
          Except String (User × String × String))⟩ : Sigma Answer) ∈ proc.heard →
            shared.register_room_api proc.rpc.addr = some user.uuid)
  | .looking_admin call_id room _ => Admin shared call_id →
      (shared.wss proc.rpc.addr).call_id = some call_id ∧
        (shared.channels call_id).room = some room
  | _ => True

def Guarded : Guard Shared Proc Choice Event :=
  fun world action => ∀ pid choice, action = .proc pid choice →
    Proven world.shared (world.procs pid)

/-- The request has gone on: it keeps what it has heard and done. -/
structure Later (before after : Proc) : Prop where
  rpc : after.rpc = before.rpc
  heard : before.heard ⊆ after.heard
  joined : before.joined ⊆ after.joined

theorem later_refl (proc : Proc) : Later proc proc :=
  ⟨rfl, List.Subset.refl _, List.Subset.refl _⟩

section
variable {jwt : Jwt} {choice : Choice} {shared after : Shared} {proc moved : Proc}

/-- What a step does to its request. -/
structure Moves (shared : Shared) (proc moved : Proc) : Prop where
  later : Later proc moved
  sound : ∀ jwt, Sound jwt proc.rpc.request proc.heard proc.place.op →
    Sound jwt proc.rpc.request moved.heard moved.place.op
  gated : Gated proc.place.op → (∃ room, room ∈ moved.admitted) ∨ Gated moved.place.op
  joined : ∀ room ∈ moved.joined, room ∈ proc.joined ∨ ∃ call_id fields next,
    proc.place = .doing (.hmset_channel call_id fields next) ∧ fields.room_admin = some "yes" ∧
      fields.room = room
  kept : proc.admitted ⊆ moved.admitted
  admitted : ∀ room ∈ moved.admitted, room ∈ proc.admitted ∨ ∃ call_id next,
    proc.place = .looking_admin call_id room next ∧ Admin shared call_id

/-- Most steps only go on to another place. -/
theorem moves_to {place : Place}
    (sound : ∀ jwt, Sound jwt proc.rpc.request proc.heard proc.place.op →
      Sound jwt proc.rpc.request proc.heard place.op)
    (gated : Gated proc.place.op → Gated place.op) :
    Moves shared proc { proc with place := place } where
  later := ⟨rfl, List.Subset.refl _, List.Subset.refl _⟩
  sound := sound
  gated := fun before => Or.inr (gated before)
  joined := fun _ => Or.inl
  kept := List.Subset.refl _
  admitted := fun _ => Or.inl

theorem moves_ask {question : Question} {next : Answer question → Op}
    (stands : proc.place = .doing (.ask question next)) (answer : Answer question) :
    Moves shared proc { proc with
      place := .doing (next answer)
      heard := ⟨question, answer⟩ :: proc.heard } where
  later := ⟨rfl, List.subset_cons_self _ _, List.Subset.refl _⟩
  sound := by
    intro jwt sound
    rw [stands] at sound
    exact sound answer
  gated := by
    intro gated
    rw [stands] at gated
    cases gated
  joined := fun _ => Or.inl
  kept := List.Subset.refl _
  admitted := fun _ => Or.inl

theorem moves_hmset_channel {call_id : String} {fields : RoomFields} {next : Bool → Op}
    (stands : proc.place = .doing (.hmset_channel call_id fields next)) (carried_out confirmed : Bool) :
    Moves shared proc { proc with
      place := .doing (next confirmed)
      joined := if carried_out && fields.room_admin = some "yes"
        then fields.room :: proc.joined else proc.joined } where
  later := by
    refine ⟨rfl, List.Subset.refl _, ?_⟩
    dsimp only
    split
    · exact List.subset_cons_self _ _
    · exact List.Subset.refl _
  sound := by
    intro jwt sound
    rw [stands] at sound
    exact sound.2 confirmed
  gated := by
    intro gated
    rw [stands] at gated
    cases gated
  joined := by
    intro room listed
    dsimp only at listed
    split at listed
    · rename_i grants
      simp only [Bool.and_eq_true, decide_eq_true_eq] at grants
      rcases List.mem_cons.mp listed with same | before
      · exact Or.inr ⟨call_id, fields, next, stands, grants.2, same.symm⟩
      · exact Or.inl before
    · exact Or.inl listed
  kept := List.Subset.refl _
  admitted := fun _ => Or.inl

theorem moves_looking_admin {call_id room : String} {next : Option (String × String × Bool) → Op}
    (stands : proc.place = .looking_admin call_id room next) {is_admin : Bool}
    (found : is_admin = true → Admin shared call_id) :
    Moves shared proc { proc with
      place := .doing (next (some (room, call_id, is_admin)))
      admitted := if is_admin then room :: proc.admitted else proc.admitted } where
  later := ⟨rfl, List.Subset.refl _, List.Subset.refl _⟩
  sound := by
    intro jwt sound
    rw [stands] at sound
    exact sound _
  gated := by
    intro gated
    rw [stands] at gated
    cases is_admin with
    | true => exact Or.inl ⟨room, List.mem_cons_self⟩
    | false => exact Or.inr (gated.2 room call_id)
  joined := fun _ => Or.inl
  kept := by
    dsimp only
    split
    · exact List.subset_cons_self _ _
    · exact List.Subset.refl _
  admitted := by
    intro other listed
    dsimp only at listed
    split at listed
    · rename_i isAdmin
      rcases List.mem_cons.mp listed with same | before
      · subst same
        exact Or.inr ⟨call_id, next, stands, found isAdmin⟩
      · exact Or.inl before
    · exact Or.inl listed

theorem read_some {field : Option String} {value : String}
    (isRead : choice.read field = some value) : field = some value := by
  unfold Choice.read at isRead
  split at isRead
  · exact isRead
  · cases isRead

theorem step_moves (stepped : step choice shared proc = some (after, moved)) :
    Moves shared proc moved := by
  unfold step at stepped
  dsimp only at stepped
  cases stands : proc.place with
  | looking_room call_id next =>
    rw [stands] at stepped
    dsimp only at stepped
    split at stepped
    · cases stepped
      exact moves_to (by rw [stands]; exact fun _ sound => sound) (by rw [stands]; exact id)
    · cases stepped
      exact moves_to (by rw [stands]; exact fun _ sound => sound none)
        (by rw [stands]; exact fun gated => gated.1)
  | looking_admin call_id room next =>
    rw [stands] at stepped
    cases stepped
    apply moves_looking_admin stands
    intro found
    exact read_some (of_decide_eq_true found)
  | doing op =>
    rw [stands] at stepped
    cases op with
    | reply result => cases stepped
    | get_room_from_addr next =>
      dsimp only at stepped
      split at stepped
      · cases stepped
        exact moves_to (by rw [stands]; exact fun _ sound => sound) (by rw [stands]; exact id)
      · cases stepped
        exact moves_to (by rw [stands]; exact fun _ sound => sound none)
          (by rw [stands]; exact fun gated => gated.1)
    | hmset_channel call_id fields next =>
      cases stepped
      exact moves_hmset_channel stands _ _
    | ask question next =>
      cases stepped
      exact moves_ask stands _
    | register_room_api user next =>
      cases stepped
      exact moves_to (by rw [stands]; exact fun _ sound => sound.2) (by rw [stands]; exact False.elim)
    | hsetex call_id flag value next =>
      cases stepped
      exact moves_to (by rw [stands]; exact fun _ sound => sound) (by rw [stands]; exact False.elim)
    | _ =>
      cases stepped
      exact moves_to (by rw [stands]; exact fun _ sound => sound _) (by rw [stands]; exact False.elim)

/-- What a step does to the records. -/
inductive Writes (shared : Shared) (proc moved : Proc) : Shared → Prop where
  | nothing : Writes shared proc moved shared
  | wss (fields : WssFields) (next : Bool → Op)
    (stands : proc.place = .doing (.hmset_wss fields next)) :
    Writes shared proc moved
      (shared.set_wss proc.rpc.addr ((shared.wss proc.rpc.addr).hmset fields))
  | api_addr (call_id : String) (next : Bool → Op)
    (stands : proc.place = .doing (.set_api_remote_addr call_id next)) :
    Writes shared proc moved
      (shared.set_channel call_id ((shared.channels call_id).set_api_addr proc.rpc.addr))
  | channel (call_id : String) (fields : RoomFields) (next : Bool → Op)
    (stands : proc.place = .doing (.hmset_channel call_id fields next))
    (noted : fields.room_admin = some "yes" → fields.room ∈ moved.joined) :
    Writes shared proc moved (shared.set_channel call_id
      ((shared.channels call_id).hmset proc.rpc.addr proc.rpc.proxy_host fields))
  | flag (call_id : String) (flag : Flag) (value : String) :
    Writes shared proc moved
      (shared.set_channel call_id ((shared.channels call_id).set_flag flag value))
  | user (user : String) (next : Op) (stands : proc.place = .doing (.register_room_api user next)) :
    Writes shared proc moved (shared.register proc.rpc.addr user)

theorem step_writes (stepped : step choice shared proc = some (after, moved)) :
    Writes shared proc moved after := by
  -- A command that is not carried out writes nothing.
  have done : ∀ written, (choice.carried_out = true → Writes shared proc moved written) →
      Writes shared proc moved (choice.write shared written) := by
    intro written carried
    unfold Choice.write
    split
    · exact carried ‹_›
    · exact Writes.nothing
  unfold step at stepped
  dsimp only at stepped
  cases stands : proc.place with
  | looking_room call_id next =>
    rw [stands] at stepped
    dsimp only at stepped
    split at stepped
    · cases stepped
      exact Writes.nothing
    · cases stepped
      exact Writes.nothing
  | looking_admin call_id room next =>
    rw [stands] at stepped
    cases stepped
    exact Writes.nothing
  | doing op =>
    rw [stands] at stepped
    cases op with
    | reply result => cases stepped
    | get_room_from_addr next =>
      dsimp only at stepped
      split at stepped
      · cases stepped
        exact Writes.nothing
      · cases stepped
        exact Writes.nothing
    | hmset_wss fields next =>
      cases stepped
      exact done _ fun _ => Writes.wss fields next stands
    | set_api_remote_addr call_id next =>
      cases stepped
      exact done _ fun _ => Writes.api_addr call_id next stands
    | hmset_channel call_id fields next =>
      cases stepped
      apply done
      intro carried
      apply Writes.channel call_id fields next stands
      intro grants
      simp [carried, grants]
    | hsetex call_id flag value next =>
      cases stepped
      exact done _ fun _ => Writes.flag call_id flag value
    | register_room_api user next =>
      cases stepped
      exact done _ fun _ => Writes.user user next stands
    | _ =>
      cases stepped
      exact Writes.nothing

end

/-- The right that a write shows becomes one of the registered user's. -/
theorem shows_registered {jwt : Jwt} {registered : String → Prop} {request : Request}
    {heard more : List (Sigma Answer)} {room : String} (grown : heard ⊆ more)
    (shows_right : Shows jwt (fun _ => True) request heard room)
    (converts : ∀ params, request = .convert_to_room (some params) → ∀ user self other,
      (⟨.convert_to_room params.call_id, (.ok (user, self, other) :
        Except String (User × String × String))⟩ : Sigma Answer) ∈ heard → registered user.uuid) :
    Shows jwt registered request more room := by
  unfold Shows at shows_right ⊢
  split at shows_right
  · exact shows_right
  · obtain ⟨user, loggedIn⟩ := shows_right
    exact ⟨user, logged_in_mono grown loggedIn⟩
  · rename_i params
    obtain ⟨user, self, other, told, _⟩ := shows_right
    exact ⟨user, self, other, grown told, converts params rfl user self other told⟩
  · exact shows_right

section
variable {jwt : Jwt} {world : World Shared Proc}

theorem registered_later {after : World Shared Proc}
    (later : ∀ pid, Later (world.procs pid) (after.procs pid)) {addr uuid : String}
    (registered : Registered world addr uuid) : Registered after addr uuid := by
  obtain ⟨pid, credentials, user, ours, isRegister, loggedIn, same⟩ := registered
  refine ⟨pid, credentials, user, ?_, ?_, logged_in_mono (later pid).heard loggedIn, same⟩
  · rw [(later pid).rpc]
    exact ours
  · rw [(later pid).rpc]
    exact isRegister

theorem entitled_later {after : World Shared Proc}
    (later : ∀ pid, Later (world.procs pid) (after.procs pid)) {addr room : String}
    (entitled : Entitled jwt world addr room) : Entitled jwt after addr room := by
  obtain ⟨pid, ours, joined, shows_right⟩ := entitled
  refine ⟨pid, ?_, (later pid).joined joined, ?_⟩
  · rw [(later pid).rpc]
    exact ours
  · rw [(later pid).rpc]
    exact shows_mono (later pid).heard (fun _ => registered_later later) shows_right

end

/-- The rights that are stored go to connections that are entitled to them: that of the
    channel, and those that name it. -/
structure Rights (right : String → String → Prop) (shared : Shared) : Prop where
  owned : ∀ call_id addr room, Admin shared call_id →
    (shared.channels call_id).api_addr = some addr →
      (shared.channels call_id).room = some room → right addr room
  named : ∀ call_id addr room, Admin shared call_id → (shared.wss addr).call_id = some call_id →
    (shared.channels call_id).room = some room → right addr room

section
variable {right : String → String → Prop} {shared after : Shared} {proc moved : Proc}

theorem rights_mono {more : String → String → Prop}
    (weaker : ∀ addr room, right addr room → more addr room) (rights : Rights right shared) :
    Rights more shared where
  owned := fun call_id addr room admin ours inRoom =>
    weaker addr room (rights.owned call_id addr room admin ours inRoom)
  named := fun call_id addr room admin names inRoom =>
    weaker addr room (rights.named call_id addr room admin names inRoom)

theorem rights_set_channel (rights : Rights right shared) {call_id : String}
    {record : ChannelRecord} (granted : record.room_admin = some "yes" →
      ∀ room, record.room = some room →
        (∀ addr, record.api_addr = some addr → right addr room) ∧
          ∀ addr, (shared.wss addr).call_id = some call_id → right addr room) :
    Rights right (shared.set_channel call_id record) := by
  constructor
  · intro other addr room admin ours inRoom
    by_cases here : other = call_id
    · subst here
      simp only [Admin, Shared.set_channel, Function.update_self] at admin ours inRoom
      exact (granted admin room inRoom).1 addr ours
    · simp only [Admin, Shared.set_channel, Function.update_of_ne here] at admin ours inRoom
      exact rights.owned other addr room admin ours inRoom
  · intro other addr room admin names inRoom
    by_cases here : other = call_id
    · subst here
      simp only [Admin, Shared.set_channel, Function.update_self] at admin inRoom
      exact (granted admin room inRoom).2 addr names
    · simp only [Admin, Shared.set_channel, Function.update_of_ne here] at admin inRoom
      exact rights.named other addr room admin names inRoom

theorem rights_set_wss (rights : Rights right shared) {addr call_id : String} {wss : Wss}
    (names : wss.call_id = some call_id) (own : Own shared addr call_id) :
    Rights right (shared.set_wss addr wss) := by
  constructor
  · exact rights.owned
  · intro other naming room admin namesOther inRoom
    by_cases here : naming = addr
    · subst here
      simp only [Shared.set_wss, Function.update_self] at namesOther
      rw [names] at namesOther
      cases namesOther
      exact rights.owned call_id naming room admin (own admin) inRoom
    · simp only [Shared.set_wss, Function.update_of_ne here] at namesOther
      exact rights.named other naming room admin namesOther inRoom

theorem rights_written (rights : Rights right shared) (proven : Proven shared proc)
    (writes : Writes shared proc moved after)
    (joined : ∀ room ∈ moved.joined, right proc.rpc.addr room) : Rights right after := by
  cases writes with
  | nothing => exact rights
  | wss fields next stands =>
    simp only [Proven, stands] at proven
    exact rights_set_wss rights rfl proven
  | api_addr call_id next stands =>
    simp only [Proven, stands] at proven
    apply rights_set_channel rights
    intro admin room inRoom
    constructor
    · intro addr ours
      cases ours
      exact rights.owned call_id _ room admin (proven admin) inRoom
    · intro addr names
      exact rights.named call_id addr room admin names inRoom
  | channel call_id fields next stands noted =>
    simp only [Proven, stands] at proven
    apply rights_set_channel rights
    intro admin room inRoom
    cases inRoom
    cases given : fields.room_admin with
    | none =>
      -- The rights were there before, and in the same room.
      simp only [ChannelRecord.hmset, given, Option.none_or] at admin
      obtain ⟨own, sameRoom⟩ := proven.1 given
      constructor
      · intro addr ours
        cases ours
        exact rights.owned call_id _ _ admin (own admin) (sameRoom admin)
      · intro addr names
        exact rights.named call_id addr _ admin names (sameRoom admin)
    | some value =>
      simp only [ChannelRecord.hmset, given, Option.some_or] at admin
      cases admin
      have entitled := joined fields.room (noted given)
      constructor
      · intro addr ours
        cases ours
        exact entitled
      · intro addr names
        by_cases ours : addr = proc.rpc.addr
        · rw [ours]
          exact entitled
        · exact absurd names ((proven.2 given).1 addr ours)
  | flag call_id flag value =>
    apply rights_set_channel rights
    intro admin room inRoom
    exact ⟨fun addr ours => rights.owned call_id addr room admin ours inRoom,
      fun addr names => rights.named call_id addr room admin names inRoom⟩
  | user user next stands => exact ⟨rights.owned, rights.named⟩

end

section
variable {jwt : Jwt} {world : World Shared Proc}

/-- What the requests say of themselves. -/
structure Honest (jwt : Jwt) (proc : Proc) : Prop where
  sound : Sound jwt proc.rpc.request proc.heard proc.place.op
  gated : proc.rpc.request.admin_only = true →
    (∃ room, room ∈ proc.admitted) ∨ Gated proc.place.op
  joined : ∀ room ∈ proc.joined, Shows jwt (fun _ => True) proc.rpc.request proc.heard room

theorem honest_moves {shared : Shared} {proc moved : Proc} (honest : Honest jwt proc)
    (moves : Moves shared proc moved) : Honest jwt moved := by
  constructor
  · rw [moves.later.rpc]
    exact moves.sound jwt honest.sound
  · intro admin_only
    rw [moves.later.rpc] at admin_only
    rcases honest.gated admin_only with ⟨room, listed⟩ | gated
    · exact Or.inl ⟨room, moves.kept listed⟩
    · exact moves.gated gated
  · intro room listed
    rw [moves.later.rpc]
    rcases moves.joined room listed with old | ⟨call_id, fields, next, stands, grants, same⟩
    · exact shows_mono moves.later.heard (fun _ _ => trivial) (honest.joined room old)
    · have sound := honest.sound
      rw [stands] at sound
      subst same
      exact shows_mono moves.later.heard (fun _ _ => trivial) (sound.1 grants)

/-- In every run, whatever the connections name: a request is not accepted without the
    rights of an admin, and gives rights only where it shows one. -/
theorem run_honest {rpcs : Nat → Rpc} {guard : Guard Shared Proc Choice Event}
    {last : World Shared Proc} (run : Run rooms guard (start jwt rpcs) last) (pid : Nat) :
    (last.procs pid).rpc = rpcs pid ∧ Honest jwt (last.procs pid) := by
  revert pid
  apply run_keeps (fun world => ∀ pid, (world.procs pid).rpc = rpcs pid ∧
    Honest jwt (world.procs pid)) _ _ run
  · intro pid
    refine ⟨rfl, handle_request_sound _, fun admin_only => Or.inr (admin_only_gated jwt admin_only), ?_⟩
    intro room listed
    cases listed
  · intro world action after honest _ acted
    rcases act_cases acted with ⟨pid, choice, shared, proc, _, stepped, rfl⟩ | ⟨_, _, _, _, rfl⟩
    · intro other
      by_cases isPid : other = pid
      · subst isPid
        rw [moved_same]
        have moves := step_moves stepped
        exact ⟨moves.later.rpc.trans (honest other).1, honest_moves (honest other).2 moves⟩
      · rw [moved_other _ _ _ isPid]
        exact honest other
    · exact honest

/-- What the records and the requests have to do with each other. -/
structure Held (jwt : Jwt) (world : World Shared Proc) : Prop where
  honest : ∀ pid, Honest jwt (world.procs pid)
  joined : ∀ pid, ∀ room ∈ (world.procs pid).joined,
    Shows jwt (Registered world (world.procs pid).rpc.addr) (world.procs pid).rpc.request
      (world.procs pid).heard room
  registered : ∀ addr uuid, world.shared.register_room_api addr = some uuid →
    Registered world addr uuid
  rights : Rights (Entitled jwt world) world.shared
  admitted : ∀ pid, ∀ room ∈ (world.procs pid).admitted,
    Entitled jwt world (world.procs pid).rpc.addr room

theorem held_authorised (held : Held jwt world) : Authorised jwt world := by
  intro pid admin_only
  refine ⟨?_, held.admitted pid⟩
  rintro ⟨reply, stands⟩
  rcases (held.honest pid).gated admin_only with admitted | gated
  · exact admitted
  · rw [stands] at gated
    cases gated

theorem start_held (jwt : Jwt) (rpcs : Nat → Rpc) : Held jwt (start jwt rpcs) where
  honest := fun pid => (run_honest (Run.start : Run rooms Guarded _ _) pid).2
  joined := fun pid room listed => by cases listed
  registered := fun addr uuid stored => by cases stored
  rights := ⟨(fun _ _ _ admin => by cases admin), (fun _ _ _ admin => by cases admin)⟩
  admitted := fun pid room listed => by cases listed

/-- One step of a request. -/
theorem step_held (held : Held jwt world) {pid : Nat} {choice : Choice} {shared : Shared}
    {proc : Proc} (proven : Proven world.shared (world.procs pid))
    (stepped : step choice world.shared (world.procs pid) = some (shared, proc)) :
    Held jwt (world.moved pid shared proc) := by
  have moves := step_moves stepped
  have writes := step_writes stepped
  have later : ∀ other, Later (world.procs other) ((world.moved pid shared proc).procs other) := by
    intro other
    by_cases isPid : other = pid
    · subst isPid
      rw [moved_same]
      exact moves.later
    · rw [moved_other _ _ _ isPid]
      exact later_refl _
  have joined : ∀ other, ∀ room ∈ ((world.moved pid shared proc).procs other).joined,
      Shows jwt (Registered (world.moved pid shared proc)
        ((world.moved pid shared proc).procs other).rpc.addr)
        ((world.moved pid shared proc).procs other).rpc.request
        ((world.moved pid shared proc).procs other).heard room := by
    intro other room listed
    have before : room ∈ (world.procs other).joined → Shows jwt
        (Registered (world.moved pid shared proc) (world.procs other).rpc.addr)
        (world.procs other).rpc.request ((world.moved pid shared proc).procs other).heard room :=
      fun listed => shows_mono (later other).heard (fun _ => registered_later later)
        (held.joined other room listed)
    rw [(later other).rpc]
    by_cases isPid : other = pid
    · subst isPid
      rw [moved_same] at listed
      rcases moves.joined room listed with old | ⟨call_id, fields, next, stands, grants, same⟩
      · exact before old
      · have sound := (held.honest other).sound
        rw [stands] at sound
        simp only [Proven, stands] at proven
        have stored := (proven.2 grants).2
        subst same
        apply shows_registered ((later other).heard) (sound.1 grants)
        intro params isConvert user self peer told
        exact registered_later later
          (held.registered _ _ (stored params isConvert user self peer told))
    · rw [moved_other _ _ _ isPid] at listed
      exact before listed
  have entitled : ∀ addr room, Entitled jwt world addr room →
      Entitled jwt (world.moved pid shared proc) addr room :=
    fun _ _ => entitled_later later
  constructor
  · intro other
    by_cases isPid : other = pid
    · subst isPid
      rw [moved_same]
      exact honest_moves (held.honest other) moves
    · rw [moved_other _ _ _ isPid]
      exact held.honest other
  · exact joined
  · intro addr uuid stored
    cases writes with
    | user user next stands =>
      by_cases ours : addr = (world.procs pid).rpc.addr
      · subst ours
        simp only [moved_shared, Shared.register, Function.update_self, Option.some.injEq] at stored
        subst stored
        have sound := (held.honest pid).sound
        rw [stands] at sound
        obtain ⟨⟨credentials, owner, isRegister, loggedIn, same⟩, _⟩ := sound
        exact registered_later later ⟨pid, credentials, owner, rfl, isRegister, loggedIn, same⟩
      · simp only [moved_shared, Shared.register, Function.update_of_ne ours] at stored
        exact registered_later later (held.registered addr uuid stored)
    | _ => exact registered_later later (held.registered addr uuid stored)
  · apply rights_written (rights_mono entitled held.rights) proven writes
    intro room listed
    refine ⟨pid, ?_, ?_, ?_⟩
    · rw [moved_same, moves.later.rpc]
    · rw [moved_same]
      exact listed
    · have shown := joined pid room (by rw [moved_same]; exact listed)
      rw [(later pid).rpc] at shown ⊢
      exact shown
  · intro other room listed
    rw [(later other).rpc]
    by_cases isPid : other = pid
    · subst isPid
      rw [moved_same] at listed
      rcases moves.admitted room listed with old | ⟨call_id, next, stands, admin⟩
      · exact entitled _ _ (held.admitted other room old)
      · simp only [Proven, stands] at proven
        obtain ⟨names, inRoom⟩ := proven admin
        exact entitled _ _ (held.rights.named call_id _ room admin names inRoom)
    · rw [moved_other _ _ _ isPid] at listed
      exact entitled _ _ (held.admitted other room listed)

theorem event_held (held : Held jwt world) {event : Event} {shared : Shared}
    (happened : happen event world.shared = some shared) : Held jwt ⟨shared, world.procs⟩ := by
  cases event with
  | channel_deleted call_id =>
    cases happened
    refine ⟨held.honest, held.joined, held.registered, ?_, held.admitted⟩
    apply rights_set_channel held.rights
    intro admin
    cases admin

theorem run_held {rpcs : Nat → Rpc} {last : World Shared Proc}
    (run : Run rooms Guarded (start jwt rpcs) last) : Held jwt last := by
  apply run_keeps (Held jwt) (start_held jwt rpcs) _ run
  intro world action after held guarded acted
  rcases act_cases acted with ⟨pid, choice, shared, proc, rfl, stepped, rfl⟩ |
    ⟨event, shared, rfl, happened, rfl⟩
  · exact step_held held (guarded pid choice rfl) stepped
  · exact event_held held happened

end

/-- In every run of room requests from any number of connections in which every step that
    names a channel, gives it rights or looks them up meets its condition. -/
theorem room_authority (jwt : Jwt) (rpcs : Nat → Rpc) (last : World Shared Proc)
    (run : Run rooms Guarded (start jwt rpcs) last) : Authorised jwt last :=
  held_authorised (run_held run)

def answers : (question : Question) → Answer question
  | .get_user _ => (none : Option User)
  | .get_user_by_device_token _ _ => (none : Option User)
  | .get_user_by_name _ => (none : Option User)
  | .get_room room => (some ⟨room, "t1", false, false, false, none⟩ : Option RoomModel)
  | .get_room_member _ _ => (none : Option Bool)
  | .uuid => ("uuid" : String)
  | .convert_to_room _ => (.error "" : Except String (User × String × String))
  | .context_user _ => (none : Option (Option User))
  | .join_room _ _ _ => (.ok "answer" : Except String String)
  | .invite_exten _ _ _ => (none : Option (List (String × String)))
  | .room_members _ => (some [] : Option (List String))
  | .waiting_room_members _ => ([] : List String)
  | .is_member _ _ => false
  | .get_member_info _ _ => (none : Option MemberInfo)
  | .call _ => true

def moves (turns : List (Nat × Nat)) : List (Action Choice Event) :=
  turns.flatMap fun turn => List.replicate turn.2 (.proc turn.1 { answer := answers })

/-- The one token that is verified makes the channel c1 an admin of the room r1. -/
def oneToken : Jwt where
  sign := fun _ => none
  verify := fun token =>
    if token = "admin" then some ⟨"r1", "t1", "c1", none, "Ann", true⟩ else none

/-- An admin joins a room and asks who is waiting. -/
def adminAlone (pid : Nat) : Rpc where
  proxy_host := "10.0.0.1"
  addr := "A"
  request := if pid = 0 then .join_room (some ⟨"offer", "admin", none, none⟩)
    else .get_waiting_room_members

def owns (shared : Shared) (call_id : String) : Bool :=
  decide ((shared.channels call_id).room_admin ≠ some "yes") ||
    decide ((shared.channels call_id).api_addr = some "A")

/-- The condition of a step, for one connection that converts no call. -/
def passes (world : World Shared Proc) : Action Choice Event → Bool
  | .proc pid _ =>
    match (world.procs pid).place with
    | .doing (.hmset_wss fields _) => owns world.shared fields.call_id
    | .doing (.set_api_remote_addr call_id _) => owns world.shared call_id
    | .doing (.hmset_channel _ fields _) => fields.room_admin.isSome
    | .looking_admin call_id room _ =>
      decide ((world.shared.wss "A").call_id = some call_id) &&
        decide ((world.shared.channels call_id).room = some room)
    | _ => true
  | .outside _ => true

/-- Only the one connection has named a channel. -/
def Alone (world : World Shared Proc) : Prop :=
  (∀ pid, (world.procs pid).rpc = adminAlone pid) ∧
    ∀ other, other ≠ "A" → (world.shared.wss other).call_id = none

theorem owns_own {shared : Shared} {call_id : String} (owned : owns shared call_id = true) :
    Own shared "A" call_id := by
  intro admin
  simp only [owns, ne_eq, Bool.or_eq_true, decide_eq_true_eq] at owned
  rcases owned with notAdmin | ours
  · exact absurd admin notAdmin
  · exact ours

theorem passes_sound (world : World Shared Proc) (action : Action Choice Event)
    (alone : Alone world) (passed : passes world action = true) : Guarded world action := by
  intro pid choice isProc
  subst isProc
  have addr : (world.procs pid).rpc.addr = "A" := by
    rw [alone.1 pid]
    rfl
  unfold Proven
  rw [addr]
  cases stands : (world.procs pid).place with
  | looking_room call_id next => trivial
  | looking_admin call_id room next =>
    simp only [passes, stands, Bool.and_eq_true, decide_eq_true_eq] at passed
    exact fun _ => passed
  | doing op =>
    cases op with
    | hmset_wss fields next =>
      simp only [passes, stands] at passed
      exact owns_own passed
    | set_api_remote_addr call_id next =>
      simp only [passes, stands] at passed
      exact owns_own passed
    | hmset_channel call_id fields next =>
      simp only [passes, stands] at passed
      constructor
      · intro none
        rw [none] at passed
        cases passed
      · intro _
        constructor
        · intro other different names
          rw [alone.2 other different] at names
          cases names
        · intro params isConvert
          rw [alone.1 pid] at isConvert
          simp only [adminAlone] at isConvert
          split at isConvert
          · cases isConvert
          · cases isConvert
    | _ => trivial

theorem alone_stays (world : World Shared Proc) (action : Action Choice Event)
    (after : World Shared Proc) (alone : Alone world) (_ : passes world action = true)
    (acted : act rooms world action = some after) : Alone after := by
  rcases act_cases acted with ⟨pid, choice, shared, proc, _, stepped, rfl⟩ |
    ⟨event, shared, _, happened, rfl⟩
  · constructor
    · intro other
      by_cases isPid : other = pid
      · subst isPid
        rw [moved_same, (step_moves stepped).later.rpc]
        exact alone.1 other
      · rw [moved_other _ _ _ isPid]
        exact alone.1 other
    · intro other different
      cases step_writes stepped with
      | wss fields next stands =>
        have addr : (world.procs pid).rpc.addr = "A" := by
          rw [alone.1 pid]
          rfl
        simp only [addr, moved_shared, Shared.set_wss, Function.update_of_ne different]
        exact alone.2 other different
      | _ => exact alone.2 other different
  · cases event with
    | channel_deleted call_id =>
      cases happened
      exact alone

/-- The admin is the only one, and is answered. -/
theorem room_authority_alone : ∃ last : World Shared Proc,
    runWhere rooms passes (start oneToken adminAlone) (moves [(0, 11), (1, 4)]) = some last ∧
    (last.procs 1).admitted = ["r1"] ∧ Authorised oneToken last := by
  have ran : ∃ last : World Shared Proc,
      runWhere rooms passes (start oneToken adminAlone) (moves [(0, 11), (1, 4)]) = some last ∧
      (last.procs 1).admitted = ["r1"] := ⟨_, rfl, rfl⟩
  obtain ⟨last, ran, admitted⟩ := ran
  refine ⟨last, ran, admitted, room_authority oneToken adminAlone last ?_⟩
  exact run_of_runWhere_within Alone passes_sound alone_stays _ ⟨fun _ => rfl, fun _ _ => rfl⟩ ran

/-- Another connection asks to be let in with the call id of the admin, shows nothing, is
    told to wait, and then asks who is waiting. -/
def borrowed (pid : Nat) : Rpc where
  proxy_host := "10.0.0.1"
  addr := if pid = 0 then "A" else "B"
  request := match pid with
    | 0 => .join_room (some ⟨"offer", "admin", none, none⟩)
    | 1 => .authenticate (some ⟨"r1", "c1", none, none, ⟨none, none, none, none⟩⟩)
    | _ => .get_waiting_room_members

theorem call_id_borrows_rights :
    ¬ ∀ (jwt : Jwt) (rpcs : Nat → Rpc) (last : World Shared Proc),
      Run rooms (fun _ _ => True) (start jwt rpcs) last → Authorised jwt last := by
  intro always
  have ran : ∃ last : World Shared Proc,
      runAll rooms (start oneToken borrowed) (moves [(0, 11), (1, 5), (2, 4)]) = some last ∧
      (last.procs 2).admitted = ["r1"] ∧
      (last.procs 2).place = .doing (.reply (.ok (.waiting_members []))) := ⟨_, rfl, rfl, rfl⟩
  obtain ⟨last, ran, admitted, _⟩ := ran
  have run := run_of_runAll _ ran
  have second := (run_honest run 2).1
  have authorised := (always oneToken borrowed last run 2 (by rw [second]; rfl)).2 "r1"
    (by rw [admitted]; exact List.mem_cons_self)
  rw [second] at authorised
  -- No request of the second connection shows a right to any room.
  obtain ⟨pid, ours, _, shows_right⟩ := authorised
  rw [(run_honest run pid).1] at ours shows_right
  match pid with
  | 0 => revert ours; decide
  | 1 => exact shows_right
  | _ + 2 => exact shows_right

end RoomAuthority
