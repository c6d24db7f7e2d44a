import Nebula.Switchboard.CallRouting
import Mathlib.Algebra.Order.BigOperators.Group.List
import Mathlib.Algebra.Order.Ring.Nat
import Mathlib.Data.List.Perm.Subperm

/- How long a call is routed. Counters of call flows, the flags forward and backup, the
   users that the contents of call flows lead to, the contents within contents, and the
   modules of one flow: each is used up before the ones after it start again. Only the
   users may come round again; a call for which none does is routed for a bounded time. -/
namespace RoutingBound
open Runs CallRouting

mutual
/-- How far a flow goes down: through contents within contents, and at the bottom through
    modules that lead to an extension. -/
def moduleDepth : Module → Nat
  | .mk name _ _ _ _ _ content =>
    max (if name = .forwardcall ∨ name = .backupextension then 1 else 0) (contentDepth content)

def contentDepth : Option (List (String × Module)) → Nat
  | none => 0
  | some flow => flowDepth flow + 1

def flowDepth : List (String × Module) → Nat
  | [] => 0
  | entry :: rest => max (entryDepth entry) (flowDepth rest)

def entryDepth : String × Module → Nat
  | (_, module) => moduleDepth module
end

/-- The depth of the contents in a user's call handling. -/
def userDepth (user : User) : Nat :=
  match user.call_handling with
  | some handling => max (contentDepth handling.noanswer_callflow)
      (max (contentDepth handling.busy_callflow) (contentDepth handling.unavailable_callflow))
  | none => 0

def callDepth : Entry → Nat
  | .content _ flow => flowDepth flow
  | _ => 0

/-- No flow of the configuration or the call is deeper. -/
def height (config : Config) (entry : Entry) : Nat :=
  1 + callDepth entry + (config.users.map userDepth).sum +
    (config.callflows.map fun callflow => flowDepth callflow.flow).sum

/-- How many modules and activations one user, one flow that is counted, and the whole
    call may take. -/
def perUser (height : Nat) : Nat := 3000 * (height + 1)

def perCount (config : Config) (height : Nat) : Nat := perUser height * (config.users.length + 1)

def bound (config : Config) (entry : Entry) : Nat :=
  perCount config (height config entry) * (100 * config.callflows.length + 3)

/-- A user is not routed to again before a counter or a flag is used up. -/
def NotAgain (config : Config) : Guard State Choice :=
  fun state _ => ∀ tenant_id user_id user, state.place = .switch_user tenant_id user_id →
    get_user config tenant_id user_id = some user → user.uuid ∉ state.visited

theorem module_depth_le {flow : Flow} {entry : String × Module} (listed : entry ∈ flow) :
    moduleDepth entry.2 ≤ flowDepth flow := by
  induction flow with
  | nil => cases listed
  | cons first rest ih =>
    rw [flowDepth]
    rcases List.mem_cons.mp listed with same | later
    · subst same
      rw [entryDepth]
      exact le_max_left _ _
    · exact le_trans (ih later) (le_max_right _ _)

theorem lookup_mem {flow : Flow} {key : String} {module : Module}
    (found : flow.lookup key = some module) : (key, module) ∈ flow := by
  obtain ⟨before, after, split, _⟩ := List.lookup_eq_some_iff.mp found
  rw [split]
  exact List.mem_append_right _ List.mem_cons_self

theorem flow_depth_append (flow more : Flow) :
    flowDepth (flow ++ more) = max (flowDepth flow) (flowDepth more) := by
  induction flow with
  | nil => simp [flowDepth]
  | cons first rest ih => simp only [List.cons_append, flowDepth, ih, max_assoc]

/-- A content is less deep than the flow that its module is in. -/
theorem content_depth_lt {flow content : Flow} {key : String} {module : Module}
    (found : flow.lookup key = some module) (isContent : module.callflow_content = some content) :
    flowDepth content < flowDepth flow := by
  have deep := module_depth_le (lookup_mem found)
  cases module with
  | mk name values nexts extension user dial inner =>
    simp only [Module.callflow_content] at isContent
    rw [isContent, moduleDepth, contentDepth] at deep
    omega

theorem leading_depth_pos {flow : Flow} {key : String} {module : Module}
    (found : flow.lookup key = some module)
    (leads : module.name = .forwardcall ∨ module.name = .backupextension) : 0 < flowDepth flow := by
  have deep := module_depth_le (lookup_mem found)
  cases module with
  | mk name values nexts extension user dial inner =>
    simp only [Module.name] at leads
    rw [moduleDepth, if_pos leads] at deep
    omega

theorem handled_depth (key : String) (callflow_id : Option String) (content : Option Flow) :
    flowDepth (handled key callflow_id content) ≤ contentDepth content := by
  unfold handled
  split
  · simp [flowDepth, entryDepth, moduleDepth, plain, contentDepth]
  · simp [flowDepth, entryDepth, moduleDepth, contentDepth]
  · simp [flowDepth]

theorem ringing_depth : flowDepth ringing = 0 := by
  decide

theorem forwarding_depth (number : String) : flowDepth (forwarding number) = 1 := by
  simp [forwarding, started, flowDepth, entryDepth, moduleDepth, plain, contentDepth]

theorem backup_flow_depth (user : User) (backup : Int) :
    flowDepth (ringing ++ [("noanswer",
      .mk .backupextension [] [] (some backup) (some user.uuid) false none)]) = 1 := by
  rw [flow_depth_append, ringing_depth]
  simp [flowDepth, entryDepth, moduleDepth, contentDepth]

theorem plain_flow_depth {name : ModuleName} {key : String}
    (ends : ¬ (name = .forwardcall ∨ name = .backupextension)) :
    flowDepth (ringing ++ [(key, plain name [])]) = 0 := by
  rw [flow_depth_append, ringing_depth]
  simp [flowDepth, entryDepth, moduleDepth, plain, contentDepth, ends]

theorem handling_depth (handling : UserCallHandling) :
    flowDepth (ringing ++
      handled "noanswer" handling.noanswer_callflow_id handling.noanswer_callflow ++
      handled "busy" handling.busy_callflow_id handling.busy_callflow ++
      handled "unavailable" handling.unavailable_callflow_id handling.unavailable_callflow) ≤
    max (contentDepth handling.noanswer_callflow)
      (max (contentDepth handling.busy_callflow) (contentDepth handling.unavailable_callflow)) := by
  have noanswer := handled_depth "noanswer" handling.noanswer_callflow_id handling.noanswer_callflow
  have busy := handled_depth "busy" handling.busy_callflow_id handling.busy_callflow
  have unavailable := handled_depth "unavailable" handling.unavailable_callflow_id
    handling.unavailable_callflow
  simp only [flow_depth_append, ringing_depth]
  omega

/-- The flow that is made for a user goes down to a forward or a backup, or to the contents
    of the user's call handling. -/
theorem sipuser_flow_depth {user : User} {context : Context} {flow : Flow}
    (isFlow : get_sipuser_flow user context = some flow) : flowDepth flow ≤ 1 + userDepth user := by
  unfold get_sipuser_flow at isFlow
  split at isFlow
  · cases isFlow
    simp [ringing_depth]
  · split at isFlow
    · rename_i handling isHandling
      dsimp only at isFlow
      split at isFlow
      · cases isFlow
        simp [forwarding_depth]
      · split at isFlow
        · obtain ⟨_, _, rfl⟩ := Option.map_eq_some_iff.mp isFlow
          simp [plain_flow_depth]
        · cases isFlow
          have deep := handling_depth handling
          simp only [userDepth, isHandling]
          omega
    · split at isFlow
      · cases isFlow
        simp [ringing_depth]
      · split at isFlow
        · cases isFlow
          split
          · simp [plain_flow_depth]
          · simp [ringing_depth]
        · split at isFlow
          · cases isFlow
            simp [ringing_depth]
          · obtain ⟨backup, _, rfl⟩ := Option.map_eq_some_iff.mp isFlow
            split
            · simp [ringing_depth]
            · simp [backup_flow_depth]

/-- What is left of the counters and the flags. -/
def left (config : Config) (state : State) : Nat :=
  (config.callflows.map fun callflow => 100 - state.counters callflow.uuid).sum +
    (if state.context.forward then 0 else 1) + (if state.context.backup then 0 else 1)

/-- What may come before a counter or a flag is used up. -/
def pending (config : Config) (height : Nat) (state : State) : Nat :=
  let fresh := perUser height * (config.users.length - state.visited.length)
  match state.place with
  | .switch _ => fresh + 3000 * height + 2000
  | .switch_extension _ _ => fresh + 1500
  | .switch_user _ _ => fresh + 1400
  | .callflow _ flow => fresh + 3000 * flowDepth flow + 1003
  | .switching _ flow _ n => fresh + 3000 * flowDepth flow + (1001 - n)
  | .switch_callflow _ | .over => 0

def ahead (config : Config) (height : Nat) (state : State) : Nat :=
  perCount config height * left config state + pending config height state

/-- Where the call is, all flows are of the configuration or of the call. -/
def Placed (config : Config) (height : Nat) : Place → Prop
  | .switch entry => callDepth entry ≤ height
  | .switch_callflow callflow => callflow ∈ config.callflows
  | .callflow _ flow => flowDepth flow ≤ height
  | .switching _ flow _ n => flowDepth flow ≤ height ∧ n ≤ 1000
  | .switch_extension _ _ | .switch_user _ _ | .over => True

structure Sane (config : Config) (height : Nat) (state : State) : Prop where
  placed : Placed config height state.place
  once : state.visited.Nodup
  users : state.visited ⊆ config.users.map (·.uuid)

/-- All flows of the configuration are within the height. -/
structure High (config : Config) (height : Nat) : Prop where
  pos : 0 < height
  users : ∀ user ∈ config.users, 1 + userDepth user ≤ height
  callflows : ∀ callflow ∈ config.callflows, flowDepth callflow.flow ≤ height

/-- A step keeps the state sane, and takes at least what it spends off what is ahead. -/
structure Spends (config : Config) (height : Nat) (state after : State) : Prop where
  sane : Sane config height after
  cost : after.executed + after.activated + ahead config height after ≤
    state.executed + state.activated + ahead config height state

section
variable {config : Config} {height : Nat} {state : State}

/-- A step that leaves counters, flags and users as they are. -/
theorem spends_to (sane : Sane config height state) {place : Place}
    (placed : Placed config height place) {executed activated : Nat}
    (cost : executed + activated + pending config height (state.goOn place) ≤
      state.executed + state.activated + pending config height state) :
    Spends config height state
      { state with place := place, executed := executed, activated := activated } := by
  refine ⟨⟨placed, sane.once, sane.users⟩, ?_⟩
  have same : ahead config height
      { state with place := place, executed := executed, activated := activated } =
      perCount config height * left config state + pending config height (state.goOn place) := rfl
  rw [same]
  dsimp only
  unfold ahead
  omega

theorem spends_goOn (sane : Sane config height state) {place : Place}
    (placed : Placed config height place)
    (cost : pending config height (state.goOn place) ≤ pending config height state) :
    Spends config height state (state.goOn place) :=
  spends_to sane placed (by omega)

theorem spends_over (sane : Sane config height state) :
    Spends config height state (state.goOn .over) :=
  spends_goOn sane trivial (Nat.zero_le _)

/-- A step that uses up a counter or a flag may take any number of users and contents again. -/
theorem spends_use_up {after : State} (sane : Sane config height after)
    (used : left config after + 1 ≤ left config state)
    (spent : after.executed + after.activated ≤ state.executed + state.activated + 1)
    (within : pending config height after + 1 ≤ perCount config height) :
    Spends config height state after := by
  refine ⟨sane, ?_⟩
  have dropped : perCount config height * (left config after + 1) ≤
      perCount config height * left config state := Nat.mul_le_mul_left _ used
  rw [Nat.mul_succ] at dropped
  unfold ahead
  omega

theorem per_count_eq (config : Config) (height : Nat) :
    perCount config height = perUser height * config.users.length + perUser height := by
  rw [perCount, Nat.mul_succ]

theorem of_callflow_spends (sane : Sane config height state) {found : Option CallFlow}
    (listed : ∀ callflow, found = some callflow → callflow ∈ config.callflows) :
    Spends config height state (state.ofCallflow found) := by
  cases found with
  | none => exact spends_over sane
  | some callflow => exact spends_goOn sane (listed callflow rfl) (Nat.zero_le _)

theorem get_callflow_mem {tenant_id uuid : String} {callflow : CallFlow}
    (found : get_callflow config tenant_id uuid = some callflow) : callflow ∈ config.callflows := by
  unfold get_callflow at found
  exact List.mem_of_find?_eq_some (Option.filter_eq_some_iff.mp found).1

theorem get_user_mem {tenant_id uuid : String} {user : User}
    (found : get_user config tenant_id uuid = some user) : user ∈ config.users := by
  unfold get_user at found
  exact List.mem_of_find?_eq_some (Option.filter_eq_some_iff.mp found).1

theorem diary_callflow_mem {tenant_id : String} {record : Option String} {callflow : CallFlow}
    (found : record.bind (get_callflow config tenant_id) = some callflow) :
    callflow ∈ config.callflows := by
  obtain ⟨uuid, _, found⟩ := Option.bind_eq_some_iff.mp found
  exact get_callflow_mem found

theorem switch_internal_number_spends (sane : Sane config height state) {entry : Entry}
    (stands : state.place = .switch entry) (number : Number) (choice : Choice) :
    Spends config height state (switch_internal_number config number choice state) := by
  unfold switch_internal_number
  dsimp only
  split
  · exact spends_over sane
  · split
    · apply spends_goOn sane
      · trivial
      · simp only [pending, stands, State.goOn]
        omega
    · split
      · split
        · exact of_callflow_spends sane fun _ => diary_callflow_mem
        · exact spends_over sane
      · exact of_callflow_spends sane fun _ => get_callflow_mem

theorem of_extension_spends (sane : Sane config height state) {entry : Entry}
    (stands : state.place = .switch entry) (force_leave_message : Bool) (found : Option Extension) :
    Spends config height state (state.ofExtension force_leave_message found) := by
  cases found with
  | none => exact spends_over sane
  | some extension =>
    apply spends_goOn sane
    · trivial
    · simp only [pending, stands, State.goOn]
      omega

theorem single_depth : flowDepth single = 0 := by
  decide

theorem switch_spends (sane : Sane config height state) {entry : Entry}
    (stands : state.place = .switch entry) (choice : Choice) :
    Spends config height state (switch config entry choice state) := by
  have placed := sane.placed
  rw [stands] at placed
  cases entry with
  | extension tenant_id number to_voicemail_message =>
    exact of_extension_spends sane stands to_voicemail_message _
  | user user =>
    apply spends_goOn sane
    · trivial
    · simp only [pending, stands, State.goOn]
      omega
  | number number => exact switch_internal_number_spends sane stands number choice
  | outside tenant_id =>
    apply spends_goOn sane
    · simp [Placed, single_depth]
    · simp only [pending, stands, State.goOn, single_depth]
      omega
  | content tenant_id flow =>
    have within : flowDepth flow ≤ height := placed
    apply spends_goOn sane
    · exact within
    · simp only [pending, stands, State.goOn]
      omega

theorem switch_extension_spends (sane : Sane config height state) {extension : Extension}
    {force_leave_message : Bool} (stands : state.place = .switch_extension extension force_leave_message) :
    Spends config height state (switch_extension config extension force_leave_message state) := by
  unfold switch_extension
  split
  · split
    · exact spends_over sane
    · apply spends_goOn sane
      · trivial
      · simp only [pending, stands, State.goOn]
        omega
  · apply spends_goOn sane
    · simp [Placed, single_depth]
    · simp only [pending, stands, State.goOn, single_depth]
      omega
  · exact of_callflow_spends sane fun _ => get_callflow_mem
  · exact spends_over sane
  · exact spends_over sane

/-- There are no more users to route to than the configuration has. -/
theorem visited_lt (sane : Sane config height state) {user : User} (listed : user ∈ config.users)
    (new : user.uuid ∉ state.visited) :
    Sane config height { state with visited := user.uuid :: state.visited } ∧
      state.visited.length < config.users.length := by
  have once : (user.uuid :: state.visited).Nodup := List.nodup_cons.mpr ⟨new, sane.once⟩
  have users : user.uuid :: state.visited ⊆ config.users.map (·.uuid) :=
    List.cons_subset.mpr ⟨List.mem_map_of_mem listed, sane.users⟩
  refine ⟨⟨sane.placed, once, users⟩, ?_⟩
  have shorter := (once.subperm users).length_le
  simp only [List.length_cons, List.length_map] at shorter
  omega

theorem switch_user_spends (high : High config height) (sane : Sane config height state)
    {tenant_id user_id : String} (stands : state.place = .switch_user tenant_id user_id)
    (notAgain : ∀ user, get_user config tenant_id user_id = some user →
      user.uuid ∉ state.visited) :
    Spends config height state (switch_user config tenant_id user_id state) := by
  unfold switch_user
  cases found : get_user config tenant_id user_id with
  | none => exact spends_over sane
  | some user =>
    dsimp only
    cases isFlow : get_sipuser_flow user state.context with
    | none => exact spends_over sane
    | some flow =>
      have listed := get_user_mem found
      obtain ⟨more, fewer⟩ := visited_lt sane listed (notAgain user found)
      have deep := sipuser_flow_depth isFlow
      have within := high.users user listed
      refine ⟨⟨?_, more.once, more.users⟩, ?_⟩
      · exact le_trans deep within
      · -- One user less makes up for all contents of the user.
        have one : perUser height * (config.users.length - state.visited.length) =
            perUser height * (config.users.length - (state.visited.length + 1)) +
              perUser height := by
          rw [← Nat.mul_succ]
          congr 1
          omega
        simp only [ahead, pending, stands, List.length_cons]
        have same : left config
            { state with place := .callflow user.tenant_id flow, visited := user.uuid :: state.visited } =
            left config state := rfl
        rw [same, one]
        simp only [perUser]
        omega

theorem left_counters {counters : String → Nat}
    (more : ∀ uuid, state.counters uuid ≤ counters uuid) :
    left config { state with counters := counters } ≤ left config state := by
  have fewer : (config.callflows.map fun callflow => 100 - counters callflow.uuid).sum ≤
      (config.callflows.map fun callflow => 100 - state.counters callflow.uuid).sum := by
    apply List.sum_le_sum
    intro callflow _
    have := more callflow.uuid
    omega
  unfold left
  dsimp only
  omega

theorem left_counted {callflow : CallFlow} (listed : callflow ∈ config.callflows)
    (counted : state.counters callflow.uuid < 100) :
    left config { state with
      counters := Function.update state.counters callflow.uuid
        (state.counters callflow.uuid + 1) } + 1 ≤ left config state := by
  have fewer : (config.callflows.map fun other => 100 -
      Function.update state.counters callflow.uuid (state.counters callflow.uuid + 1)
        other.uuid).sum <
      (config.callflows.map fun other => 100 - state.counters other.uuid).sum := by
    apply List.sum_lt_sum
    · intro other _
      by_cases same : other.uuid = callflow.uuid
      · rw [same, Function.update_self]
        omega
      · rw [Function.update_of_ne same]
    · refine ⟨callflow, listed, ?_⟩
      rw [Function.update_self]
      omega
  unfold left
  dsimp only
  omega

theorem switch_callflow_spends (high : High config height) (sane : Sane config height state)
    {callflow : CallFlow} (stands : state.place = .switch_callflow callflow) (choice : Choice) :
    Spends config height state (switch_callflow callflow choice state) := by
  have listed : callflow ∈ config.callflows := by
    have placed := sane.placed
    rw [stands] at placed
    exact placed
  have ends : ∀ counters : String → Nat, (∀ uuid, state.counters uuid ≤ counters uuid) →
      Spends config height state { state with counters := counters, place := .over } := by
    intro counters more
    refine ⟨⟨trivial, sane.once, sane.users⟩, ?_⟩
    have kept : left config { state with counters := counters } ≤ left config state :=
      left_counters more
    have fewer := Nat.mul_le_mul_left (perCount config height) kept
    have same : left config { state with counters := counters, place := .over } =
        left config { state with counters := counters } := rfl
    simp only [ahead, pending, same]
    omega
  have more : ∀ uuid, state.counters uuid ≤
      Function.update state.counters callflow.uuid (state.counters callflow.uuid + 1) uuid := by
    intro uuid
    by_cases same : uuid = callflow.uuid
    · rw [same, Function.update_self]
      omega
    · rw [Function.update_of_ne same]
  unfold switch_callflow
  dsimp only
  split
  · exact ends _ more
  · split
    · exact ends _ more
    · have within := high.callflows callflow listed
      apply spends_use_up
      · exact ⟨within, List.nodup_nil, List.nil_subset _⟩
      · exact left_counted listed (by omega)
      · exact Nat.le_succ _
      · simp only [pending, per_count_eq, List.length_nil, Nat.sub_zero, perUser]
        omega

theorem start_spends (sane : Sane config height state) {tenant_id : String} {flow : Flow}
    (stands : state.place = .callflow tenant_id flow) (choice : Choice) :
    Spends config height state (start tenant_id flow choice state) := by
  have within : flowDepth flow ≤ height := by
    have placed := sane.placed
    rw [stands] at placed
    exact placed
  unfold start
  dsimp only
  split
  · apply spends_to sane
    · exact ⟨within, Nat.zero_le _⟩
    · simp only [pending, stands, State.goOn]
      omega
  · apply spends_to sane
    · trivial
    · simp only [pending, stands, State.goOn]
      omega

/-- What a module may end with. -/
inductive Led (config : Config) (module : Module) : Outcome → Prop where
  | next (key : String) : Led config module (.next key)
  | no_next : Led config module .no_next
  | callflow {callflow : CallFlow} (listed : callflow ∈ config.callflows) :
    Led config module (.callflow callflow)
  | content {flow : Flow} (isContent : module.callflow_content = some flow) :
    Led config module (.content flow)
  | forward {extension : Extension} (leads : module.name = .forwardcall) :
    Led config module (.forward extension)
  | backup {extension : Extension} (leads : module.name = .backupextension) :
    Led config module (.backup extension)

variable {module : Module}

theorem led_ofNext (next : Option String) : Led config module (.ofNext next) := by
  cases next with
  | none => exact Led.no_next
  | some key => exact Led.next key

theorem led_ofCallflow {found : Option CallFlow}
    (listed : ∀ callflow, found = some callflow → callflow ∈ config.callflows) :
    Led config module (.ofCallflow found) := by
  cases found with
  | none => exact Led.no_next
  | some callflow => exact Led.callflow (listed callflow rfl)

theorem switch_dialled_led (tenant_uuid : String) (extension : Extension)
    (value : String → Option String) (choice : Choice) :
    Led config module (switch_dialled config tenant_uuid extension value choice) := by
  have bridge : Led config module (dialled value choice.bridge) := by
    unfold dialled
    split
    · exact Led.no_next
    · exact led_ofNext _
  unfold switch_dialled
  split
  · exact led_ofCallflow fun _ => get_callflow_mem
  · exact bridge
  · exact bridge
  · exact Led.no_next

theorem switch_pressextension_led (tenant_uuid : String) (choice : Choice) :
    Led config module (switch_pressextension config tenant_uuid module choice) := by
  unfold switch_pressextension
  split
  · exact led_ofNext _
  · split
    · exact Led.next _
    · dsimp only
      split
      · exact switch_dialled_led _ _ _ _
      · exact led_ofNext _

theorem switch_dialbyextension_led (tenant_uuid : String) (choice : Choice) :
    Led config module (switch_dialbyextension config tenant_uuid module choice) := by
  unfold switch_dialbyextension
  split
  · exact led_ofNext _
  · split
    · exact led_ofNext _
    · exact switch_dialled_led _ _ _ _

theorem switch_backupextension_led (tenant_uuid : String) (leads : module.name = .backupextension) :
    Led config module (switch_backupextension config tenant_uuid module) := by
  unfold switch_backupextension
  split
  · split
    · exact Led.backup leads
    · exact Led.no_next
  · exact Led.no_next

theorem switch_forward_call_led (tenant_uuid : String) (leads : module.name = .forwardcall) :
    Led config module (switch_forward_call config tenant_uuid module) := by
  unfold switch_forward_call
  split
  · split
    · exact Led.forward leads
    · exact Led.no_next
  · exact Led.no_next

theorem switch_callqueue_led (choice : Choice) :
    Led config module (switch_callqueue module choice) := by
  unfold switch_callqueue
  cases choice.queue with
  | Fail => exact Led.no_next
  | _ => exact led_ofNext _

theorem switch_diary_led (tenant_uuid : String) (choice : Choice) :
    Led config module (switch_diary config tenant_uuid module choice) := by
  unfold switch_diary
  split
  · exact led_ofCallflow fun _ => diary_callflow_mem
  · exact Led.no_next

theorem switch_callflow_content_led : Led config module (switch_callflow_content module) := by
  unfold switch_callflow_content
  split
  · exact Led.content ‹_›
  · exact Led.no_next

theorem execute_led (tenant_uuid : String) (choice : Choice) :
    Led config module (execute config tenant_uuid module choice) := by
  unfold execute
  split
  · exact Led.no_next
  · cases named : module.name with
    | pressextension => exact switch_pressextension_led tenant_uuid choice
    | dialbyextension => exact switch_dialbyextension_led tenant_uuid choice
    | backupextension => exact switch_backupextension_led tenant_uuid named
    | forwardcall => exact switch_forward_call_led tenant_uuid named
    | callqueue => exact switch_callqueue_led choice
    | callflow => exact led_ofCallflow fun _ => diary_callflow_mem
    | diary => exact switch_diary_led tenant_uuid choice
    | callflowcontent => exact switch_callflow_content_led
    | offnetconnect =>
      dsimp only [switch_offnet_connect]
      split
      · exact Led.no_next
      · exact led_ofNext _
    | musiconhold | play | recording | sleep | extension | outofhours | calleridmatch =>
      exact led_ofNext _
    | _ => exact Led.no_next

/-- A flag that was set before is none that the step uses up, and one that was not is. -/
theorem leads_spends (sane : Sane config height state) {tenant_uuid key : String} {flow : Flow}
    {n : Nat} (stands : state.place = .switching tenant_uuid flow key n) (deep : 0 < flowDepth flow)
    (extension : Extension) {context : Context} {again : Bool}
    (unused : again = true → left config { state with context := context } ≤ left config state)
    (used : again = false → left config { state with context := context } + 1 ≤ left config state) :
    Spends config height state { state with
      context := context
      place := .switch_extension extension false
      executed := state.executed + 1
      visited := if again then state.visited else [] } := by
  cases again with
  | true =>
    refine ⟨⟨trivial, sane.once, sane.users⟩, ?_⟩
    have fewer := Nat.mul_le_mul_left (perCount config height) (unused rfl)
    have before : pending config height state =
        perUser height * (config.users.length - state.visited.length) +
          3000 * flowDepth flow + (1001 - n) := by
      simp only [pending, stands]
    have after : ahead config height { state with
        context := context, place := .switch_extension extension false,
        executed := state.executed + 1 } =
        perCount config height * left config { state with context := context } +
          (perUser height * (config.users.length - state.visited.length) + 1500) := rfl
    simp only [if_true, after]
    unfold ahead
    omega
  | false =>
    apply spends_use_up
    · exact ⟨trivial, List.nodup_nil, List.nil_subset _⟩
    · exact used rfl
    · dsimp only
      omega
    · simp only [pending, per_count_eq, Bool.false_eq_true, if_false, List.length_nil, Nat.sub_zero,
        perUser]
      omega

theorem switch_module_spends (sane : Sane config height state) {tenant_uuid key : String}
    {flow : Flow} {n : Nat} (stands : state.place = .switching tenant_uuid flow key n)
    (choice : Choice) :
    Spends config height state (switch_module config tenant_uuid flow key n choice state) := by
  obtain ⟨within, _⟩ : flowDepth flow ≤ height ∧ n ≤ 1000 := by
    have placed := sane.placed
    rw [stands] at placed
    exact placed
  unfold switch_module
  cases found : flow.lookup key with
  | none => exact spends_over sane
  | some module =>
    dsimp only
    split
    · exact spends_over sane
    · have led : Led config module (execute config tenant_uuid module choice) :=
        execute_led tenant_uuid choice
      generalize execute config tenant_uuid module choice = outcome at led
      cases led with
      | next next =>
        apply spends_to sane
        · exact ⟨within, by omega⟩
        · simp only [pending, stands, State.goOn]
          omega
      | no_next =>
        apply spends_to sane
        · trivial
        · simp only [pending, stands, State.goOn]
          omega
      | callflow listed =>
        apply spends_to sane
        · exact listed
        · simp only [pending, stands, State.goOn]
          omega
      | @content content isContent =>
        have lower := content_depth_lt found isContent
        have contentWithin : flowDepth content ≤ height := by omega
        apply spends_to sane
        · exact contentWithin
        · simp only [pending, stands, State.goOn]
          omega
      | @forward extension leads =>
        apply leads_spends sane stands (leading_depth_pos found (Or.inl leads))
        · intro again
          simp [left, again]
        · intro again
          simp only [left, again, Bool.false_eq_true, if_true, if_false]
          omega
      | @backup extension leads =>
        apply leads_spends sane stands (leading_depth_pos found (Or.inr leads))
        · intro again
          simp [left, again]
        · intro again
          simp only [left, again, Bool.false_eq_true, if_true, if_false]
          omega

theorem step_spends (high : High config height) (sane : Sane config height state) {choice : Choice}
    {after : State} (notAgain : NotAgain config state choice)
    (stepped : routing config state choice = some after) : Spends config height state after := by
  have orOver : ∀ next : State → State, Spends config height state (next state) →
      Spends config height state (state.orFail choice.fails next) := by
    intro next spends
    unfold State.orFail
    split
    · exact spends_over sane
    · exact spends
  unfold routing at stepped
  cases stands : state.place with
  | switch entry =>
    rw [stands] at stepped
    cases stepped
    exact orOver _ (switch_spends sane stands choice)
  | switch_extension extension force_leave_message =>
    rw [stands] at stepped
    cases stepped
    exact orOver _ (switch_extension_spends sane stands)
  | switch_user tenant_id user_id =>
    rw [stands] at stepped
    cases stepped
    exact orOver _ (switch_user_spends high sane stands fun user found =>
      notAgain tenant_id user_id user stands found)
  | switch_callflow callflow =>
    rw [stands] at stepped
    cases stepped
    exact switch_callflow_spends high sane stands choice
  | callflow tenant_id flow =>
    rw [stands] at stepped
    cases stepped
    exact orOver _ (start_spends sane stands choice)
  | switching tenant_uuid flow key n =>
    rw [stands] at stepped
    cases stepped
    exact switch_module_spends sane stands choice
  | «over» =>
    rw [stands] at stepped
    cases stepped

end

theorem height_high (config : Config) (entry : Entry) :
    High config (height config entry) := by
  constructor
  · unfold height
    omega
  · intro user listed
    have one := List.le_sum_of_mem (List.mem_map_of_mem (f := userDepth) listed)
    unfold height
    omega
  · intro callflow listed
    have one := List.le_sum_of_mem
      (List.mem_map_of_mem (f := fun callflow : CallFlow => flowDepth callflow.flow) listed)
    unfold height
    omega

theorem counters_fresh (config : Config) :
    (config.callflows.map fun _ => 100 - 0).sum = 100 * config.callflows.length := by
  simp [Nat.mul_comm]

theorem incoming_ahead (config : Config) (context : Context) (entry : Entry) :
    ahead config (height config entry) (incoming context entry) ≤ bound config entry := by
  have flags : left config (incoming context entry) ≤ 100 * config.callflows.length + 2 := by
    unfold left incoming
    dsimp only
    rw [counters_fresh]
    split <;> split <;> omega
  have first := Nat.mul_le_mul_left (perCount config (height config entry)) flags
  have rest : pending config (height config entry) (incoming context entry) ≤
      perCount config (height config entry) := by
    simp only [pending, incoming, per_count_eq, List.length_nil, Nat.sub_zero, perUser]
    omega
  unfold ahead bound
  rw [show 100 * config.callflows.length + 3 = (100 * config.callflows.length + 2) + 1 from rfl,
    Nat.mul_succ]
  omega

/-- In every run in which no user comes round again before a counter or a flag is used up. -/
theorem routing_bounded (config : Config) (context : Context) (entry : Entry) (last : State)
    (run : Run (routing config) (NotAgain config) (incoming context entry) last) :
    last.executed + last.activated ≤ bound config entry := by
  have held : Sane config (height config entry) last ∧
      last.executed + last.activated + ahead config (height config entry) last ≤
        bound config entry := by
    apply run_keeps (fun state => Sane config (height config entry) state ∧
      state.executed + state.activated + ahead config (height config entry) state ≤
        bound config entry) _ _ run
    · refine ⟨⟨?_, List.nodup_nil, List.nil_subset _⟩, ?_⟩
      · unfold Placed incoming height
        dsimp only
        omega
      · have first := incoming_ahead config context entry
        unfold incoming at *
        dsimp only
        omega
    · rintro state choice after ⟨sane, spent⟩ notAgain stepped
      have spends := step_spends (height_high config entry) sane notAgain stepped
      exact ⟨spends.sane, le_trans spends.cost spent⟩
  omega

end RoutingBound
