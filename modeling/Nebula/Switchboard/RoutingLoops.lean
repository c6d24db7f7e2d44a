import Nebula.Switchboard.RoutingBound

/- A call that comes round to a user again, with no counter and no flag used up in between,
   can come round as often as one likes. -/
namespace RoutingLoops
open Runs CallRouting RoutingBound

/-- The other state goes on in the same way, having done more. -/
structure Ahead (more : Nat) (state other : State) : Prop where
  context : other.context = state.context
  counters : other.counters = state.counters
  place : other.place = state.place
  spent : other.executed + other.activated = state.executed + state.activated + more

section
variable {config : Config} {more : Nat} {state other : State}

theorem go_on_ahead (ahead : Ahead more state other) (place : Place) :
    Ahead more (state.goOn place) (other.goOn place) :=
  ⟨ahead.context, ahead.counters, rfl, ahead.spent⟩

theorem of_callflow_ahead (ahead : Ahead more state other) (found : Option CallFlow) :
    Ahead more (state.ofCallflow found) (other.ofCallflow found) := by
  cases found with
  | none => exact go_on_ahead ahead _
  | some callflow => exact go_on_ahead ahead _

theorem of_extension_ahead (ahead : Ahead more state other) (force_leave_message : Bool)
    (found : Option Extension) :
    Ahead more (state.ofExtension force_leave_message found)
      (other.ofExtension force_leave_message found) := by
  cases found with
  | none => exact go_on_ahead ahead _
  | some extension => exact go_on_ahead ahead _

theorem switch_internal_number_ahead (ahead : Ahead more state other) (number : Number)
    (choice : Choice) :
    Ahead more (switch_internal_number config number choice state)
      (switch_internal_number config number choice other) := by
  unfold switch_internal_number
  dsimp only
  split
  · exact go_on_ahead ahead _
  · split
    · exact go_on_ahead ahead _
    · split
      · cases get_diary config (number.tenant_id.getD "") (number.diary_id.getD "") with
        | none => exact go_on_ahead ahead _
        | some diary => exact of_callflow_ahead ahead _
      · exact of_callflow_ahead ahead _

theorem switch_ahead (ahead : Ahead more state other) (entry : Entry) (choice : Choice) :
    Ahead more (switch config entry choice state) (switch config entry choice other) := by
  cases entry with
  | extension tenant_id number to_voicemail_message => exact of_extension_ahead ahead _ _
  | user user => exact go_on_ahead ahead _
  | number number => exact switch_internal_number_ahead ahead number choice
  | outside tenant_id => exact go_on_ahead ahead _
  | content tenant_id flow => exact go_on_ahead ahead _

theorem switch_extension_ahead (ahead : Ahead more state other) (extension : Extension)
    (force_leave_message : Bool) :
    Ahead more (switch_extension config extension force_leave_message state)
      (switch_extension config extension force_leave_message other) := by
  unfold switch_extension
  cases extension.discriminator with
  | sipuser => cases force_leave_message <;> exact go_on_ahead ahead _
  | callflow => exact of_callflow_ahead ahead _
  | huntgroup | voicemailmenu | other => exact go_on_ahead ahead _

theorem switch_user_ahead (ahead : Ahead more state other) (tenant_id user_id : String) :
    Ahead more (switch_user config tenant_id user_id state)
      (switch_user config tenant_id user_id other) := by
  unfold switch_user
  rw [ahead.context]
  cases get_user config tenant_id user_id with
  | none => exact go_on_ahead ahead _
  | some user =>
    dsimp only
    cases get_sipuser_flow user state.context with
    | none => exact go_on_ahead ahead _
    | some flow => exact ⟨rfl, ahead.counters, rfl, ahead.spent⟩

theorem switch_callflow_ahead (ahead : Ahead more state other) (callflow : CallFlow)
    (choice : Choice) :
    Ahead more (switch_callflow callflow choice state) (switch_callflow callflow choice other) := by
  unfold switch_callflow
  rw [ahead.counters]
  dsimp only
  split
  · exact ⟨ahead.context, rfl, rfl, ahead.spent⟩
  · split
    · exact ⟨ahead.context, rfl, rfl, ahead.spent⟩
    · exact ⟨ahead.context, rfl, rfl, ahead.spent⟩

theorem start_ahead (ahead : Ahead more state other) (tenant_id : String) (flow : Flow)
    (choice : Choice) :
    Ahead more (start tenant_id flow choice state) (start tenant_id flow choice other) := by
  have activated : other.executed + (other.activated + 1) =
      state.executed + (state.activated + 1) + more := by
    have := ahead.spent
    omega
  unfold start
  dsimp only
  cases (flow.filter fun entry => entry.2.name = .start)[choice.start]?.bind
      (fun entry => entry.2.module_value "next") with
  | none => exact ⟨ahead.context, ahead.counters, rfl, activated⟩
  | some next => exact ⟨ahead.context, ahead.counters, rfl, activated⟩

theorem switch_module_ahead (ahead : Ahead more state other) (tenant_uuid : String) (flow : Flow)
    (key : String) (n : Nat) (choice : Choice) :
    Ahead more (switch_module config tenant_uuid flow key n choice state)
      (switch_module config tenant_uuid flow key n choice other) := by
  have executed : other.executed + 1 + other.activated =
      state.executed + 1 + state.activated + more := by
    have := ahead.spent
    omega
  unfold switch_module
  cases flow.lookup key with
  | none => exact go_on_ahead ahead _
  | some module =>
    dsimp only
    split
    · exact go_on_ahead ahead _
    · rw [ahead.context]
      cases execute config tenant_uuid module choice with
      | next next => exact ⟨rfl, ahead.counters, rfl, executed⟩
      | no_next => exact ⟨rfl, ahead.counters, rfl, executed⟩
      | callflow callflow => exact ⟨rfl, ahead.counters, rfl, executed⟩
      | content content => exact ⟨rfl, ahead.counters, rfl, executed⟩
      | forward extension => exact ⟨rfl, ahead.counters, rfl, executed⟩
      | backup extension => exact ⟨rfl, ahead.counters, rfl, executed⟩

/-- What has been done, and for whom, decides nothing. -/
theorem step_ahead (ahead : Ahead more state other) {choice : Choice} {after : State}
    (stepped : routing config state choice = some after) :
    ∃ otherAfter, routing config other choice = some otherAfter ∧ Ahead more after otherAfter := by
  have orFail : ∀ next : State → State, Ahead more (next state) (next other) →
      Ahead more (state.orFail choice.fails next) (other.orFail choice.fails next) := by
    intro next alike
    unfold State.orFail
    split
    · exact go_on_ahead ahead _
    · exact alike
  unfold routing at stepped ⊢
  rw [ahead.place]
  cases stands : state.place with
  | switch entry =>
    rw [stands] at stepped
    cases stepped
    exact ⟨_, rfl, orFail _ (switch_ahead ahead entry choice)⟩
  | switch_extension extension force_leave_message =>
    rw [stands] at stepped
    cases stepped
    exact ⟨_, rfl, orFail _ (switch_extension_ahead ahead extension force_leave_message)⟩
  | switch_user tenant_id user_id =>
    rw [stands] at stepped
    cases stepped
    exact ⟨_, rfl, orFail _ (switch_user_ahead ahead tenant_id user_id)⟩
  | switch_callflow callflow =>
    rw [stands] at stepped
    cases stepped
    exact ⟨_, rfl, switch_callflow_ahead ahead callflow choice⟩
  | callflow tenant_id flow =>
    rw [stands] at stepped
    cases stepped
    exact ⟨_, rfl, orFail _ (start_ahead ahead tenant_id flow choice)⟩
  | switching tenant_uuid flow key n =>
    rw [stands] at stepped
    cases stepped
    exact ⟨_, rfl, switch_module_ahead ahead tenant_uuid flow key n choice⟩
  | «over» =>
    rw [stands] at stepped
    cases stepped

theorem ahead_trans {less : Nat} {third : State} (first : Ahead less state other)
    (second : Ahead more other third) : Ahead (less + more) state third := by
  constructor
  · rw [second.context, first.context]
  · rw [second.counters, first.counters]
  · rw [second.place, first.place]
  · have := first.spent
    have := second.spent
    omega

/-- What a step does with the users that the call has been routed to. -/
inductive Stepped (config : Config) (state : State) : State → Prop where
  | over {after : State} (ends : after.place = .over) : Stepped config state after
  | cleared {after : State} (none : after.visited = []) : Stepped config state after
  | kept {after : State} (context : after.context = state.context)
    (counters : after.counters = state.counters) (visited : after.visited = state.visited)
    (grows : state.executed + state.activated ≤ after.executed + after.activated)
    (starts : ∀ tenant_id flow, state.place = .callflow tenant_id flow →
      state.executed + state.activated < after.executed + after.activated) :
    Stepped config state after
  | user {tenant_id user_id : String} {user : User} {flow : Flow}
    (stands : state.place = .switch_user tenant_id user_id)
    (found : get_user config tenant_id user_id = some user)
    (isFlow : get_sipuser_flow user state.context = some flow) :
    Stepped config state { state with
      place := .callflow user.tenant_id flow, visited := user.uuid :: state.visited }

theorem go_on_stepped {place : Place}
    (elsewhere : ∀ tenant_id flow, state.place ≠ .callflow tenant_id flow) :
    Stepped config state (state.goOn place) :=
  Stepped.kept rfl rfl rfl (Nat.le_refl _)
    fun tenant_id flow stands => absurd stands (elsewhere tenant_id flow)

theorem of_callflow_stepped (found : Option CallFlow)
    (elsewhere : ∀ tenant_id flow, state.place ≠ .callflow tenant_id flow) :
    Stepped config state (state.ofCallflow found) := by
  cases found with
  | none => exact go_on_stepped elsewhere
  | some callflow => exact go_on_stepped elsewhere

theorem of_extension_stepped (force_leave_message : Bool) (found : Option Extension)
    (elsewhere : ∀ tenant_id flow, state.place ≠ .callflow tenant_id flow) :
    Stepped config state (state.ofExtension force_leave_message found) := by
  cases found with
  | none => exact go_on_stepped elsewhere
  | some extension => exact go_on_stepped elsewhere

theorem switch_internal_number_stepped (number : Number) (choice : Choice)
    (elsewhere : ∀ tenant_id flow, state.place ≠ .callflow tenant_id flow) :
    Stepped config state (switch_internal_number config number choice state) := by
  unfold switch_internal_number
  dsimp only
  split
  · exact go_on_stepped elsewhere
  · split
    · exact go_on_stepped elsewhere
    · split
      · split
        · exact of_callflow_stepped _ elsewhere
        · exact go_on_stepped elsewhere
      · exact of_callflow_stepped _ elsewhere

theorem switch_stepped (entry : Entry) (choice : Choice)
    (elsewhere : ∀ tenant_id flow, state.place ≠ .callflow tenant_id flow) :
    Stepped config state (switch config entry choice state) := by
  cases entry with
  | extension tenant_id number to_voicemail_message =>
    exact of_extension_stepped to_voicemail_message _ elsewhere
  | user user => exact go_on_stepped elsewhere
  | number number => exact switch_internal_number_stepped number choice elsewhere
  | outside tenant_id => exact go_on_stepped elsewhere
  | content tenant_id flow => exact go_on_stepped elsewhere

theorem switch_extension_stepped (extension : Extension) (force_leave_message : Bool)
    (elsewhere : ∀ tenant_id flow, state.place ≠ .callflow tenant_id flow) :
    Stepped config state (switch_extension config extension force_leave_message state) := by
  unfold switch_extension
  split
  · split
    · exact go_on_stepped elsewhere
    · exact go_on_stepped elsewhere
  · exact go_on_stepped elsewhere
  · exact of_callflow_stepped _ elsewhere
  · exact go_on_stepped elsewhere
  · exact go_on_stepped elsewhere

theorem switch_user_stepped {tenant_id user_id : String}
    (stands : state.place = .switch_user tenant_id user_id) :
    Stepped config state (switch_user config tenant_id user_id state) := by
  unfold switch_user
  cases found : get_user config tenant_id user_id with
  | none => exact Stepped.over rfl
  | some user =>
    dsimp only
    cases isFlow : get_sipuser_flow user state.context with
    | none => exact Stepped.over rfl
    | some flow => exact Stepped.user stands found isFlow

theorem switch_callflow_stepped (callflow : CallFlow) (choice : Choice) :
    Stepped config state (switch_callflow callflow choice state) := by
  unfold switch_callflow
  dsimp only
  split
  · exact Stepped.over rfl
  · split
    · exact Stepped.over rfl
    · exact Stepped.cleared rfl

theorem start_stepped (tenant_id : String) (flow : Flow) (choice : Choice) :
    Stepped config state (start tenant_id flow choice state) := by
  unfold start
  dsimp only
  split
  · exact Stepped.kept rfl rfl rfl (Nat.le_succ _) fun _ _ _ => Nat.lt_succ_self _
  · exact Stepped.over rfl

theorem switch_module_stepped {tenant_uuid : String} {flow : Flow} {key : String} {n : Nat}
    (stands : state.place = .switching tenant_uuid flow key n) (choice : Choice) :
    Stepped config state (switch_module config tenant_uuid flow key n choice state) := by
  have elsewhere : ∀ tenant_id flow, state.place ≠ .callflow tenant_id flow := by
    intro tenant_id flow same
    rw [stands] at same
    cases same
  have executed {after : State} (context : after.context = state.context)
      (counters : after.counters = state.counters) (visited : after.visited = state.visited)
      (one : after.executed = state.executed + 1) (none : after.activated = state.activated) :
      Stepped config state after := by
    apply Stepped.kept context counters visited
    · omega
    · intro tenant_id flow same
      exact absurd same (elsewhere tenant_id flow)
  unfold switch_module
  cases flow.lookup key with
  | none => exact Stepped.over rfl
  | some module =>
    dsimp only
    split
    · exact Stepped.over rfl
    · cases execute config tenant_uuid module choice with
      | next next => exact executed rfl rfl rfl rfl rfl
      | no_next => exact Stepped.over rfl
      | callflow callflow => exact executed rfl rfl rfl rfl rfl
      | content content => exact executed rfl rfl rfl rfl rfl
      | forward extension =>
        cases again : state.context.forward with
        | false => exact Stepped.cleared rfl
        | true => exact executed (by simp [← again]) rfl rfl rfl rfl
      | backup extension =>
        cases again : state.context.backup with
        | false => exact Stepped.cleared rfl
        | true => exact executed (by simp [← again]) rfl rfl rfl rfl

theorem step_stepped {choice : Choice} {after : State}
    (stepped : routing config state choice = some after) : Stepped config state after := by
  have orFail : ∀ next : State → State, Stepped config state (next state) →
      Stepped config state (state.orFail choice.fails next) := by
    intro next does
    unfold State.orFail
    split
    · exact Stepped.over rfl
    · exact does
  unfold routing at stepped
  cases stands : state.place with
  | switch entry =>
    rw [stands] at stepped
    cases stepped
    apply orFail
    apply switch_stepped
    simp [stands]
  | switch_extension extension force_leave_message =>
    rw [stands] at stepped
    cases stepped
    apply orFail
    apply switch_extension_stepped
    simp [stands]
  | switch_user tenant_id user_id =>
    rw [stands] at stepped
    cases stepped
    exact orFail _ (switch_user_stepped stands)
  | switch_callflow callflow =>
    rw [stands] at stepped
    cases stepped
    exact switch_callflow_stepped callflow choice
  | callflow tenant_id flow =>
    rw [stands] at stepped
    cases stepped
    exact orFail _ (start_stepped tenant_id flow choice)
  | switching tenant_uuid flow key n =>
    rw [stands] at stepped
    cases stepped
    exact switch_module_stepped stands choice
  | «over» =>
    rw [stands] at stepped
    cases stepped

/-- The call has been routed to the user before, with the flags and the counters that it
    has now, and what it has done since took it to where it is. -/
structure Before (config : Config) (state earlier : State) (user : User) (flow : Flow) : Prop where
  listed : config.users.find? (fun other => other.uuid = user.uuid) = some user
  isFlow : get_sipuser_flow user state.context = some flow
  stood : earlier.place = .callflow user.tenant_id flow
  context : earlier.context = state.context
  counters : earlier.counters = state.counters
  led : Reaches (routing config) earlier state
  since : state = earlier ∨
    earlier.executed + earlier.activated < state.executed + state.activated

/-- Each user that is remembered has been routed to before. -/
def Remembers (config : Config) (state : State) : Prop :=
  state.place ≠ .over → ∀ uuid ∈ state.visited, ∃ earlier user flow,
    user.uuid = uuid ∧ Before config state earlier user flow

/-- A user is found by the id. -/
theorem get_user_find {tenant_id user_id : String} {user : User}
    (found : get_user config tenant_id user_id = some user) :
    config.users.find? (fun other => other.uuid = user.uuid) = some user := by
  unfold get_user at found
  have listed := (Option.filter_eq_some_iff.mp found).1
  have same : user.uuid = user_id := by
    simpa using List.find?_some listed
  rwa [same]

theorem before_since {earlier : State} {user : User} {flow : Flow}
    (before : Before config state earlier user flow) {tenant_id user_id : String}
    (stands : state.place = .switch_user tenant_id user_id) :
    earlier.executed + earlier.activated < state.executed + state.activated := by
  rcases before.since with now | since
  · have stood := before.stood
    rw [← now, stands] at stood
    cases stood
  · exact since

theorem step_remembers (remembers : Remembers config state) {choice : Choice} {after : State}
    (stepped : routing config state choice = some after) : Remembers config after := by
  intro on uuid listed
  have going : state.place ≠ .over := by
    intro ended
    rw [routing, ended] at stepped
    cases stepped
  have again {earlier : State} {user : User} {flow : Flow}
      (before : Before config state earlier user flow) (context : after.context = state.context)
      (counters : after.counters = state.counters)
      (since : earlier.executed + earlier.activated < after.executed + after.activated) :
      Before config after earlier user flow := by
    refine ⟨before.listed, ?_, before.stood, ?_, ?_, ?_, Or.inr since⟩
    · rw [context]
      exact before.isFlow
    · rw [context]
      exact before.context
    · rw [counters]
      exact before.counters
    · exact Run.next before.led trivial stepped
  cases step_stepped stepped with
  | «over» ends => exact absurd ends on
  | cleared none =>
    rw [none] at listed
    cases listed
  | kept context counters visited grows starts =>
    rw [visited] at listed
    obtain ⟨earlier, user, flow, same, before⟩ := remembers going uuid listed
    refine ⟨earlier, user, flow, same, again before context counters ?_⟩
    rcases before.since with now | since
    · subst now
      exact starts _ _ before.stood
    · omega
  | @user tenant_id user_id user flow stands found isFlow =>
    rcases List.mem_cons.mp listed with now | before
    · exact ⟨_, user, flow, now.symm, get_user_find found, isFlow, rfl, rfl, rfl, Run.start, Or.inl rfl⟩
    · obtain ⟨earlier, user, flow, same, before⟩ := remembers going uuid before
      have since := before_since before stands
      exact ⟨earlier, user, flow, same, again before rfl rfl since⟩

theorem reached_remembers {context : Context} {entry : Entry}
    (reached : Reaches (routing config) (incoming context entry) state) :
    Remembers config state := by
  apply run_keeps (Remembers config) _ _ reached
  · intro _ uuid listed
    cases listed
  · intro state choice after remembers _ stepped
    exact step_remembers remembers stepped

/-- A call that comes round to a user can do so any number of times. -/
theorem again_unbounded {choice : Choice} (remembers : Remembers config state)
    (again : ¬ NotAgain config state choice) (most : Nat) :
    ∃ last, Reaches (routing config) state last ∧ most < last.executed + last.activated := by
  obtain ⟨tenant_id, user_id, user, stands, found, listed⟩ : ∃ tenant_id user_id user,
      state.place = .switch_user tenant_id user_id ∧
        get_user config tenant_id user_id = some user ∧ user.uuid ∈ state.visited := by
    unfold NotAgain at again
    push Not at again
    exact again
  obtain ⟨earlier, same, flow, isUser, before⟩ := remembers (by simp [stands]) _ listed
  obtain rfl : same = user := by
    have one := before.listed
    rw [isUser, get_user_find found] at one
    exact (Option.some.inj one).symm
  have since := before_since before stands
  have stepped : routing config state {} = some { state with
      place := .callflow same.tenant_id flow, visited := same.uuid :: state.visited } := by
    simp [routing, stands, State.orFail, switch_user, found, before.isFlow]
  have round : Reaches (routing config) earlier { state with
      place := .callflow same.tenant_id flow, visited := same.uuid :: state.visited } :=
    Run.next before.led trivial stepped
  have gained : Ahead (state.executed + state.activated - (earlier.executed + earlier.activated))
      earlier { state with
        place := .callflow same.tenant_id flow, visited := same.uuid :: state.visited } := by
    refine ⟨before.context.symm, before.counters.symm, before.stood.symm, ?_⟩
    dsimp only
    omega
  have each : ∀ more state other choice after, Ahead more state other →
      routing config state choice = some after →
      ∃ otherAfter, routing config other choice = some otherAfter ∧ Ahead more after otherAfter :=
    fun _ _ _ _ _ ahead stepped => step_ahead ahead stepped
  obtain ⟨last, led, ahead⟩ := run_repeats Ahead each
    (fun _ _ _ _ _ first second => ahead_trans first second) round gained most
  refine ⟨last, run_trans (Run.next Run.start trivial stepped) led, ?_⟩
  have spent := ahead.spent
  have rounds : most + 1 ≤ (state.executed + state.activated -
      (earlier.executed + earlier.activated)) * (most + 1) :=
    Nat.le_mul_of_pos_left _ (by omega)
  omega

end

/-- A call is routed for a bounded time in every run in which no user comes round again
    before a counter or a flag is used up, and from where one does for as long as one likes. -/
theorem routing_terminates (config : Config) (context : Context) (entry : Entry) :
    (∀ last, Run (routing config) (NotAgain config) (incoming context entry) last →
      last.executed + last.activated ≤ bound config entry) ∧
    ∀ state choice, Reaches (routing config) (incoming context entry) state →
      ¬ NotAgain config state choice → ∀ most, ∃ last, Reaches (routing config) state last ∧
        most < last.executed + last.activated :=
  ⟨fun last run => routing_bounded config context entry last run,
    fun _ _ reached again most => again_unbounded (reached_remembers reached) again most⟩

/-- The only user forwards unanswered calls to the user's own extension. -/
def to_itself : Config where
  extensions := [⟨"t1", 200, .sipuser, "u1"⟩]
  users := [{
    uuid := "u1"
    tenant_id := "t1"
    extension := some 200
    call_handling := some {
      forward_internal := none
      forward_internal_number := none
      forward_external := none
      forward_external_number := none
      blind_transfer_return_to_sender := none
      busy_callflow := none
      noanswer_callflow := some (forwarding "200")
      unavailable_callflow := none
      busy_callflow_id := none
      noanswer_callflow_id := none
      unavailable_callflow_id := none }
    transfer_mailbox := false
    transfer_backup_extension := none
    voicemail := none }]
  callflows := []
  diaries := []

theorem to_itself_again :
    ∃ state, runAll (routing to_itself) (incoming ⟨false, false, true, false, false, none⟩
      (.extension "t1" 200 false)) (List.replicate 16 {}) = some state ∧
      state.place = .switch_user "t1" "u1" ∧ state.visited = ["u1"] :=
  ⟨_, rfl, rfl, rfl⟩

/-- A call to that user, which nobody answers, goes through the user's call handling
    without end. -/
theorem forwarded_to_itself :
    ¬ ∀ config context entry, ∃ most, ∀ last,
      Reaches (routing config) (incoming context entry) last →
        last.executed + last.activated ≤ most := by
  intro bounded
  obtain ⟨most, within⟩ := bounded to_itself ⟨false, false, true, false, false, none⟩
    (.extension "t1" 200 false)
  obtain ⟨state, ran, stands, visited⟩ := to_itself_again
  have reached := reaches_of_runAll _ ran
  have again : ¬ NotAgain to_itself state {} := by
    intro notAgain
    apply notAgain _ _ _ stands rfl
    rw [visited]
    exact List.mem_cons_self
  obtain ⟨last, led, spent⟩ := again_unbounded (reached_remembers reached) again most
  have bound := within last (run_trans reached led)
  omega

end RoutingLoops
