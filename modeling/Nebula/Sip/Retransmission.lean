import Nebula.Sip.TransactionTimers

/- The timers that resend. A client machine registers the timer anew whenever it fires. The
   INVITE server machine does not, so its final response is resent only once. -/
namespace Retransmission
open Sip Fsm Runs TransactionTimers

/-- The timer that resends in a state. -/
def resender : Kind → State → Option Input
  | .inviteClient, .Calling => some .TimerA
  | .nonInviteClient, .Trying => some .TimerE
  | .nonInviteClient, .Proceeding => some .TimerE
  | .inviteServer, .Completed => some .TimerG
  | _, _ => none

/-- The timer that resends is pending. -/
def Resends (key : TransactionKey) (tx : Tx) : Prop :=
  ∀ state timer, tx.stored = some state → resender (kind key) state = some timer →
    timer ∈ tx.timers

/-- An event that leads to a state with such a timer, from one without, registers it. -/
def RegisteredOnEntry (key : TransactionKey) : Guard Tx Event := fun tx event =>
  ∀ state after next timer, tx.stored = some state → transaction key tx event = some after →
    after.stored = some next → resender (kind key) state = none →
    resender (kind key) next = some timer → timer ∈ after.timers

/-- The timer G does not fire for a final response that still waits for its ACK. -/
def Spares (key : TransactionKey) : Guard Tx Event
  | tx, .fired _ .TimerG => ¬ (kind key = .inviteServer ∧ tx.stored = some .Completed)
  | _, _ => True

/-- How many timers G may be pending in a state of the INVITE server machine. -/
def limitG : State → Nat
  | .Proceeding => 0
  | _ => 1

/-- No more timers G are pending than the one of the final response. -/
def SingleG (key : TransactionKey) (tx : Tx) : Prop :=
  kind key = .inviteServer → ∀ state, tx.stored = some state →
    tx.timers.count .TimerG ≤ limitG state

section Passes
variable {kind : Kind} {env : Answers} {state : State} {input timer : Input} {done : Act}

/-- A pass from a state with a timer that resends to another such state: the timer is the same,
    and if it is what fired, it is registered again, other than by the INVITE server. -/
theorem resender_kept (ran : kindAction kind env state input = .ok done)
    (resent : resender kind state ≠ none) (after : resender kind done.state = some timer) :
    resender kind state = some timer ∧
      (input = timer → kind ≠ .inviteServer → timer ∈ registered done.effects) := by
  cases kind with
  | inviteClient =>
    cases state with
    | Calling =>
      cases input with
      | TimerA =>
        cases ran
        cases after
        exact ⟨rfl, fun _ _ => List.mem_singleton.mpr rfl⟩
      | _ => cases ran <;> cases after <;> exact ⟨rfl, by decide⟩
    | _ => exact absurd rfl resent
  | inviteServer =>
    cases state with
    | Completed => cases input <;> cases ran <;> cases after <;> exact ⟨rfl, by decide⟩
    | _ => exact absurd rfl resent
  | nonInviteClient =>
    cases state with
    | Trying =>
      cases input with
      | TimerE =>
        cases ran
        cases after
        exact ⟨rfl, fun _ _ => List.mem_singleton.mpr rfl⟩
      | _ => cases ran <;> cases after <;> exact ⟨rfl, by decide⟩
    | Proceeding => cases input <;> cases ran <;> cases after <;> exact ⟨rfl, by decide⟩
    | _ => exact absurd rfl resent
  | nonInviteServer => exact absurd rfl resent

/-- A machine takes the timer in every state in which it resends. -/
theorem resender_taken (resent : resender kind state = some timer) :
    ∃ done, kindAction kind env state timer = .ok done := by
  cases kind <;> cases state <;> cases resent <;> exact ⟨_, rfl⟩

/-- Only the final response registers a timer G. -/
theorem limitG_kept (ran : InviteServer.action env state input = .ok done) :
    (registered done.effects).count .TimerG + limitG state ≤ limitG done.state := by
  cases state with
  | Proceeding =>
    cases input with
    | Resp300to699 =>
      cases ran
      show (registered (serverAct300 env).2).count .TimerG + 0 ≤ 1
      unfold serverAct300
      by_cases udp : env.remoteUri = some .Udp
      · simp [registered, udp]
      · simp [registered, udp]
    | _ =>
      cases ran <;> decide
  | Completed =>
    cases input with
    | Ack =>
      cases ran
      show (registered (env.timerByTransport T4 0 .TimerI)).count .TimerG + 1 ≤ 1
      by_cases known : env.remoteUri = none
      · rw [registered_unknown known]
        decide
      · rw [registered_by_transport known]
        decide
    | _ => cases ran <;> decide
  | Accepted => cases input <;> cases ran <;> decide
  | Confirmed =>
    cases input <;> cases ran
    decide
  | _ => cases ran

end Passes

section Steps
variable {key : TransactionKey} {tx after : Tx} {answers : Nat → Answers} {input : Input}

/-- A call of spin keeps the timer that resends, unless it was the timer G that fired. -/
theorem applied_resends
    (resends : ∀ state timer, tx.stored = some state → resender (kind key) state = some timer →
      timer ∈ tx.timers ∨ timer = input)
    (spared : ¬ (kind key = .inviteServer ∧ tx.stored = some .Completed ∧ input = .TimerG))
    (isAfter : after = applied key answers input tx)
    (entered : ∀ state next timer, tx.stored = some state → after.stored = some next →
      resender (kind key) state = none → resender (kind key) next = some timer →
      timer ∈ after.timers) : Resends key after := by
  intro next timer storedAfter resent
  cases stored : tx.stored with
  | none =>
    rw [applied_stopped stored] at isAfter
    rw [isAfter, stored] at storedAfter
    cases storedAfter
  | some state =>
    cases before : resender (kind key) state with
    | none => exact entered state next timer stored storedAfter before resent
    | some own =>
      rcases @applied_pass key answers state input tx stored with ⟨same, fault, failed⟩ | passed
      · rw [same] at isAfter
        subst isAfter
        rcases resends next timer storedAfter resent with pending | isInput
        · exact pending
        · rw [stored] at storedAfter
          cases storedAfter
          obtain ⟨done, ran⟩ := @resender_taken (kind key) (answers 0) next timer resent
          rw [← action_kind, isInput, failed] at ran
          cases ran
      · obtain ⟨done, ran, changed⟩ := passed
        rw [changed] at isAfter
        subst isAfter
        have goesOn : done.state = next := by
          by_cases ended : done.state = .Terminated
          · simp [ended] at storedAfter
          · simpa [ended] using storedAfter
        rw [← goesOn] at resent
        rw [action_kind] at ran
        obtain ⟨same, again⟩ := resender_kept ran (by rw [before]; exact Option.some_ne_none own)
          resent
        rcases resends state timer stored same with pending | isInput
        · exact List.mem_append_right _ pending
        · refine List.mem_append_left _ (again isInput.symm fun server => spared ?_)
          rw [server] at same
          cases state <;> cases same
          exact ⟨server, stored, isInput.symm⟩

theorem applied_singleG (answers : Nat → Answers) (input : Input) (single : SingleG key tx) :
    SingleG key (applied key answers input tx) := by
  intro server next storedAfter
  cases stored : tx.stored with
  | none =>
    rw [applied_stopped stored] at storedAfter ⊢
    exact single server next storedAfter
  | some state =>
    have before := single server state stored
    rcases @applied_pass key answers state input tx stored with ⟨same, fault, failed⟩ | passed
    · rw [same] at storedAfter ⊢
      exact single server next storedAfter
    · obtain ⟨done, ran, changed⟩ := passed
      rw [changed] at storedAfter ⊢
      have goesOn : done.state = next := by
        by_cases ended : done.state = .Terminated
        · simp [ended] at storedAfter
        · simpa [ended] using storedAfter
      rw [action_kind, server] at ran
      have few := limitG_kept ran
      rw [goesOn] at few
      rw [List.count_append]
      omega

/-- The timer G that fires in Completed was the only one, and no other takes its place. -/
theorem firedG_silent (single : SingleG key tx) (server : kind key = .inviteServer)
    (completed : tx.stored = some .Completed) :
    ¬ Resends key (applied key answers .TimerG { tx with timers := tx.timers.erase .TimerG }) := by
  intro resends
  have few := single server .Completed completed
  rcases @applied_pass key answers .Completed .TimerG { tx with timers := tx.timers.erase .TimerG }
    completed with ⟨_, fault, failed⟩ | passed
  · rw [action_kind, server] at failed
    cases failed
  · obtain ⟨done, ran, changed⟩ := passed
    rw [action_kind, server] at ran
    cases ran
    rw [changed] at resends
    have pending := resends .Completed .TimerG rfl (by rw [server]; rfl)
    have left : (tx.timers.erase .TimerG).count .TimerG = 0 := by
      rw [List.count_erase_self]
      exact Nat.sub_eq_zero_of_le few
    exact List.count_eq_zero.mp left pending

end Steps

section Runs
variable {key : TransactionKey} {tx after : Tx}

theorem singleG_fewer (single : SingleG key tx) (timer : Input) :
    SingleG key { tx with timers := tx.timers.erase timer } := by
  intro server state stored
  have few := single server state stored
  exact Nat.le_trans (List.erase_sublist.count_le _) few

theorem event_singleG (single : SingleG key tx) {event : Event}
    (stepped : transaction key tx event = some after) : SingleG key after := by
  cases event with
  | received answers input =>
    obtain ⟨_, isAfter⟩ := Option.ite_none_right_eq_some.mp stepped
    cases isAfter
    exact applied_singleG answers input single
  | fired answers timer =>
    obtain ⟨_, isAfter⟩ := Option.ite_none_right_eq_some.mp stepped
    cases isAfter
    exact applied_singleG answers timer (singleG_fewer single timer)
  | canceled =>
    cases stepped
    intro server state stored
    rw [List.count_cons_of_ne (by decide)]
    exact single server state stored

/-- One event: the timer that resends stays pending exactly if the event spares it. -/
theorem event_resends_iff (single : SingleG key tx) (resends : Resends key tx) {event : Event}
    (entered : RegisteredOnEntry key tx event) (stepped : transaction key tx event = some after) :
    Spares key tx event ↔ Resends key after := by
  have later : ∀ state next timer, tx.stored = some state → after.stored = some next →
      resender (kind key) state = none → resender (kind key) next = some timer →
      timer ∈ after.timers :=
    fun state next timer stored storedAfter => entered state after next timer stored stepped storedAfter
  cases event with
  | received answers input =>
    obtain ⟨outside, isAfter⟩ := Option.ite_none_right_eq_some.mp stepped
    refine iff_of_true trivial (applied_resends
      (fun state timer stored resent => Or.inl (resends state timer stored resent)) ?_
      (Option.some.inj isAfter).symm later)
    rintro ⟨_, _, rfl⟩
    exact absurd outside (by decide)
  | fired answers timer =>
    obtain ⟨_, isAfter⟩ := Option.ite_none_right_eq_some.mp stepped
    constructor
    · intro spares
      refine @applied_resends key { tx with timers := tx.timers.erase timer } after answers timer
        (fun state own stored resent => ?_) ?_ (Option.some.inj isAfter).symm later
      · by_cases same : own = timer
        · exact Or.inr same
        · exact Or.inl ((List.mem_erase_of_ne same).mpr (resends state own stored resent))
      · rintro ⟨server, completed, rfl⟩
        exact spares ⟨server, completed⟩
    · intro resendsAfter
      by_cases isG : timer = .TimerG
      · subst isG
        rintro ⟨server, completed⟩
        cases isAfter
        exact firedG_silent single server completed resendsAfter
      · cases timer <;> trivial
  | canceled =>
    cases stepped
    refine iff_of_true trivial fun state timer stored resent => ?_
    exact List.mem_cons_of_mem _ (resends state timer stored resent)

theorem created_resends (key : TransactionKey) {uri : Uri} (udp : uri.transport = .Udp) :
    Resends key (created key uri) := by
  rintro state timer ⟨⟩ resent
  revert resent
  unfold created Transaction.entryState Transaction.entryTimers kind
  cases key.method <;> cases key.txType <;> intro resent <;> cases resent <;> simp [udp]

theorem created_singleG (key : TransactionKey) (uri : Uri) : SingleG key (created key uri) := by
  rintro server state ⟨⟩
  revert server
  unfold created Transaction.entryState Transaction.entryTimers kind
  cases key.method <;> cases key.txType <;> simp

/-- Over UDP, with the first timer of every state registered on entry, the timer that resends is
    pending throughout a run exactly if no timer G fires for a final response without ACK. -/
theorem resends_throughout_iff (key : TransactionKey) (uri : Uri) (udp : uri.transport = .Udp)
    (events : List Event) (last : Tx)
    (ran : runAll (transaction key) (created key uri) events = some last)
    (entered : Along (transaction key) (RegisteredOnEntry key) (created key uri) events) :
    Throughout (transaction key) (Resends key) (created key uri) events ↔
      Along (transaction key) (Spares key) (created key uri) events := by
  have each : ∀ tx event after, SingleG key tx → Resends key tx → RegisteredOnEntry key tx event →
      transaction key tx event = some after →
      SingleG key after ∧ (Spares key tx event ↔ Resends key after) := by
    intro tx event after single resends first stepped
    exact ⟨event_singleG single stepped, event_resends_iff single resends first stepped⟩
  exact throughout_iff_along each events (created_singleG key uri) (created_resends key udp)
    entered ran

end Runs

def invite_key : TransactionKey := ⟨"z9hG4bK2", .INVITE, "c2", .Server, "k2"⟩

def caller_uri : Uri := { host := "example.com" }

/-- A busy callee: the final response is sent, and the caller repeats its INVITE. -/
def refused : List Event := [.received reachable .Resp300to699, .received reachable .Req]

theorem refused_entered : Along (transaction invite_key) (RegisteredOnEntry invite_key)
    (created invite_key caller_uri) refused := by
  refine ⟨?_, ?_⟩
  · rintro state after next timer ⟨⟩ stepped storedAfter _ resent
    cases stepped
    cases storedAfter
    cases resent
    decide
  · intro middle first
    cases first
    refine ⟨?_, fun _ _ => trivial⟩
    rintro state after next timer ⟨⟩ _ _ before _
    cases before

/-- The timer G stays pending as long as it does not fire. -/
theorem resends_refused :
    caller_uri.transport = .Udp ∧
      runAll (transaction invite_key) (created invite_key caller_uri) refused =
        some ⟨some .Completed, [.TimerG, .TimerH]⟩ ∧
      (Throughout (transaction invite_key) (Resends invite_key) (created invite_key caller_uri) refused ↔
        Along (transaction invite_key) (Spares invite_key) (created invite_key caller_uri) refused) :=
  ⟨rfl, by decide, resends_throughout_iff invite_key caller_uri rfl refused
    ⟨some .Completed, [.TimerG, .TimerH]⟩ (by decide) refused_entered⟩

/-- Once the timer G has fired, the final response is not sent again by itself. -/
theorem final_response_resent_once :
    ¬ ∀ key uri events last, uri.transport = .Udp →
      runAll (transaction key) (created key uri) events = some last →
      Along (transaction key) (RegisteredOnEntry key) (created key uri) events →
      Throughout (transaction key) (Resends key) (created key uri) events := by
  intro always
  have entered : Along (transaction invite_key) (RegisteredOnEntry invite_key)
      (created invite_key caller_uri)
      [.received reachable .Resp300to699, .fired reachable .TimerG] := by
    refine ⟨refused_entered.1, ?_⟩
    intro middle first
    cases first
    refine ⟨?_, fun _ _ => trivial⟩
    rintro state after next timer ⟨⟩ _ _ before _
    cases before
  have ran : runAll (transaction invite_key) (created invite_key caller_uri)
      [.received reachable .Resp300to699, .fired reachable .TimerG] =
        some ⟨some .Completed, [.TimerH]⟩ := by decide
  have resends := always invite_key caller_uri _ _ rfl ran entered _ [] _ (List.append_nil _).symm ran
  exact absurd (resends .Completed .TimerG rfl rfl) (by decide)

end Retransmission
