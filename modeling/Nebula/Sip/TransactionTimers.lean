import Nebula.Lib.Runs
import Nebula.Sip.SpinFollowUp
import Nebula.Sip.Transaction

/- A transaction with the timers that it has registered. After a final response it is to
   go only forward, with a timer pending that ends it. -/
namespace TransactionTimers
open Sip Fsm Runs

/-- The stored state and the timers that have not fired yet. -/
structure Tx where
  stored : Option State
  timers : List Input
  deriving DecidableEq

def registered : List Effect → List Input
  | [] => []
  | .registerTimer _ input :: rest => input :: registered rest
  | _ :: rest => registered rest

/-- The timers that the passes of a call of spin have registered. -/
def registeredBy : List Pass → List Input
  | [] => []
  | ⟨_, _, .ok done⟩ :: rest => registered done.effects ++ registeredBy rest
  | ⟨_, _, .error _⟩ :: rest => registeredBy rest

def applied (key : TransactionKey) (answers : Nat → Answers) (input : Input) (tx : Tx) : Tx :=
  let run := spin key answers tx.stored input 0
  ⟨run.stored, registeredBy run.passes ++ tx.timers⟩

/-- What receive and respond hand to the machine, a timer that fires, and a cancel. -/
inductive Event where
  | received (answers : Nat → Answers) (input : Input)
  | fired (answers : Nat → Answers) (timer : Input)
  | canceled

def fromOutside : List Input := [.Req, .Ack, .Resp1xx, .Resp2xx, .Resp300to699]

def transaction (key : TransactionKey) : Machine Tx Event
  | tx, .received answers input =>
    if input ∈ fromOutside then some (applied key answers input tx) else none
  | tx, .fired answers timer =>
    if timer ∈ tx.timers then
      some (applied key answers timer { tx with timers := tx.timers.erase timer })
    else none
  | tx, .canceled => some { tx with timers := .TimerCancel :: tx.timers }

/-- A transaction that was just created. -/
def created (key : TransactionKey) (uri : Uri) : Tx :=
  ⟨some (Transaction.entryState key), (Transaction.entryTimers key uri).map (·.2)⟩

inductive Kind where
  | inviteClient
  | inviteServer
  | nonInviteClient
  | nonInviteServer
  deriving DecidableEq

def kind (key : TransactionKey) : Kind :=
  match key.method, key.txType with
  | .INVITE, .Server => .inviteServer
  | .INVITE, .Client => .inviteClient
  | _, .Server => .nonInviteServer
  | _, .Client => .nonInviteClient

def kindAction (kind : Kind) (env : Answers) (state : State) (input : Input) :
    Except FsmError Act :=
  match kind with
  | .inviteClient => InviteClient.action env state input
  | .inviteServer => InviteServer.action env state input
  | .nonInviteClient => NonInviteClient.action env state input
  | .nonInviteServer => NonInviteServer.action env state input

def IsFinal (state : State) : Prop :=
  state = .Completed ∨ state = .Accepted ∨ state = .Confirmed

def IsEarly (state : State) : Prop :=
  state = .Trying ∨ state = .Calling ∨ state = .Proceeding

instance (state : State) : Decidable (IsFinal state) := inferInstanceAs (Decidable (_ ∨ _ ∨ _))

instance (state : State) : Decidable (IsEarly state) := inferInstanceAs (Decidable (_ ∨ _ ∨ _))

/-- Firing the timer in that state ends the transaction, whatever it is answered. -/
def Ends (key : TransactionKey) (state : State) (timer : Input) : Prop :=
  ∀ env, ∃ done, action key env state timer = .ok done ∧ done.state = .Terminated

/-- After a final response a timer is pending that ends the transaction. -/
def Timed (key : TransactionKey) (tx : Tx) : Prop :=
  ∀ state, tx.stored = some state → IsFinal state → ∃ timer ∈ tx.timers, Ends key state timer

/-- What a step may do once there was a final response. -/
structure Forward (key : TransactionKey) (tx after : Tx) : Prop where
  final : ∀ state next, tx.stored = some state → after.stored = some next →
    IsFinal state → ¬ IsEarly next
  completed : key.method = .INVITE → key.txType = .Client →
    tx.stored = some .Completed → after.stored ≠ some .Accepted

/-- The input, in that state, is not one that a machine answers by going back, by leaving
    Completed for Accepted or by forgetting the timer of the state that it enters. -/
def Sound (kind : Kind) (env : Answers) (state : State) (input : Input) : Prop :=
  match kind with
  | .inviteClient => ¬ (state = .Completed ∧ input = .Resp300to699) ∧
      ((state = .Calling ∨ state = .Proceeding) ∧ input = .Resp300to699 → env.remoteUri ≠ none)
  | .inviteServer => state = .Completed ∧ input = .Ack → env.remoteUri ≠ none
  | .nonInviteClient =>
      (state = .Trying ∨ state = .Proceeding) ∧ (input = .Resp2xx ∨ input = .Resp300to699) →
        env.remoteUri ≠ none
  | .nonInviteServer => ¬ (state = .Completed ∧ input = .Req) ∧
      ((state = .Trying ∨ state = .Proceeding) ∧ (input = .Resp2xx ∨ input = .Resp300to699) →
        env.reply = true)

def Guarded (key : TransactionKey) : Guard Tx Event
  | tx, .received answers input => ∀ state, tx.stored = some state →
      Sound (kind key) (answers 0) state input
  | tx, .fired answers timer => ∀ state, tx.stored = some state →
      Sound (kind key) (answers 0) state timer
  | _, .canceled => True

/-- The timers that may be pending in a state, and none where the machine is never in it. -/
def pending : Kind → State → Option (List Input)
  | .inviteClient, .Calling => some [.TimerA, .TimerB, .TimerCancel]
  | .inviteClient, .Proceeding => some [.TimerA, .TimerB, .TimerCancel]
  | .inviteClient, .Accepted => some [.TimerM, .TimerA, .TimerB, .TimerCancel]
  | .inviteClient, .Completed => some [.TimerD, .TimerA, .TimerB, .TimerCancel]
  | .inviteServer, .Proceeding => some [.TimerCancel]
  | .inviteServer, .Accepted => some [.TimerL, .TimerCancel]
  | .inviteServer, .Completed => some [.TimerH, .TimerG, .TimerCancel]
  | .inviteServer, .Confirmed => some [.TimerI, .TimerH, .TimerG, .TimerCancel]
  | .nonInviteClient, .Trying => some [.TimerE, .TimerF, .TimerCancel]
  | .nonInviteClient, .Proceeding => some [.TimerE, .TimerF, .TimerCancel]
  | .nonInviteClient, .Completed => some [.TimerK, .TimerE, .TimerF, .TimerCancel]
  | .nonInviteServer, .Trying => some [.TimerCancel]
  | .nonInviteServer, .Proceeding => some [.TimerCancel]
  | .nonInviteServer, .Completed => some [.TimerJ, .TimerCancel]
  | _, _ => none

/-- The timer that ends a machine after a final response. -/
def ender : Kind → State → Option Input
  | .inviteClient, .Accepted => some .TimerM
  | .inviteClient, .Completed => some .TimerD
  | .inviteServer, .Accepted => some .TimerL
  | .inviteServer, .Completed => some .TimerH
  | .inviteServer, .Confirmed => some .TimerI
  | .nonInviteClient, .Completed => some .TimerK
  | .nonInviteServer, .Completed => some .TimerJ
  | _, _ => none

/-- A step from one state to another that keeps the timers that may be pending, goes
    forward, and registers the timer that ends a final state when it enters it. -/
def Fits (kind : Kind) (state next : State) (timers : List Input) : Prop :=
  (∃ before ∈ pending kind state, ∃ after ∈ pending kind next,
      before ⊆ after ∧ timers ⊆ after) ∧
    (IsFinal state → ¬ IsEarly next) ∧
    (kind = .inviteClient → state = .Completed → next ≠ .Accepted) ∧
    (IsFinal next → next = state ∨ ∃ timer ∈ timers, ender kind next = some timer)

instance (kind : Kind) (state next : State) (timers : List Input) :
    Decidable (Fits kind state next timers) :=
  inferInstanceAs (Decidable (_ ∧ _ ∧ _ ∧ _))

/-- A step into a final state without the timer that ends it, which cannot be pending yet. -/
def Untimed (kind : Kind) (state next : State) (timers : List Input) : Prop :=
  IsFinal next ∧ timers = [] ∧
    ∃ before ∈ pending kind state, ∃ after ∈ pending kind next,
      before ⊆ after ∧ ∀ timer ∈ before, ender kind next ≠ some timer

instance (kind : Kind) (state next : State) (timers : List Input) :
    Decidable (Untimed kind state next timers) :=
  inferInstanceAs (Decidable (_ ∧ _ ∧ _))

/-- What one pass of a machine does: the next state and the timers registered. -/
inductive Move (kind : Kind) (env : Answers) (state : State) (input : Input) (next : State)
    (timers : List Input) : Prop where
  | ends (sound : Sound kind env state input) (ended : next = .Terminated)
  | goes (sound : Sound kind env state input) (fits : Fits kind state next timers)
  | back (unsound : ¬ Sound kind env state input) (final : IsFinal state) (early : IsEarly next)
  | accepted (unsound : ¬ Sound kind env state input) (client : kind = .inviteClient)
    (before : state = .Completed) (after : next = .Accepted)
  | untimed (unsound : ¬ Sound kind env state input) (untimed : Untimed kind state next timers)

theorem registered_by_transport {env : Answers} (known : env.remoteUri ≠ none) (udp other : Nat)
    (timer : Input) : registered (env.timerByTransport udp other timer) = [timer] := by
  unfold Answers.timerByTransport
  cases isRemote : env.remoteUri with
  | none => exact absurd isRemote known
  | some transport => cases transport <;> rfl

theorem registered_unknown {env : Answers} (unknown : env.remoteUri = none) (udp other : Nat)
    (timer : Input) : registered (env.timerByTransport udp other timer) = [] := by
  unfold Answers.timerByTransport
  rw [unknown]
  rfl

section
variable {env : Answers} {state : State} {input : Input} {done : Act}

/-- The final response, by whether the address can be read. -/
theorem inviteClient_completes (early : state = .Calling ∨ state = .Proceeding) :
    Move .inviteClient env state .Resp300to699 .Completed
      (registered (InviteClient.act300 env).2) := by
  by_cases known : env.remoteUri = none
  · have noTimers : registered (InviteClient.act300 env).2 = [] := by
      simp [InviteClient.act300, registered, registered_unknown known]
    rw [noTimers]
    rcases early with early | early <;> subst early <;>
      exact .untimed (by simp [Sound, known]) (by decide)
  · have one : registered (InviteClient.act300 env).2 = [.TimerD] := by
      simp [InviteClient.act300, registered, registered_by_transport known]
    rw [one]
    rcases early with early | early <;> subst early <;>
      exact .goes (by simp [Sound, known]) (by decide)

theorem inviteClient_moves (valid : pending .inviteClient state ≠ none)
    (ran : InviteClient.action env state input = .ok done) :
    Move .inviteClient env state input done.state (registered done.effects) := by
  cases state with
  | Calling =>
    cases input with
    | Resp300to699 =>
      cases ran
      exact inviteClient_completes (Or.inl rfl)
    | TimerB | TransportError =>
      cases ran
      exact .ends (by simp [Sound]) rfl
    | TimerA =>
      cases ran
      have fits : Fits .inviteClient .Calling .Calling [.TimerA] := by decide
      exact .goes (by simp [Sound]) fits
    | _ =>
      cases ran <;> exact .goes (by simp [Sound]) (by decide)
  | Proceeding =>
    cases input with
    | Resp300to699 =>
      cases ran
      exact inviteClient_completes (Or.inr rfl)
    | TimerCancel =>
      cases ran
      have fits : Fits .inviteClient .Proceeding .Proceeding [.TimerCancel] := by decide
      exact .goes (by simp [Sound]) fits
    | _ =>
      cases ran <;> exact .goes (by simp [Sound]) (by decide)
  | Accepted =>
    cases input with
    | TimerM =>
      cases ran
      exact .ends (by simp [Sound]) rfl
    | _ =>
      cases ran <;> exact .goes (by simp [Sound]) (by decide)
  | Completed =>
    cases input with
    | Resp300to699 =>
      cases ran
      exact .accepted (by simp [Sound]) rfl rfl rfl
    | _ =>
      cases ran <;> exact .ends (by simp [Sound]) rfl
  | Trying | Confirmed | Terminated => exact absurd rfl valid

theorem inviteServer_moves (valid : pending .inviteServer state ≠ none)
    (ran : InviteServer.action env state input = .ok done) :
    Move .inviteServer env state input done.state (registered done.effects) := by
  cases state with
  | Proceeding =>
    cases input with
    | Resp300to699 =>
      cases ran
      have timers : registered (serverAct300 env).2 = [.TimerH] ∨
          registered (serverAct300 env).2 = [.TimerG, .TimerH] := by
        unfold serverAct300
        by_cases udp : env.remoteUri = some .Udp
        · right
          simp [registered, udp]
        · left
          simp [registered, udp]
      dsimp only
      rcases timers with alone | both
      · rw [alone]
        exact .goes (by simp [Sound]) (by decide)
      · rw [both]
        exact .goes (by simp [Sound]) (by decide)
    | _ =>
      cases ran <;> exact .goes (by simp [Sound]) (by decide)
  | Completed =>
    cases input with
    | Ack =>
      cases ran
      dsimp only [serverAck]
      by_cases known : env.remoteUri = none
      · rw [registered_unknown known]
        exact .untimed (by simp [Sound, known]) (by decide)
      · rw [registered_by_transport known]
        exact .goes (by simp [Sound, known]) (by decide)
    | TimerH =>
      cases ran
      exact .ends (by simp [Sound]) rfl
    | _ =>
      cases ran <;> exact .goes (by simp [Sound]) (by decide)
  | Accepted =>
    cases input with
    | TimerL =>
      cases ran
      exact .ends (by simp [Sound]) rfl
    | _ =>
      cases ran <;> exact .goes (by simp [Sound]) (by decide)
  | Confirmed =>
    cases input <;> cases ran
    exact .ends (by simp [Sound]) rfl
  | Trying | Calling | Terminated => exact absurd rfl valid

theorem nonInviteClient_completes (early : state = .Trying ∨ state = .Proceeding)
    (response : input = .Resp2xx ∨ input = .Resp300to699) :
    Move .nonInviteClient env state input .Completed
      (registered (NonInviteClient.act200to699 env).2) := by
  by_cases known : env.remoteUri = none
  · have noTimers : registered (NonInviteClient.act200to699 env).2 = [] := by
      simp [NonInviteClient.act200to699, registered, registered_unknown known]
    rw [noTimers]
    rcases early with early | early <;> subst early <;>
      exact .untimed (by simp [Sound, known, response]) (by decide)
  · have one : registered (NonInviteClient.act200to699 env).2 = [.TimerK] := by
      simp [NonInviteClient.act200to699, registered, registered_by_transport known]
    rw [one]
    rcases early with early | early <;> subst early <;>
      exact .goes (by simp [Sound, known]) (by decide)

theorem nonInviteClient_moves (valid : pending .nonInviteClient state ≠ none)
    (ran : NonInviteClient.action env state input = .ok done) :
    Move .nonInviteClient env state input done.state (registered done.effects) := by
  cases state with
  | Trying =>
    cases input with
    | Resp2xx | Resp300to699 =>
      cases ran
      exact nonInviteClient_completes (Or.inl rfl) (by simp)
    | TimerF | TransportError =>
      cases ran
      exact .ends (by simp [Sound]) rfl
    | TimerE =>
      cases ran
      have fits : Fits .nonInviteClient .Trying .Trying [.TimerE] := by decide
      exact .goes (by simp [Sound]) fits
    | _ =>
      cases ran <;> exact .goes (by simp [Sound]) (by decide)
  | Proceeding =>
    cases input with
    | Resp2xx | Resp300to699 =>
      cases ran
      exact nonInviteClient_completes (Or.inr rfl) (by simp)
    | TimerF | TransportError =>
      cases ran
      exact .ends (by simp [Sound]) rfl
    | _ =>
      cases ran <;> exact .goes (by simp [Sound]) (by decide)
  | Completed =>
    cases input <;> cases ran
    exact .ends (by simp [Sound]) rfl
  | Calling | Accepted | Confirmed | Terminated => exact absurd rfl valid

theorem nonInviteServer_completes (early : state = .Trying ∨ state = .Proceeding)
    (response : input = .Resp2xx ∨ input = .Resp300to699) :
    Move .nonInviteServer env state input .Completed
      (registered (NonInviteServer.act200to699 env).2) := by
  unfold NonInviteServer.act200to699
  by_cases sent : env.reply = true
  · have known : env.remoteUri ≠ none := by
      intro unknown
      simp [Answers.reply, unknown] at sent
    have one : registered ([.reply] ++ env.timerByTransport (64 * T1) 0 .TimerJ) = [.TimerJ] := by
      simp [registered, registered_by_transport known]
    rw [if_pos sent, one]
    rcases early with early | early <;> subst early <;>
      exact .goes (by simp [Sound, sent]) (by decide)
  · rw [if_neg sent]
    rcases early with early | early <;> subst early <;>
      exact .untimed (by simp [Sound, sent, response]) (by decide)

theorem nonInviteServer_moves (valid : pending .nonInviteServer state ≠ none)
    (ran : NonInviteServer.action env state input = .ok done) :
    Move .nonInviteServer env state input done.state (registered done.effects) := by
  cases state with
  | Trying =>
    cases input with
    | Resp2xx | Resp300to699 =>
      cases ran
      exact nonInviteServer_completes (Or.inl rfl) (by simp)
    | _ =>
      cases ran <;> exact .goes (by simp [Sound]) (by decide)
  | Proceeding =>
    cases input with
    | Resp2xx | Resp300to699 =>
      cases ran
      exact nonInviteServer_completes (Or.inr rfl) (by simp)
    | TransportError =>
      cases ran
      exact .ends (by simp [Sound]) rfl
    | _ =>
      cases ran <;> exact .goes (by simp [Sound]) (by decide)
  | Completed =>
    cases input with
    | Req =>
      cases ran
      exact .back (by simp [Sound]) (by decide) (by decide)
    | _ =>
      cases ran <;> exact .ends (by simp [Sound]) rfl
  | Calling | Accepted | Confirmed | Terminated => exact absurd rfl valid

end

theorem action_kind (key : TransactionKey) (env : Answers) (state : State) (input : Input) :
    action key env state input = kindAction (kind key) env state input := by
  unfold action kind kindAction
  cases key.method <;> cases key.txType <;> rfl

theorem kind_moves {kind : Kind} {env : Answers} {state : State} {input : Input} {done : Act}
    (valid : pending kind state ≠ none) (ran : kindAction kind env state input = .ok done) :
    Move kind env state input done.state (registered done.effects) := by
  cases kind with
  | inviteClient => exact inviteClient_moves valid ran
  | inviteServer => exact inviteServer_moves valid ran
  | nonInviteClient => exact nonInviteClient_moves valid ran
  | nonInviteServer => exact nonInviteServer_moves valid ran

theorem inviteClient_kind {key : TransactionKey} (method : key.method = .INVITE)
    (client : key.txType = .Client) : kind key = .inviteClient := by
  unfold kind
  rw [method, client]

theorem kind_inviteClient {key : TransactionKey} (client : kind key = .inviteClient) :
    key.method = .INVITE ∧ key.txType = .Client := by
  unfold kind at client
  cases method : key.method <;> cases type : key.txType <;> simp_all

section
variable {key : TransactionKey} {answers : Nat → Answers} {state : State} {input : Input} {tx : Tx}

/-- A call of spin changes nothing, or does what its first pass does. -/
theorem applied_pass (stored : tx.stored = some state) :
    (applied key answers input tx = tx ∧
        ∃ fault, action key (answers 0) state input = .error fault) ∨
      ∃ done, action key (answers 0) state input = .ok done ∧
        applied key answers input tx =
          ⟨if done.state = .Terminated then none else some done.state,
            registered done.effects ++ tx.timers⟩ := by
  unfold applied
  rw [stored]
  cases ran : action key (answers 0) state input with
  | error fault =>
    left
    rw [SpinFollowUp.spin_failed ran]
    refine ⟨?_, fault, rfl⟩
    rw [← stored]
    rfl
  | ok done =>
    right
    refine ⟨done, rfl, ?_⟩
    by_cases unsent : SpinFollowUp.CannotSendFinal key (answers 0) (some state) input
    · rw [SpinFollowUp.spin_unsent unsent]
      obtain ⟨method, server, early, response, failed⟩ := unsent
      have final : SpinFollowUp.Final state input := by
        refine ⟨?_, response⟩
        rcases early with early | early
        · exact Or.inl (Option.some.inj early)
        · exact Or.inr (Option.some.inj early)
      rw [SpinFollowUp.action_nonInvite_server method server,
        SpinFollowUp.nonInviteServer_final final] at ran
      cases ran
      simp [NonInviteServer.act200to699, failed, registered, registeredBy]
    · rw [SpinFollowUp.spin_quiet ran (SpinFollowUp.action_quiet unsent ran)]
      simp [registeredBy]

theorem applied_cases (stored : tx.stored = some state) (valid : pending (kind key) state ≠ none) :
    (applied key answers input tx = tx ∧
        ∃ fault, action key (answers 0) state input = .error fault) ∨
      ∃ done, action key (answers 0) state input = .ok done ∧
        Move (kind key) (answers 0) state input done.state (registered done.effects) ∧
        applied key answers input tx =
          ⟨if done.state = .Terminated then none else some done.state,
            registered done.effects ++ tx.timers⟩ := by
  rcases @applied_pass key answers state input tx stored with unchanged | passed
  · exact Or.inl unchanged
  · obtain ⟨done, ran, changed⟩ := passed
    refine Or.inr ⟨done, ran, ?_, changed⟩
    rw [action_kind] at ran
    exact kind_moves valid ran

theorem ender_ends {timer : Input} (isEnder : ender (kind key) state = some timer) :
    Ends key state timer := by
  intro env
  rw [action_kind]
  generalize kind key = kind at isEnder
  cases kind <;> cases state <;> cases isEnder <;> exact ⟨_, rfl, rfl⟩

/-- Of the timers that may be pending in a final state only that one ends the transaction. -/
theorem only_ender {kind : Kind} {allowed : List Input} (isAllowed : pending kind state = some allowed)
    (final : IsFinal state) : ∀ timer ∈ allowed, ender kind state = some timer ∨
      ((kindAction kind ⟨none, false, false, none⟩ state timer).toOption.map Act.state ≠
        some .Terminated) := by
  cases kind <;> cases state <;> cases isAllowed <;> revert final <;> decide

theorem ends_ender {timer : Input} {allowed : List Input}
    (isAllowed : pending (kind key) state = some allowed) (listed : timer ∈ allowed)
    (final : IsFinal state) (ends : Ends key state timer) : ender (kind key) state = some timer := by
  rcases only_ender isAllowed final timer listed with isEnder | goesOn
  · exact isEnder
  · obtain ⟨done, ran, ended⟩ := ends ⟨none, false, false, none⟩
    rw [action_kind] at ran
    rw [ran] at goesOn
    exact absurd (congrArg some ended) goesOn

/-- An input that is not sound is one that the machine acts on. -/
theorem unsound_acts {kind : Kind} {env : Answers} (unsound : ¬ Sound kind env state input) :
    ∃ done, kindAction kind env state input = .ok done := by
  cases kind with
  | inviteClient =>
    rcases not_and_or.mp unsound with repeated | completes
    · obtain ⟨rfl, rfl⟩ := not_not.mp repeated
      exact ⟨_, rfl⟩
    · rw [Classical.not_imp] at completes
      obtain ⟨⟨rfl | rfl, rfl⟩, _⟩ := completes <;> exact ⟨_, rfl⟩
  | inviteServer =>
    simp only [Sound, Classical.not_imp] at unsound
    obtain ⟨⟨rfl, rfl⟩, _⟩ := unsound
    exact ⟨_, rfl⟩
  | nonInviteClient =>
    simp only [Sound, Classical.not_imp] at unsound
    obtain ⟨⟨rfl | rfl, rfl | rfl⟩, _⟩ := unsound <;> exact ⟨_, rfl⟩
  | nonInviteServer =>
    rcases not_and_or.mp unsound with repeated | completes
    · obtain ⟨rfl, rfl⟩ := not_not.mp repeated
      exact ⟨_, rfl⟩
    · rw [Classical.not_imp] at completes
      obtain ⟨⟨rfl | rfl, rfl | rfl⟩, _⟩ := completes <;> exact ⟨_, rfl⟩

end

section
variable {key : TransactionKey} {answers : Nat → Answers} {state : State} {input : Input}
  {tx after : Tx}

/-- The pending timers are among those of the state, and in a final state the one that ends
    it is among them, or is the one that is taken just now. -/
structure Held (key : TransactionKey) (tx : Tx) (taken : Option Input) : Prop where
  allowed : ∀ state, tx.stored = some state →
    ∃ allowed ∈ pending (kind key) state, tx.timers ⊆ allowed
  ended : ∀ state, tx.stored = some state → IsFinal state →
    ∃ timer, ender (kind key) state = some timer ∧ (timer ∈ tx.timers ∨ taken = some timer)

theorem final_not_early (final : IsFinal state) : ¬ IsEarly state := by
  cases state <;> revert final <;> decide

theorem held_timed (held : Held key tx none) : Timed key tx := by
  intro state stored final
  obtain ⟨timer, isEnder, pending | taken⟩ := held.ended state stored final
  · exact ⟨timer, pending, ender_ends isEnder⟩
  · cases taken

theorem held_stopped (stored : tx.stored = none) (taken : Option Input) : Held key tx taken := by
  constructor <;> simp [stored]

theorem forward_stopped (stored : after.stored = none) : Forward key tx after := by
  constructor <;> simp [stored]

/-- The timer that is taken is not the one that ends the state if the state goes on. -/
theorem still_pending {taken : Option Input} (held : Held key tx taken)
    (stored : tx.stored = some state) (final : IsFinal state)
    (isInput : ∀ timer, taken = some timer → timer = input)
    (goesOn : ∀ done, action key (answers 0) state input = .ok done → done.state ≠ .Terminated) :
    ∃ timer ∈ tx.timers, ender (kind key) state = some timer := by
  obtain ⟨timer, isEnder, pending | taken⟩ := held.ended state stored final
  · exact ⟨timer, pending, isEnder⟩
  · have same := isInput timer taken
    subst same
    obtain ⟨done, ran, ended⟩ := ender_ends isEnder (answers 0)
    exact absurd ended (goesOn done ran)

theorem pending_goes_on {kind : Kind} {next : State} {timers : List Input}
    (isPending : timers ∈ pending kind next) : next ≠ .Terminated := by
  intro ended
  rw [ended] at isPending
  cases kind <;> cases isPending

/-- Where the machine refuses its input, the timer of a final state stays. -/
theorem held_refused {taken : Option Input} {fault : FsmError} (held : Held key tx taken)
    (stored : tx.stored = some state) (isInput : ∀ timer, taken = some timer → timer = input)
    (failed : action key (answers 0) state input = .error fault) : Held key tx none := by
  refine ⟨held.allowed, ?_⟩
  intro now storedNow final
  rw [stored] at storedNow
  cases storedNow
  obtain ⟨timer, pending, isEnder⟩ := still_pending held stored final isInput
    (fun done ran => by rw [failed] at ran; cases ran)
  exact ⟨timer, isEnder, Or.inl pending⟩

theorem forward_self : Forward key tx tx := by
  constructor
  · intro now next storedNow storedNext final
    rw [storedNow] at storedNext
    cases storedNext
    exact final_not_early final
  · intro _ _ completed
    rw [completed]
    decide

theorem held_goes {taken : Option Input} {done : Act} (held : Held key tx taken)
    (stored : tx.stored = some state) (isInput : ∀ timer, taken = some timer → timer = input)
    (ran : action key (answers 0) state input = .ok done)
    (fits : Fits (kind key) state done.state (registered done.effects)) :
    Held key ⟨some done.state, registered done.effects ++ tx.timers⟩ none := by
  obtain ⟨⟨before, isBefore, allowedAfter, isAllowedAfter, wider, fresh⟩, _, _, timed⟩ := fits
  obtain ⟨allowed, isAllowed, within⟩ := held.allowed state stored
  constructor
  · rintro now ⟨⟩
    rw [Option.mem_unique isAllowed isBefore] at within
    exact ⟨allowedAfter, isAllowedAfter,
      List.append_subset.mpr ⟨fresh, fun _ old => wider (within old)⟩⟩
  · rintro now ⟨⟩ final
    rcases timed final with same | ⟨timer, fresh, isEnder⟩
    · obtain ⟨timer, pending, isEnder⟩ := still_pending held stored (same ▸ final) isInput
        (fun other ranOther => by
          rw [ran] at ranOther
          cases ranOther
          exact pending_goes_on isAllowedAfter)
      exact ⟨timer, same ▸ isEnder, Or.inl (List.mem_append_right _ pending)⟩
    · exact ⟨timer, isEnder, Or.inl (List.mem_append_left _ fresh)⟩

theorem forward_goes {next : State} {timers later : List Input} (stored : tx.stored = some state)
    (fits : Fits (kind key) state next timers) : Forward key tx ⟨some next, later⟩ := by
  obtain ⟨_, forth, kept, _⟩ := fits
  constructor
  · intro now other storedNow storedNext final
    rw [stored] at storedNow
    cases storedNow
    cases storedNext
    exact forth final
  · intro method client completed accepted
    rw [stored] at completed
    cases completed
    exact kept (inviteClient_kind method client) rfl (Option.some.inj accepted)

/-- What a call of spin does to a transaction that holds together. -/
theorem applied_right {taken : Option Input} (held : Held key tx taken)
    (stored : tx.stored = some state) (isInput : ∀ timer, taken = some timer → timer = input)
    (isAfter : after = applied key answers input tx) :
    (Sound (kind key) (answers 0) state input ↔ Forward key tx after ∧ Timed key after) ∧
      (Sound (kind key) (answers 0) state input → Held key after none) := by
  obtain ⟨allowed, isAllowed, within⟩ := held.allowed state stored
  have valid : pending (kind key) state ≠ none := by
    rw [Option.mem_def.mp isAllowed]
    exact Option.some_ne_none allowed
  rcases applied_cases stored valid with ⟨unchanged, fault, failed⟩ | ⟨done, ran, moves, changed⟩
  · have sound : Sound (kind key) (answers 0) state input := by
      by_contra unsound
      obtain ⟨done, ran⟩ := unsound_acts unsound
      rw [← action_kind, failed] at ran
      cases ran
    rw [unchanged] at isAfter
    subst isAfter
    have heldAfter := held_refused held stored isInput failed
    exact ⟨iff_of_true sound ⟨forward_self, held_timed heldAfter⟩, fun _ => heldAfter⟩
  · rw [changed] at isAfter
    cases moves with
    | ends sound ended =>
      rw [if_pos ended] at isAfter
      have stopped : after.stored = none := by rw [isAfter]
      have heldAfter : Held key after none := held_stopped stopped none
      exact ⟨iff_of_true sound ⟨forward_stopped stopped, held_timed heldAfter⟩, fun _ => heldAfter⟩
    | goes sound fits =>
      obtain ⟨_, _, _, isAllowedAfter, _, _⟩ := fits.1
      rw [if_neg (pending_goes_on isAllowedAfter)] at isAfter
      subst isAfter
      have heldAfter := held_goes held stored isInput ran fits
      exact ⟨iff_of_true sound ⟨forward_goes stored fits, held_timed heldAfter⟩, fun _ => heldAfter⟩
    | back unsound final early =>
      have goesOn : done.state ≠ .Terminated := by
        intro ended
        rw [ended] at early
        exact absurd early (by decide)
      rw [if_neg goesOn] at isAfter
      have storedAfter : after.stored = some done.state := by rw [isAfter]
      refine ⟨iff_of_false unsound ?_, fun sound => absurd sound unsound⟩
      intro right
      exact right.1.final state done.state stored storedAfter final early
    | accepted unsound client before accepted =>
      rw [accepted] at isAfter
      have storedAfter : after.stored = some .Accepted := by rw [isAfter]; rfl
      obtain ⟨method, client⟩ := kind_inviteClient client
      refine ⟨iff_of_false unsound ?_, fun sound => absurd sound unsound⟩
      intro right
      exact right.1.completed method client (before ▸ stored) storedAfter
    | untimed unsound untimed =>
      obtain ⟨final, noTimers, before, isBefore, listedAfter, isListed, wider, missing⟩ := untimed
      have goesOn : done.state ≠ .Terminated := pending_goes_on isListed
      rw [if_neg goesOn, noTimers] at isAfter
      have storedAfter : after.stored = some done.state := by rw [isAfter]
      have timersAfter : after.timers = tx.timers := by rw [isAfter]; rfl
      refine ⟨iff_of_false unsound ?_, fun sound => absurd sound unsound⟩
      intro right
      obtain ⟨timer, pending, ends⟩ := right.2 done.state storedAfter final
      rw [timersAfter] at pending
      rw [Option.mem_unique isAllowed isBefore] at within
      exact missing timer (within pending) (ends_ender isListed (wider (within pending)) final ends)

theorem applied_stopped (stored : tx.stored = none) :
    applied key answers input tx = tx := by
  obtain ⟨nothing, timers⟩ := tx
  cases stored
  rfl

/-- A call of spin on what is stored, which may be nothing. -/
theorem applied_progress (answers : Nat → Answers) {taken : Option Input} (held : Held key tx taken)
    (isInput : ∀ timer, taken = some timer → timer = input)
    (isAfter : after = applied key answers input tx) :
    ((∀ state, tx.stored = some state → Sound (kind key) (answers 0) state input) ↔
        Forward key tx after ∧ Timed key after) ∧
      ((∀ state, tx.stored = some state → Sound (kind key) (answers 0) state input) →
        Held key after none) := by
  cases stored : tx.stored with
  | none =>
    rw [applied_stopped stored] at isAfter
    subst isAfter
    have heldAfter : Held key after none := held_stopped stored none
    refine ⟨iff_of_true ?_ ⟨forward_stopped stored, held_timed heldAfter⟩, fun _ => heldAfter⟩
    rintro state ⟨⟩
  | some state =>
    obtain ⟨exactly, keeps⟩ := applied_right held stored isInput isAfter
    have only : (∀ now, some state = some now → Sound (kind key) (answers 0) now input) ↔
        Sound (kind key) (answers 0) state input := by simp
    rw [only]
    exact ⟨exactly, keeps⟩

/-- What a timer leaves behind when it is taken to be fired. -/
theorem held_taken (held : Held key tx none) (timer : Input) :
    Held key { tx with timers := tx.timers.erase timer } (some timer) := by
  constructor
  · intro state stored
    obtain ⟨allowed, isAllowed, within⟩ := held.allowed state stored
    exact ⟨allowed, isAllowed, fun _ listed => within (List.mem_of_mem_erase listed)⟩
  · intro state stored final
    obtain ⟨other, isEnder, pending | taken⟩ := held.ended state stored final
    · refine ⟨other, isEnder, ?_⟩
      by_cases same : other = timer
      · exact Or.inr (congrArg some same.symm)
      · exact Or.inl ((List.mem_erase_of_ne same).mpr pending)
    · cases taken

theorem pending_cancel {state : State} {allowed : List Input} {kind : Kind}
    (isAllowed : allowed ∈ pending kind state) : .TimerCancel ∈ allowed := by
  cases kind <;> cases state <;> cases isAllowed <;> decide

theorem held_canceled (held : Held key tx none) :
    Held key { tx with timers := .TimerCancel :: tx.timers } none := by
  constructor
  · intro state stored
    obtain ⟨allowed, isAllowed, within⟩ := held.allowed state stored
    exact ⟨allowed, isAllowed, List.cons_subset.mpr ⟨pending_cancel isAllowed, within⟩⟩
  · intro state stored final
    obtain ⟨timer, isEnder, pending | taken⟩ := held.ended state stored final
    · exact ⟨timer, isEnder, Or.inl (List.mem_cons_of_mem _ pending)⟩
    · cases taken

/-- Nothing is stored that was not, and no state is left. -/
theorem forward_same (same : after.stored = tx.stored) : Forward key tx after := by
  constructor
  · intro state next stored storedNext final
    rw [same, stored] at storedNext
    cases storedNext
    exact final_not_early final
  · intro _ _ completed
    rw [same, completed]
    decide

theorem entry_not_final (key : TransactionKey) : ¬ IsFinal (Transaction.entryState key) := by
  unfold Transaction.entryState
  cases key.method <;> cases key.txType <;> decide

theorem created_held (key : TransactionKey) (uri : Uri) : Held key (created key uri) none := by
  constructor
  · rintro state ⟨⟩
    unfold created Transaction.entryState Transaction.entryTimers kind
    cases key.method <;> cases key.txType <;>
      by_cases udp : uri.transport = .Udp <;> simp [pending, udp]
  · rintro state ⟨⟩ final
    exact absurd final (entry_not_final key)

theorem event_right (held : Held key tx none) {event : Event}
    (stepped : transaction key tx event = some after) :
    (Guarded key tx event ↔ Forward key tx after ∧ Timed key after) ∧
      (Guarded key tx event → Held key after none) := by
  cases event with
  | received answers input =>
    obtain ⟨-, isAfter⟩ := Option.ite_none_right_eq_some.mp stepped
    cases isAfter
    exact applied_progress answers held (by simp) rfl
  | fired answers timer =>
    obtain ⟨-, isAfter⟩ := Option.ite_none_right_eq_some.mp stepped
    cases isAfter
    obtain ⟨exactly, keeps⟩ := applied_progress answers (held_taken held timer)
      (fun other taken => (Option.some.inj taken).symm) rfl
    refine ⟨exactly.trans (and_congr_left fun _ => ?_), keeps⟩
    exact ⟨fun forward => ⟨forward.final, forward.completed⟩,
      fun forward => ⟨forward.final, forward.completed⟩⟩
  | canceled =>
    cases stepped
    have heldAfter := held_canceled held
    exact ⟨iff_of_true trivial ⟨forward_same rfl, held_timed heldAfter⟩, fun _ => heldAfter⟩

end

def register_key : TransactionKey := ⟨"z9hG4bK1", .REGISTER, "c1", .Server, "k1"⟩

def register_uri : Uri := { host := "example.com" }

/-- The address is known and whatever is sent arrives. -/
def reachable : Nat → Answers := fun _ => ⟨some .Udp, true, true, none⟩

end TransactionTimers
