import Nebula.Sip.Fsm

/- Follow-up inputs of the transaction loop. Only the final response of a
   non-INVITE server transaction produces one, when it cannot be sent; the loop
   then applies the original input once more and gives up. -/
namespace SpinFollowUp
open Sip Fsm

/-- A non-INVITE server transaction is asked for its final response and cannot
    send it. -/
def CannotSendFinal (key : TransactionKey) (env : Answers) (stored : Option State)
    (input : Input) : Prop :=
  key.method ≠ .INVITE ∧ key.txType = .Server ∧
    (stored = some .Trying ∨ stored = some .Proceeding) ∧
    (input = .Resp2xx ∨ input = .Resp300to699) ∧ env.reply = false

instance (key : TransactionKey) (env : Answers) (stored : Option State) (input : Input) :
    Decidable (CannotSendFinal key env stored input) :=
  inferInstanceAs (Decidable (_ ∧ _ ∧ _ ∧ _ ∧ _))

theorem inviteServer_quiet {env : Answers} {state : State} {input : Input} {done : Act}
    (run : InviteServer.action env state input = .ok done) : done.input = .No := by
  cases state <;> cases input <;> cases run <;> rfl

theorem inviteClient_quiet {env : Answers} {state : State} {input : Input} {done : Act}
    (run : InviteClient.action env state input = .ok done) : done.input = .No := by
  cases state <;> cases input <;> cases run <;> rfl

theorem nonInviteClient_quiet {env : Answers} {state : State} {input : Input} {done : Act}
    (run : NonInviteClient.action env state input = .ok done) : done.input = .No := by
  cases state <;> cases input <;> cases run <;> rfl

/-- The step is the one that sends a final response. -/
def Final (state : State) (input : Input) : Prop :=
  (state = .Trying ∨ state = .Proceeding) ∧ (input = .Resp2xx ∨ input = .Resp300to699)

theorem nonInviteServer_final {env : Answers} {state : State} {input : Input}
    (final : Final state input) :
    NonInviteServer.action env state input =
      Fsm.act .Completed (NonInviteServer.act200to699 env) := by
  obtain ⟨early, response⟩ := final
  rcases early with early | early <;> rcases response with response | response <;>
    subst early <;> subst response <;> rfl

/- Every other step is quiet and stays out of Completed. -/
theorem nonInviteServer_other {env : Answers} {state : State} {input : Input} {done : Act}
    (other : ¬ Final state input) (run : NonInviteServer.action env state input = .ok done) :
    done.input = .No ∧ done.state ≠ .Completed := by
  unfold Final at other
  cases state <;> cases input <;> first
    | (exfalso; apply other; decide)
    | (cases run <;> exact ⟨rfl, by decide⟩)

theorem act200to699_sent {env : Answers} (sent : env.reply = true) :
    (NonInviteServer.act200to699 env).1 = .No ∧
      ∃ duration, .registerTimer duration .TimerJ ∈ (NonInviteServer.act200to699 env).2 := by
  unfold NonInviteServer.act200to699
  rw [if_pos sent]
  refine ⟨rfl, ?_⟩
  have known : env.remoteUri.isSome = true := by
    simp only [Answers.reply, Bool.and_eq_true] at sent
    exact sent.1.1
  obtain ⟨transport, read⟩ := Option.isSome_iff_exists.mp known
  unfold Answers.timerByTransport
  rw [read]
  cases transport with
  | Udp => exact ⟨64 * T1, by simp⟩
  | Tcp => exact ⟨0, by simp⟩
  | Tls => exact ⟨0, by simp⟩
  | Ws => exact ⟨0, by simp⟩
  | Wss => exact ⟨0, by simp⟩

theorem action_nonInvite_server {key : TransactionKey} (method : key.method ≠ .INVITE)
    (server : key.txType = .Server) (env : Answers) (state : State) (input : Input) :
    action key env state input = NonInviteServer.action env state input := by
  unfold action
  rw [server]
  cases named : key.method <;> first | exact absurd named method | rfl

theorem action_quiet {key : TransactionKey} {env : Answers} {state : State} {input : Input}
    {done : Act} (sent : ¬ CannotSendFinal key env (some state) input)
    (run : action key env state input = .ok done) : done.input = .No := by
  by_cases invite : key.method = .INVITE
  · unfold action at run
    rw [invite] at run
    cases type : key.txType with
    | Server =>
      rw [type] at run
      exact inviteServer_quiet run
    | Client =>
      rw [type] at run
      exact inviteClient_quiet run
  · cases type : key.txType with
    | Server =>
      rw [action_nonInvite_server invite type] at run
      by_cases final : Final state input
      · rw [nonInviteServer_final final] at run
        cases run
        have replied : env.reply = true := by
          by_contra failed
          apply sent
          refine ⟨invite, type, ?_, final.2, by simpa using failed⟩
          rcases final.1 with early | early
          · exact Or.inl (congrArg some early)
          · exact Or.inr (congrArg some early)
        exact (act200to699_sent replied).1
      · exact (nonInviteServer_other final run).1
    | Client =>
      unfold action at run
      rw [type] at run
      cases named : key.method <;> rw [named] at run <;>
        first | exact absurd named invite | exact nonInviteClient_quiet run

/-- Every follow-up input is applied by the next pass, in the state it was issued for. -/
def Delivered (passes : List Pass) : Prop :=
  ∀ i pass done, passes[i]? = some pass → pass.result = .ok done → done.input ≠ .No →
    ∃ next, passes[i + 1]? = some next ∧ next.state = done.state ∧ next.input = done.input

/-- What a call of spin owes: follow-ups are delivered, an unsent final response
    deletes the record, and Completed is entered with a timer to leave it. -/
structure Lawful (key : TransactionKey) (answers : Nat → Answers) (stored : Option State)
    (input : Input) (run : Run) : Prop where
  delivered : Delivered run.passes
  deleted : CannotSendFinal key (answers 0) stored input → run.stored = none
  timed : key.method ≠ .INVITE → key.txType = .Server → stored ≠ some .Completed →
    run.stored = some .Completed → ∃ pass ∈ run.passes, ∃ done, pass.result = .ok done ∧
      ∃ duration, .registerTimer duration .TimerJ ∈ done.effects

theorem delivered_single {pass : Pass}
    (quiet : ∀ done, pass.result = .ok done → done.input = .No) : Delivered [pass] := by
  intro i other done found ran following
  cases i with
  | zero =>
    cases found
    exact absurd (quiet done ran) following
  | succ i => cases found

/- A pass that hands nothing back is the whole call. -/
theorem spin_quiet {key : TransactionKey} {answers : Nat → Answers} {state : State}
    {input : Input} {done : Act} (run : action key (answers 0) state input = .ok done)
    (quiet : done.input = .No) (extra : Nat) :
    spin key answers (some state) input extra =
      ⟨some (.ok ()), if done.state = .Terminated then none else some done.state,
        [⟨state, input, .ok done⟩]⟩ := by
  unfold spin spinLoop
  simp only [run]
  by_cases ended : done.state = .Terminated
  · rw [if_pos ended, if_pos ended]
  · rw [if_neg ended, if_neg ended, if_pos quiet]

theorem spin_failed {key : TransactionKey} {answers : Nat → Answers} {state : State}
    {input : Input} {fault : FsmError} (run : action key (answers 0) state input = .error fault)
    (extra : Nat) :
    spin key answers (some state) input extra =
      ⟨some (.error fault), some state, [⟨state, input, .error fault⟩]⟩ := by
  unfold spin spinLoop
  simp only [run]

/- The lost follow-up: the second pass meets the original input in Completed. -/
theorem spin_unsent {key : TransactionKey} {answers : Nat → Answers} {state : State}
    {input : Input} (unsent : CannotSendFinal key (answers 0) (some state) input) (extra : Nat) :
    spin key answers (some state) input extra =
      ⟨some (.error .InvalidInput), some .Completed,
        [⟨state, input, .ok ⟨.Completed, .TransportError, [.reply]⟩⟩,
          ⟨.Completed, input, .error .InvalidInput⟩]⟩ := by
  obtain ⟨method, server, early, response, failed⟩ := unsent
  have final : Final state input := by
    refine ⟨?_, response⟩
    rcases early with early | early
    · exact Or.inl (Option.some.inj early)
    · exact Or.inr (Option.some.inj early)
  have first : action key (answers 0) state input =
      .ok ⟨.Completed, .TransportError, [.reply]⟩ := by
    rw [action_nonInvite_server method server, nonInviteServer_final final]
    simp [Fsm.act, NonInviteServer.act200to699, failed]
  have second : action key (answers 1) .Completed input = .error .InvalidInput := by
    rw [action_nonInvite_server method server]
    rcases response with response | response <;> subst response <;> rfl
  unfold spin spinLoop
  simp only [first]
  unfold spinLoop
  simp only [Nat.zero_add, second]
  rfl

theorem lawful_of_sent {key : TransactionKey} {answers : Nat → Answers} {stored : Option State}
    {input : Input} (sent : ¬ CannotSendFinal key (answers 0) stored input) (extra : Nat) :
    Lawful key answers stored input (spin key answers stored input extra) := by
  cases stored with
  | none =>
    constructor
    · intro i pass done found
      cases found
    · intro unsent
      exact absurd unsent sent
    · intro _ _ _ entered
      cases entered
  | some state =>
    cases run : action key (answers 0) state input with
    | error fault =>
      rw [spin_failed run]
      constructor
      · apply delivered_single
        intro done ran
        cases ran
      · intro unsent
        exact absurd unsent sent
      · intro _ _ before entered
        exact absurd entered before
    | ok done =>
      have quiet := action_quiet sent run
      rw [spin_quiet run quiet]
      constructor
      · apply delivered_single
        intro other ran
        cases ran
        exact quiet
      · intro unsent
        exact absurd unsent sent
      · intro method server _ entered
        refine ⟨_, List.mem_singleton_self _, done, rfl, ?_⟩
        rw [action_nonInvite_server method server] at run
        by_cases final : Final state input
        · rw [nonInviteServer_final final] at run
          cases run
          by_cases replied : (answers 0).reply = true
          · exact (act200to699_sent replied).2
          · exfalso
            apply sent
            refine ⟨method, server, ?_, final.2, by simpa using replied⟩
            rcases final.1 with early | early
            · exact Or.inl (congrArg some early)
            · exact Or.inr (congrArg some early)
        · have elsewhere := (nonInviteServer_other final run).2
          simp only at entered
          split at entered
          · cases entered
          · exact absurd (Option.some.inj entered) elsewhere

end SpinFollowUp
