import Nebula.Sip.Message

/- The four transaction machines and the loop that drives them. What the machines
   ask of the outside (the stored address, the last response, the transport, the
   resend counter) is an answer record for each pass of the loop; what they do to
   it is a list of effects. Durations are in milliseconds. -/
namespace Fsm
open Sip

def T1 : Nat := 150
def T2 : Nat := 4000
def T4 : Nat := 5000

inductive FsmError where
  | InvalidState
  | InvalidInput
  | NoState
  deriving DecidableEq, Repr

inductive Input where
  | No
  | Req
  | Ack
  | Resp1xx
  | Resp2xx
  | Resp300to699
  | TimerA
  | TimerB
  | TimerD
  | TimerM
  | TimerCancel
  | TimerE
  | TimerF
  | TimerK
  | TimerJ
  | TimerG
  | TimerH
  | TimerI
  | TimerL
  | TransportError
  deriving DecidableEq, Repr

inductive State where
  | Trying
  | Calling
  | Proceeding
  | Accepted
  | Completed
  | Confirmed
  | Terminated
  deriving DecidableEq, Repr

/-- remoteUri is the transport of the stored address when it can be read. -/
structure Answers where
  remoteUri : Option TransportType
  lastResponse : Bool
  sent : Bool
  resendCount : Option Nat
  deriving DecidableEq, Repr

inductive Effect where
  | reply
  | resend
  | passup
  | ack
  | registerTimer (duration : Nat) (input : Input)
  deriving DecidableEq, Repr

structure Act where
  state : State
  input : Input
  effects : List Effect
  deriving DecidableEq, Repr

/-- A reply reads the address and the response again before it is sent. -/
def Answers.reply (env : Answers) : Bool :=
  env.remoteUri.isSome && env.lastResponse && env.sent

/-- Registers a timer when the address can be read. -/
def Answers.timerByTransport (env : Answers) (udp other : Nat) (input : Input) : List Effect :=
  match env.remoteUri with
  | none => []
  | some .Udp => [.registerTimer udp input]
  | some _ => [.registerTimer other input]

def clientPassup : Input × List Effect := (.No, [.passup])

def clientTimeout : Input × List Effect := (.No, [])

def clientTransportError : Input × List Effect := (.No, [])

def noAction : Input × List Effect := (.No, [])

def act (state : State) (result : Input × List Effect) : Except FsmError Act :=
  .ok ⟨state, result.1, result.2⟩

namespace InviteClient

def ack : Input × List Effect := (.No, [.ack])

def clientResend (env : Answers) : Input × List Effect :=
  (.No, [.resend, .registerTimer (T1 * Nat.pow 2 (env.resendCount.getD 0)) .TimerA])

def clientResendCancelWait : Input × List Effect := (.No, [.registerTimer (4 * T1) .TimerCancel])

def clientResendCancel (env : Answers) : Input × List Effect :=
  (.No, [.resend, .registerTimer (4 * T1 * Nat.pow 2 (env.resendCount.getD 0)) .TimerCancel])

def act200 : Input × List Effect := (.No, [.passup, .registerTimer (64 * T1) .TimerM])

def act300 (env : Answers) : Input × List Effect :=
  (.No, [.passup, .ack] ++ env.timerByTransport 32000 0 .TimerD)

def callingAct (env : Answers) : Input → Except FsmError Act
  | .Resp1xx => act .Proceeding clientPassup
  | .Resp2xx => act .Accepted act200
  | .Resp300to699 => act .Completed (act300 env)
  | .TimerA => act .Calling (clientResend env)
  | .TimerB => act .Terminated clientTimeout
  | .TimerCancel => act .Calling clientResendCancelWait
  | .TransportError => act .Terminated clientTransportError
  | _ => .error .InvalidInput

def proceedingAct (env : Answers) : Input → Except FsmError Act
  | .Resp1xx => act .Proceeding clientPassup
  | .Resp2xx => act .Accepted act200
  | .Resp300to699 => act .Completed (act300 env)
  | .TimerCancel => act .Proceeding (clientResendCancel env)
  | _ => .error .InvalidInput

def acceptedAct : Input → Except FsmError Act
  | .Resp2xx => act .Accepted clientPassup
  | .TimerM => act .Terminated noAction
  | _ => .error .InvalidInput

def completedAct : Input → Except FsmError Act
  | .Resp300to699 => act .Accepted ack
  | .TimerD => act .Terminated noAction
  | .TransportError => act .Terminated clientTransportError
  | _ => .error .InvalidInput

def action (env : Answers) (state : State) (input : Input) : Except FsmError Act :=
  match state with
  | .Calling => callingAct env input
  | .Proceeding => proceedingAct env input
  | .Accepted => acceptedAct input
  | .Completed => completedAct input
  | _ => .error .InvalidState

end InviteClient

def serverAct200 : Input × List Effect := (.No, [.reply, .registerTimer (64 * T1) .TimerL])

def serverAct300 (env : Answers) : Input × List Effect :=
  (.No, [.reply] ++ (if env.remoteUri = some .Udp then [.registerTimer T1 .TimerG] else []) ++
    [.registerTimer (64 * T1) .TimerH])

def serverRespond : Input × List Effect := (.No, [.reply])

def serverAck (env : Answers) : Input × List Effect :=
  (.No, env.timerByTransport T4 0 .TimerI)

def serverPassup : Input × List Effect := (.No, [])

def serverTimeout : Input × List Effect := (.No, [])

def serverTransportError : Input × List Effect := (.No, [])

namespace InviteServer

def proceedingAct (env : Answers) : Input → Except FsmError Act
  | .Req => act .Proceeding serverRespond
  | .Resp1xx => act .Proceeding serverRespond
  | .TransportError => act .Proceeding serverTransportError
  | .Resp2xx => act .Accepted serverAct200
  | .Resp300to699 => act .Completed (serverAct300 env)
  | _ => .error .InvalidInput

def completedAct (env : Answers) : Input → Except FsmError Act
  | .Req => act .Completed serverRespond
  | .TimerG => act .Completed serverRespond
  | .TransportError => act .Completed serverTransportError
  | .Ack => act .Confirmed (serverAck env)
  | .TimerH => act .Terminated serverTimeout
  | _ => .error .InvalidInput

def acceptedAct : Input → Except FsmError Act
  | .Req => act .Accepted noAction
  | .Resp2xx => act .Accepted serverRespond
  | .Ack => act .Accepted serverPassup
  | .TransportError => act .Accepted serverTransportError
  | .TimerL => act .Terminated noAction
  | _ => .error .InvalidInput

def confirmedAct : Input → Except FsmError Act
  | .TimerI => act .Terminated noAction
  | _ => .error .InvalidInput

def action (env : Answers) (state : State) (input : Input) : Except FsmError Act :=
  match state with
  | .Proceeding => proceedingAct env input
  | .Completed => completedAct env input
  | .Confirmed => confirmedAct input
  | .Accepted => acceptedAct input
  | _ => .error .InvalidState

end InviteServer

namespace NonInviteClient

def clientTryingResend (env : Answers) : Input × List Effect :=
  (.No, [.resend, .registerTimer (min (T1 * Nat.pow 2 (env.resendCount.getD 0)) T2) .TimerE])

def clientProceedingResend : Input × List Effect := (.No, [.resend, .registerTimer T2 .TimerE])

def act200to699 (env : Answers) : Input × List Effect :=
  (.No, [.passup] ++ env.timerByTransport T4 0 .TimerK)

def tryingAct (env : Answers) : Input → Except FsmError Act
  | .TimerE => act .Trying (clientTryingResend env)
  | .Resp1xx => act .Proceeding clientPassup
  | .Resp2xx => act .Completed (act200to699 env)
  | .Resp300to699 => act .Completed (act200to699 env)
  | .TimerF => act .Terminated clientTimeout
  | .TransportError => act .Terminated clientTransportError
  | _ => .error .InvalidInput

def proceedingAct (env : Answers) : Input → Except FsmError Act
  | .TimerE => act .Proceeding clientProceedingResend
  | .Resp1xx => act .Proceeding clientPassup
  | .Resp2xx => act .Completed (act200to699 env)
  | .Resp300to699 => act .Completed (act200to699 env)
  | .TimerF => act .Terminated clientTimeout
  | .TransportError => act .Terminated clientTransportError
  | _ => .error .InvalidInput

def completedAct : Input → Except FsmError Act
  | .TimerK => act .Terminated noAction
  | _ => .error .InvalidInput

def action (env : Answers) (state : State) (input : Input) : Except FsmError Act :=
  match state with
  | .Trying => tryingAct env input
  | .Proceeding => proceedingAct env input
  | .Completed => completedAct input
  | _ => .error .InvalidState

end NonInviteClient

namespace NonInviteServer

/- The one action that hands a follow-up input back to the loop. -/
def act200to699 (env : Answers) : Input × List Effect :=
  if env.reply then (.No, [.reply] ++ env.timerByTransport (64 * T1) 0 .TimerJ)
  else (.TransportError, [.reply])

def tryingAct (env : Answers) : Input → Except FsmError Act
  | .Resp1xx => act .Proceeding serverRespond
  | .Resp2xx => act .Completed (act200to699 env)
  | .Resp300to699 => act .Completed (act200to699 env)
  | _ => .error .InvalidInput

def proceedingAct (env : Answers) : Input → Except FsmError Act
  | .Req => act .Proceeding serverRespond
  | .Resp1xx => act .Proceeding serverRespond
  | .Resp2xx => act .Completed (act200to699 env)
  | .Resp300to699 => act .Completed (act200to699 env)
  | .TransportError => act .Terminated serverTransportError
  | _ => .error .InvalidInput

def completedAct : Input → Except FsmError Act
  | .Req => act .Proceeding serverRespond
  | .TransportError => act .Terminated serverTransportError
  | .TimerJ => act .Terminated noAction
  | _ => .error .InvalidInput

def action (env : Answers) (state : State) (input : Input) : Except FsmError Act :=
  match state with
  | .Trying => tryingAct env input
  | .Proceeding => proceedingAct env input
  | .Completed => completedAct input
  | _ => .error .InvalidState

end NonInviteServer

def action (key : TransactionKey) (env : Answers) (state : State) (input : Input) :
    Except FsmError Act :=
  match key.method, key.txType with
  | .INVITE, .Server => InviteServer.action env state input
  | .INVITE, .Client => InviteClient.action env state input
  | _, .Server => NonInviteServer.action env state input
  | _, .Client => NonInviteClient.action env state input

/-- One pass of the loop: what was applied where, and what came of it. -/
structure Pass where
  state : State
  input : Input
  result : Except FsmError Act
  deriving DecidableEq

/-- The outcome of a call, none while it is still looping, with the stored state
    (none once the record is deleted) and the passes in order. -/
structure Run where
  outcome : Option (Except FsmError Unit)
  stored : Option State
  passes : List Pass
  deriving DecidableEq

def Run.prepend (pass : Pass) (run : Run) : Run := { run with passes := pass :: run.passes }

/- The follow-up input is bound inside the body of the loop, so it decides whether
   to go on and is gone when the next pass begins: every pass applies the input
   the call was made with. -/
def spinLoop (key : TransactionKey) (input : Input) :
    Nat → (Nat → Answers) → Option State → Run
  | 0, _, stored => ⟨none, stored, []⟩
  | fuel + 1, answers, stored =>
    match stored with
    | none => ⟨some (.error .NoState), none, []⟩
    | some state =>
      match action key (answers 0) state input with
      | .error fault =>
        ⟨some (.error fault), some state, [⟨state, input, .error fault⟩]⟩
      | .ok done =>
        if done.state = .Terminated then ⟨some (.ok ()), none, [⟨state, input, .ok done⟩]⟩
        else if done.input = .No then
          ⟨some (.ok ()), some done.state, [⟨state, input, .ok done⟩]⟩
        else
          (spinLoop key input fuel (fun i => answers (i + 1)) (some done.state)).prepend
            ⟨state, input, .ok done⟩

/-- Whatever the call does, it is over after this many passes. -/
def spin (key : TransactionKey) (answers : Nat → Answers) (stored : Option State)
    (input : Input) (extra : Nat) : Run :=
  spinLoop key input (extra + 2) answers stored

end Fsm
