import Nebula.Lib.Interleaving
import Nebula.Sip.RequestRouting

/- The hashes of transactions under calls that check and write them one Redis command at
   a time, while others delete them. HSET on a key that is gone makes a new hash. -/
namespace TransactionRecords
open Sip Fsm Interleaving

/-- A hash; its texts are kept as the messages that they are printed from. -/
structure Hash where
  state : Option State := none
  addr : Option Uri := none
  request : Option Message := none
  response : Option Message := none
  lastResponse : Option Message := none
  resendCount : Nat := 0
  expires : Bool := false
  deriving DecidableEq

structure Shared where
  txs : String → Option Hash
  locks : String → Option Nat

inductive Field where
  | request
  | response
  | lastResponse
  deriving DecidableEq

def Hash.set (hash : Hash) (field : Field) (msg : Message) : Hash :=
  match field with
  | .request => { hash with request := some msg }
  | .response => { hash with response := some msg }
  | .lastResponse => { hash with lastResponse := some msg }

/-- What makes calls on a transaction: TransactionManager::send, handle_msg, respond and
    cancel, and timers. -/
inductive Call where
  | send (key : TransactionKey) (uri : Uri) (request : Message)
  | handle_msg (key : TransactionKey) (uri : Option Uri) (msg : Message) (code : Option Int)
  | respond (key : TransactionKey) (resp : Message) (code : Option Int)
  | cancel (key : TransactionKey) (cancel : Message)
  | timer (key : TransactionKey) (input : Input)

/-- Where a call is, named by its next command. -/
inductive Stage where
  | idle
  | new (key : TransactionKey) (uri : Uri) (request : Option Message)
  | handleExists (key : TransactionKey) (uri : Option Uri) (msg : Message) (code : Option Int)
  | respondExists (key : TransactionKey) (resp : Message) (code : Option Int)
  | cancelExists (key : TransactionKey) (cancel : Message)
  | getRequest (key : TransactionKey) (cancel : Message)
  | getRemoteUri (key : TransactionKey) (field : Field) (msg : Message) (next : Option Input)
  | set (key : TransactionKey) (field : Field) (msg : Message) (next : Option Input)
  | lock (key : TransactionKey) (input : Input)
  | getState (key : TransactionKey) (input : Input)
  | action (key : TransactionKey) (input : Input) (state : State)
  | delete (key : TransactionKey)
  | setState (key : TransactionKey) (input : Input) (state : State) (next : Input)
  | unlock (key : TransactionKey)
  | done

/-- What a step is told: the call to begin with, what an action is answered, whether the
    transports have a local address, and whether a lock is waited for no longer. -/
structure Choice where
  call : Call
  env : Answers
  localUri : Bool
  timeout : Bool

def responseInput (code : Int) : Input :=
  if code < 200 then .Resp1xx else if code < 300 then .Resp2xx else .Resp300to699

def begin : Call → Stage
  | .send key uri request => .new key uri (some request)
  | .handle_msg key uri msg code => .handleExists key uri msg code
  | .respond key resp code => .respondExists key resp code
  | .cancel key cancel => .cancelExists key cancel
  | .timer key input => .lock key input

/-- Transaction::new sets the whole hash and its expiry in one script, which otherwise
    renews the expiry. -/
def hmset_nx_ex (key : TransactionKey) (uri : Uri) : Option Hash → Hash
  | none => { state := some (Transaction.entryState key), addr := some (Transaction.addrFields uri),
              expires := true }
  | some hash => { hash with expires := true }

/-- What receive does with a message of the transaction before it spins. -/
def receive (key : TransactionKey) (msg : Message) (code : Option Int) : Stage :=
  match key.txType with
  | .Server =>
    match RequestRouting.receiveInput key msg with
    | some input => .lock key input
    | none => .done
  | .Client =>
    match code with
    | some code => .set key .response msg (some (responseInput code))
    | none => .done

/-- What respond goes on with; 100 has been sent already. -/
def respondInput (code : Int) : Option Input :=
  if code = 100 then none else some (responseInput code)

def spinOrEnd (key : TransactionKey) : Option Input → Stage
  | some input => .lock key input
  | none => .done

def Shared.put (shared : Shared) (key : TransactionKey) (hash : Option Hash) : Shared :=
  { shared with txs := Function.update shared.txs key.redisKey hash }

def step (pid : Nat) (choice : Choice) (shared : Shared) : Stage → Option (Shared × Stage)
  | .idle => some (shared, begin choice.call)
  | .new key uri request =>
    let old := shared.txs key.redisKey
    some (shared.put key (some (hmset_nx_ex key uri old)),
      match old, request with
      | none, some msg => .set key .request msg none
      | _, _ => .done)
  | .handleExists key uri msg code =>
    match shared.txs key.redisKey, uri with
    | some _, _ => some (shared, receive key msg code)
    | none, some uri => some (shared, .new key uri none)
    | none, none => some (shared, .done)
  | .respondExists key resp code =>
    match shared.txs key.redisKey, code with
    | some _, some code => some (shared, .getRemoteUri key .lastResponse resp (respondInput code))
    | _, _ => some (shared, .done)
  | .cancelExists key cancel =>
    some (shared, if (shared.txs key.redisKey).isSome then .getRequest key cancel else .done)
  | .getRequest key cancel =>
    match (shared.txs key.redisKey).bind Hash.request with
    | some _ => some (shared, .getRemoteUri key .request cancel none)
    | none => some (shared, .done)
  | .getRemoteUri key field msg next =>
    match (shared.txs key.redisKey).bind Hash.addr with
    | some _ => some (shared, if choice.localUri then .set key field msg next else .done)
    | none => some (shared, .done)
  | .set key field msg next =>
    some (shared.put key (some (((shared.txs key.redisKey).getD {}).set field msg)),
      spinOrEnd key next)
  | .lock key input =>
    match shared.locks key.redisKey with
    | none =>
      some ({ shared with locks := Function.update shared.locks key.redisKey (some pid) },
        .getState key input)
    | some _ => some (shared, if choice.timeout then .getState key input else .lock key input)
  | .getState key input =>
    match (shared.txs key.redisKey).bind Hash.state with
    | some state => some (shared, .action key input state)
    | none => some (shared, .unlock key)
  | .action key input state =>
    match Fsm.action key choice.env state input with
    | .error _ => some (shared, .unlock key)
    | .ok done =>
      -- incr_resend is part of a resend and leaves a key that is gone alone.
      some (if .resend ∈ done.effects then
          shared.put key ((shared.txs key.redisKey).map fun hash =>
            { hash with resendCount := hash.resendCount + 1 })
        else shared,
        if done.state = .Terminated then .delete key else .setState key input done.state done.input)
  | .delete key => some (shared.put key none, .unlock key)
  | .setState key input state next =>
    some (shared.put key (some { (shared.txs key.redisKey).getD {} with state := some state }),
      if next = .No then .unlock key else .getState key input)
  | .unlock key =>
    some ({ shared with
      locks := if shared.locks key.redisKey = some pid then
          Function.update shared.locks key.redisKey none
        else shared.locks }, .done)
  | .done => none

/-- Keys whose time has come go. -/
inductive Expiry where
  | tx (key : String)
  | lock (key : String)

def expire (shared : Shared) : Expiry → Option Shared
  | .tx key =>
    match shared.txs key with
    | some hash =>
      if hash.expires then some { shared with txs := Function.update shared.txs key none } else none
    | none => none
  | .lock key => some { shared with locks := Function.update shared.locks key none }

def records : System Shared Stage Choice Expiry where
  step := step
  outside event shared := expire shared event

def idle : World Shared Stage := ⟨⟨fun _ => none, fun _ => none⟩, fun _ => .idle⟩

def Whole (hash : Hash) : Prop := hash.state.isSome = true ∧ hash.expires = true

def NoOrphans (shared : Shared) : Prop :=
  ∀ key hash, shared.txs key = some hash → Whole hash

/-- The hash that the next command of a call sets a field of. -/
def writes : Stage → Option String
  | .set key _ _ _ => some key.redisKey
  | .setState key _ _ _ => some key.redisKey
  | _ => none

/-- A field is set of a hash that is still there. -/
def Guarded : Guard Shared Stage Choice Expiry
  | world, .proc pid _ => ∀ key, writes (world.procs pid) = some key →
      (world.shared.txs key).isSome = true
  | _, .outside _ => True

/-- What one command may do to the hashes. -/
inductive Change (txs : String → Option Hash) (written : Option String) :
    (String → Option Hash) → Prop where
  | same (reads : written = none) : Change txs written txs
  | kept (reads : written = none) (key : String) (hash : Option Hash)
    (whole : ∀ new, hash = some new → (∀ old, txs key = some old → Whole old) → Whole new) :
    Change txs written (Function.update txs key hash)
  | set (key : String) (isKey : written = some key) (change : Hash → Hash)
    (keeps : ∀ old, Whole old → Whole (change old)) (bare : ¬ Whole (change {})) :
    Change txs written (Function.update txs key (some (change ((txs key).getD {}))))

section
variable {pid : Nat} {choice : Choice} {shared after : Shared} {stage next : Stage}

theorem set_whole {hash : Hash} (whole : Whole hash) (field : Field) (msg : Message) :
    Whole (hash.set field msg) := by
  cases field <;> exact whole

theorem bare_set (field : Field) (msg : Message) : ¬ Whole (({} : Hash).set field msg) := by
  cases field <;> exact fun whole => Bool.false_ne_true whole.1

theorem hmset_nx_ex_whole (key : TransactionKey) (uri : Uri) {old : Option Hash}
    (whole : ∀ hash, old = some hash → Whole hash) : Whole (hmset_nx_ex key uri old) := by
  cases old with
  | none => exact ⟨rfl, rfl⟩
  | some hash => exact ⟨(whole hash rfl).1, rfl⟩

/-- What the next command of a call does to the hashes. -/
theorem step_change (stepped : step pid choice shared stage = some (after, next)) :
    Change shared.txs (writes stage) after.txs := by
  cases stage with
  | idle | cancelExists | unlock =>
    obtain ⟨rfl, rfl⟩ := Prod.mk.inj (Option.some.inj stepped)
    exact .same rfl
  | done => cases stepped
  | new key uri request =>
    obtain ⟨rfl, rfl⟩ := Prod.mk.inj (Option.some.inj stepped)
    refine .kept rfl key.redisKey _ ?_
    intro hash isNew whole
    rw [← Option.some.inj isNew]
    exact hmset_nx_ex_whole key uri whole
  | handleExists | respondExists | getRequest | getRemoteUri | getState =>
    dsimp only [step] at stepped
    split at stepped <;> obtain ⟨rfl, rfl⟩ := Prod.mk.inj (Option.some.inj stepped) <;>
      exact .same rfl
  | lock key input =>
    dsimp only [step] at stepped
    split at stepped <;> obtain ⟨rfl, rfl⟩ := Prod.mk.inj (Option.some.inj stepped) <;>
      exact .same rfl
  | set key field msg spins =>
    obtain ⟨rfl, rfl⟩ := Prod.mk.inj (Option.some.inj stepped)
    exact .set key.redisKey rfl (fun hash => hash.set field msg)
      (fun old whole => set_whole whole field msg) (bare_set field msg)
  | action key input state =>
    dsimp only [step] at stepped
    split at stepped
    · obtain ⟨rfl, rfl⟩ := Prod.mk.inj (Option.some.inj stepped)
      exact .same rfl
    · obtain ⟨rfl, rfl⟩ := Prod.mk.inj (Option.some.inj stepped)
      split
      · refine .kept rfl key.redisKey _ ?_
        intro hash isNew whole
        obtain ⟨old, isOld, rfl⟩ := Option.map_eq_some_iff.mp isNew
        exact whole old isOld
      · exact .same rfl
  | delete key =>
    obtain ⟨rfl, rfl⟩ := Prod.mk.inj (Option.some.inj stepped)
    exact .kept rfl key.redisKey none (fun hash isNew => by cases isNew)
  | setState key input state follows =>
    obtain ⟨rfl, rfl⟩ := Prod.mk.inj (Option.some.inj stepped)
    exact .set key.redisKey rfl (fun hash => { hash with state := some state })
      (fun old whole => ⟨rfl, whole.2⟩) (fun whole => Bool.false_ne_true whole.2)

theorem update_whole {txs : String → Option Hash} {key : String} {value : Option Hash}
    (whole : ∀ key hash, txs key = some hash → Whole hash)
    (wholeValue : ∀ hash, value = some hash → Whole hash) :
    ∀ other hash, Function.update txs key value other = some hash → Whole hash := by
  intro other hash stored
  by_cases same : other = key
  · subst same
    rw [Function.update_self] at stored
    exact wholeValue hash stored
  · rw [Function.update_of_ne same] at stored
    exact whole other hash stored

/-- A command keeps all hashes whole exactly if it sets no field of one that is gone. -/
theorem change_whole {txs txsAfter : String → Option Hash} {written : Option String}
    (whole : ∀ key hash, txs key = some hash → Whole hash) (change : Change txs written txsAfter) :
    (∀ key, written = some key → (txs key).isSome = true) ↔
      ∀ key hash, txsAfter key = some hash → Whole hash := by
  cases change with
  | same reads =>
    refine iff_of_true ?_ whole
    intro key isKey
    rw [reads] at isKey
    cases isKey
  | kept reads key hash wholeNew =>
    refine iff_of_true ?_ (update_whole whole fun new isNew => wholeNew new isNew (whole key))
    intro key isKey
    rw [reads] at isKey
    cases isKey
  | set key isKey change keeps bare =>
    constructor
    · intro present
      obtain ⟨old, isOld⟩ := Option.isSome_iff_exists.mp (present key isKey)
      apply update_whole whole
      intro hash isNew
      rw [isOld] at isNew
      cases isNew
      exact keeps old (whole key old isOld)
    · intro wholeAfter other isOther
      rw [isKey] at isOther
      cases isOther
      by_contra gone
      rw [Option.not_isSome_iff_eq_none] at gone
      rw [gone] at wholeAfter
      exact bare (wholeAfter key _ (Function.update_self key _ txs))

theorem expire_whole {event : Expiry} (whole : NoOrphans shared)
    (expired : expire shared event = some after) : NoOrphans after := by
  cases event with
  | lock key =>
    cases expired
    exact whole
  | tx key =>
    dsimp only [expire] at expired
    split at expired
    · split at expired
      · cases expired
        exact update_whole whole (fun hash isNew => by cases isNew)
      · cases expired
    · cases expired

end

theorem action_whole {world after : World Shared Stage} {action : Action Choice Expiry}
    (whole : NoOrphans world.shared) (acted : act records world action = some after) :
    Guarded world action ↔ NoOrphans after.shared := by
  rcases act_cases acted with ⟨pid, choice, shared, stage, rfl, stepped, rfl⟩ |
    ⟨event, shared, rfl, expired, rfl⟩
  · exact change_whole whole (step_change stepped)
  · exact iff_of_true trivial (expire_whole whole expired)

/-- In every run in which fields are set only of hashes that are there, every hash has a
    state and an expiry, and the next command keeps this exactly if it is guarded too. -/
theorem no_orphans (last : World Shared Stage) (run : Run records Guarded idle last) :
    NoOrphans last.shared ∧ ∀ action after, act records last action = some after →
      (Guarded last action ↔ NoOrphans after.shared) := by
  have whole : NoOrphans last.shared := by
    apply run_keeps (fun world => NoOrphans world.shared) _ _ run
    · intro key hash stored
      cases stored
    · intro world action after whole guarded acted
      exact (action_whole whole acted).mp guarded
  exact ⟨whole, fun action after acted => action_whole whole acted⟩

def invite : Message where
  method := some .INVITE
  requestUri := some { host := "example.com" }
  via := [⟨.Udp, "192.0.2.1", some 5060, "z9hG4bK1"⟩]
  callid := "c1"

def ringing : Message where
  via := invite.via
  callid := "c1"
  cseq := { seq := 1, method := .INVITE }

def invite_key : TransactionKey := .new id "z9hG4bK1" .INVITE "c1" .Client

def invite_uri : Uri := { host := "example.com", ip := "192.0.2.9" }

/-- A call with the address known and every message delivered. -/
def calls (call : Call) : Choice := ⟨call, ⟨some .Udp, true, true, none⟩, true, false⟩

def sends : Call := .send invite_key invite_uri invite

def rings : Call := .handle_msg invite_key none ringing (some 180)

def timerB : Call := .timer invite_key .TimerB

def moves (turns : List (Nat × Call)) : List (Action Choice Expiry) :=
  turns.map fun turn => .proc turn.1 (calls turn.2)

/-- The request is sent, and a response is received that another one follows. -/
def rung : List (Action Choice Expiry) :=
  moves [(0, sends), (0, sends), (0, sends), (1, rings), (1, rings), (1, rings)]

/-- Timer B ends the transaction between the check for a response and its writing. -/
def ended_meanwhile : List (Action Choice Expiry) :=
  moves [(0, sends), (0, sends), (0, sends), (1, rings), (1, rings), (2, timerB), (2, timerB),
    (2, timerB), (2, timerB), (2, timerB), (1, rings)]

def still_there (world : World Shared Stage) : Action Choice Expiry → Bool
  | .proc pid _ =>
    match writes (world.procs pid) with
    | some key => (world.shared.txs key).isSome
    | none => true
  | .outside _ => true

theorem still_there_guarded (world : World Shared Stage) (action : Action Choice Expiry)
    (isThere : still_there world action = true) : Guarded world action := by
  cases action with
  | outside event => trivial
  | proc pid choice =>
    intro key isKey
    dsimp only [still_there] at isThere
    rw [isKey] at isThere
    exact isThere

/-- A response is stored with a transaction that goes on. -/
theorem no_orphans_rung : ∃ last, runWhere records still_there idle rung = some last ∧
    (last.shared.txs invite_key.redisKey).map Hash.response = some (some ringing) ∧
    NoOrphans last.shared := by
  have ran : ∃ last, runWhere records still_there idle rung = some last ∧
      (last.shared.txs invite_key.redisKey).map Hash.response = some (some ringing) :=
    ⟨_, rfl, by decide⟩
  obtain ⟨last, took, stored⟩ := ran
  exact ⟨last, took, stored, (no_orphans last (run_of_runWhere still_there_guarded rung took)).1⟩

/-- A response that is written after the transaction was deleted makes a hash without a
    state. -/
theorem response_resurrects :
    ¬ ∀ last, Run records (fun _ _ => True) idle last → NoOrphans last.shared := by
  intro never
  have ran : ∃ last, runAll records idle ended_meanwhile = some last ∧
      last.shared.txs invite_key.redisKey = some { response := some ringing } :=
    ⟨_, rfl, by decide⟩
  obtain ⟨last, took, stored⟩ := ran
  have whole := never last (run_of_runAll ended_meanwhile took) _ _ stored
  exact Bool.false_ne_true whole.1

end TransactionRecords
