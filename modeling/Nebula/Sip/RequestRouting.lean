import Nebula.Lib.Interleaving
import Nebula.Sip.SpinFollowUp
import Nebula.Sip.Transaction

/- Copies of one request that are handled at the same time, one Redis command a step.
   The copy that creates the record is the one that goes to the router. -/
namespace RequestRouting
open Sip Fsm Transaction Interleaving

/-- A request as the transports hand it on, with the address that it came from. -/
structure Request where
  msg : Message
  uri : Uri
  isRequest : msg.isRequest = true
  remote : msg.remoteUri = some uri

/-- The records, who was answered 100, and what was sent to the router. -/
structure Shared where
  store : Store
  trying : List Nat
  sent : List Nat

inductive Outcome where
  | routed
  | drove
  | dropped
  deriving DecidableEq

/-- Where a copy is in handle_msg. -/
inductive Stage where
  | absent
  | received
  | checking
  | driving
  | creating
  | routing
  | done (outcome : Outcome)
  deriving DecidableEq

/-- The input that receive hands to the machine of a server transaction. -/
def receiveInput (key : TransactionKey) (msg : Message) : Option Input :=
  match msg.method with
  | none => none
  | some method =>
    if method = key.method then some .Req else if method = .ACK then some .Ack else none

def receive (key : TransactionKey) (answers : Nat → Answers) (msg : Message) (store : Store) :
    Store :=
  match receiveInput key msg, store.txs key.redisKey with
  | some input, some record =>
    match (spin key answers (some record.state) input 0).stored with
    | some state => setState store key.redisKey state
    | none => expire store key.redisKey
  | _, _ => store

def exit (store : Store) (key : TransactionKey) : Bool := (store.txs key.redisKey).isSome

/-- A request of which a copy is handled: send_trying, get_tx, then receive or
    Transaction::new and the router. -/
def handleStep (sha256 : String → String) (request : Request) (pid : Nat)
    (answers : Nat → Answers) (shared : Shared) : Stage → Option (Shared × Stage)
  | .absent => none
  | .received =>
    some (if request.msg.method = some .INVITE then
      { shared with trying := pid :: shared.trying } else shared, .checking)
  | .checking =>
    match getTxKey sha256 request.msg .Server with
    | .error _ => some (shared, .creating)
    | .ok key => some (shared, if exit shared.store key then .driving else .creating)
  | .driving =>
    match getTxKey sha256 request.msg .Server with
    | .error _ => none
    | .ok key =>
      some ({ shared with store := receive key answers request.msg shared.store }, .done .drove)
  | .creating =>
    match getTxKey sha256 request.msg .Server with
    | .error _ => some (shared, .done .dropped)
    | .ok key =>
      match create key request.uri shared.store with
      | .error _ => some (shared, .done .dropped)
      | .ok (store, _) => some ({ shared with store := store }, .routing)
  | .routing => some ({ shared with sent := pid :: shared.sent }, .done .routed)
  | .done _ => none

/-- The other transactions, and what timers and responses do to this one. -/
def handling (sha256 : String → String) (request : Request) :
    System Shared Stage (Nat → Answers) Store where
  step := handleStep sha256 request
  outside store shared := some { shared with store := store }

def arrived (store : Store) (copies : Nat) : World Shared Stage :=
  ⟨⟨store, [], []⟩, fun pid => if pid < copies then .received else .absent⟩

def Recorded (sha256 : String → String) (request : Request) (store : Store) : Prop :=
  ∃ key, getTxKey sha256 request.msg .Server = .ok key ∧ exit store key = true

/-- Meanwhile the record is not deleted, and it is for the copies to create it. -/
def Undeleted (sha256 : String → String) (request : Request) :
    Guard Shared Stage (Nat → Answers) Store
  | _, .proc _ _ => True
  | world, .outside store =>
    Recorded sha256 request store ↔ Recorded sha256 request world.shared.store

/-- How many steps a copy has before it at most. -/
def Stage.left : Stage → Nat
  | .received => 4
  | .checking => 3
  | .driving => 1
  | .creating => 2
  | .routing => 1
  | _ => 0

/-- One copy at most is sent to the router; every copy comes to an end, whatever it is
    answered; and once all have, one was sent if the request has a Via, and none otherwise. -/
structure RoutedOnce (sha256 : String → String) (request : Request) (copies : Nat)
    (world : World Shared Stage) : Prop where
  once : world.shared.sent.length ≤ 1
  sent : ∀ pid, pid ∈ world.shared.sent ↔ world.procs pid = .done .routed
  moves : ∀ pid < copies, (∀ outcome, world.procs pid ≠ .done outcome) → ∀ answers,
    ∃ shared stage,
      handleStep sha256 request pid answers world.shared (world.procs pid) = some (shared, stage) ∧
        stage.left < (world.procs pid).left
  routed : 0 < copies → (∀ pid < copies, ∃ outcome, world.procs pid = .done outcome) →
    request.msg.via ≠ [] → ∃ pid < copies, world.shared.sent = [pid]
  unrouted : request.msg.via = [] → world.shared.sent = []

/-- A request or an ACK that is received ends no transaction. -/
theorem received_not_ended {key : TransactionKey} {env : Answers} {state : State} {input : Input}
    {done : Act} (isInput : input = .Req ∨ input = .Ack)
    (ran : action key env state input = .ok done) : done.state ≠ .Terminated := by
  have server : ∀ done, InviteServer.action env state input = .ok done →
      done.state ≠ .Terminated := by
    intro done ran
    rcases isInput with rfl | rfl <;> cases state <;> cases ran <;> exact State.noConfusion
  have client : ∀ done, InviteClient.action env state input = .ok done →
      done.state ≠ .Terminated := by
    intro done ran
    rcases isInput with rfl | rfl <;> cases state <;> cases ran
  have otherServer : ∀ done, NonInviteServer.action env state input = .ok done →
      done.state ≠ .Terminated := by
    intro done ran
    rcases isInput with rfl | rfl <;> cases state <;> cases ran <;> exact State.noConfusion
  have otherClient : ∀ done, NonInviteClient.action env state input = .ok done →
      done.state ≠ .Terminated := by
    intro done ran
    rcases isInput with rfl | rfl <;> cases state <;> cases ran
  unfold action at ran
  split at ran
  · exact server done ran
  · exact client done ran
  · exact otherServer done ran
  · exact otherClient done ran

section
variable {sha256 : String → String} {request : Request} {key : TransactionKey}
  {answers : Nat → Answers}

theorem receiveInput_cases {msg : Message} {input : Input}
    (isInput : receiveInput key msg = some input) : input = .Req ∨ input = .Ack := by
  unfold receiveInput at isInput
  split at isInput
  · cases isInput
  · split at isInput
    · exact Or.inl (Option.some.inj isInput).symm
    · split at isInput
      · exact Or.inr (Option.some.inj isInput).symm
      · cases isInput

theorem received_stored (key : TransactionKey) (answers : Nat → Answers) (state : State)
    {input : Input}
    (isInput : input = .Req ∨ input = .Ack) :
    ∃ next, (spin key answers (some state) input 0).stored = some next := by
  cases ran : action key (answers 0) state input with
  | error fault =>
    rw [SpinFollowUp.spin_failed ran]
    exact ⟨state, rfl⟩
  | ok done =>
    have sent : ¬ SpinFollowUp.CannotSendFinal key (answers 0) (some state) input := by
      rintro ⟨_, _, _, response, _⟩
      rcases isInput with rfl | rfl <;> rcases response with response | response <;> cases response
    rw [SpinFollowUp.spin_quiet ran (SpinFollowUp.action_quiet sent ran)]
    exact ⟨done.state, if_neg (received_not_ended isInput ran)⟩

theorem receive_exit (key : TransactionKey) (answers : Nat → Answers) (msg : Message)
    (store : Store) : exit (receive key answers msg store) key = exit store key := by
  unfold receive
  split
  · rename_i input record isInput recorded
    obtain ⟨next, stored⟩ := received_stored key answers record.state
      (receiveInput_cases isInput)
    rw [stored]
    simp [exit, setState, recorded]
  · rfl

theorem recorded_iff (isKey : getTxKey sha256 request.msg .Server = .ok key) (store : Store) :
    Recorded sha256 request store ↔ exit store key = true := by
  constructor
  · rintro ⟨other, isOther, recorded⟩
    rw [isKey] at isOther
    cases isOther
    exact recorded
  · intro recorded
    exact ⟨key, isKey, recorded⟩

theorem key_of_via (sha256 : String → String) (listed : request.msg.via ≠ []) :
    ∃ key, getTxKey sha256 request.msg .Server = .ok key := by
  unfold getTxKey
  split
  · rename_i noVia
    exact absurd noVia listed
  · exact ⟨_, rfl⟩

theorem via_of_key (isKey : getTxKey sha256 request.msg .Server = .ok key) :
    request.msg.via ≠ [] := by
  intro noVia
  unfold getTxKey at isKey
  rw [noVia] at isKey
  cases isKey

theorem create_cases (key : TransactionKey) (uri : Uri) (store : Store) :
    (exit store key = true ∧ create key uri store = .error .TransactionExist) ∨
      (exit store key = false ∧ ∃ after timers, create key uri store = .ok (after, timers) ∧
        exit after key = true) := by
  unfold create exit
  cases store.txs key.redisKey with
  | some record => exact Or.inl ⟨rfl, rfl⟩
  | none => exact Or.inr ⟨rfl, _, _, rfl, by simp⟩

/-- The copy has created the record, and is sent to the router or has been. -/
def Owner : Stage → Prop
  | .routing => True
  | .done .routed => True
  | _ => False

/-- The copy has found the record of another one. -/
def Found : Stage → Prop
  | .driving => True
  | .done .drove => True
  | .done .dropped => True
  | _ => False

/-- What one step of a copy does. -/
inductive Effect (sha256 : String → String) (request : Request) (pid : Nat) (shared : Shared)
    (stage : Stage) (after : Shared) (next : Stage) : Prop where
  | moves (before : ¬ Owner stage) (notOwner : ¬ Owner next) (present : next ≠ .absent)
    (recorded : Recorded sha256 request after.store ↔ Recorded sha256 request shared.store)
    (found : Found next → Found stage ∨
      (request.msg.via ≠ [] → Recorded sha256 request after.store))
    (drives : next = .driving → request.msg.via ≠ [])
    (sent : after.sent = shared.sent)
  | creates (at_ : stage = .creating) (next_ : next = .routing)
    (fresh : ¬ Recorded sha256 request shared.store)
    (recorded : Recorded sha256 request after.store) (sent : after.sent = shared.sent)
  | routes (at_ : stage = .routing) (next_ : next = .done .routed)
    (store : after.store = shared.store) (sent : after.sent = pid :: shared.sent)

/-- A copy that goes on without a record of its own or of another one. -/
theorem Effect.passes {pid : Nat} {shared after : Shared} {stage next : Stage}
    (before : ¬ Owner stage) (notOwner : ¬ Owner next) (present : next ≠ .absent)
    (unfound : ¬ Found next) (store : after.store = shared.store) (sent : after.sent = shared.sent) :
    Effect sha256 request pid shared stage after next := by
  refine .moves before notOwner present (by rw [store]) (fun found => absurd found unfound) ?_ sent
  rintro rfl
  exact absurd trivial unfound

theorem handle_effect {pid : Nat} {shared after : Shared} {stage next : Stage}
    (stepped : handleStep sha256 request pid answers shared stage = some (after, next)) :
    Effect sha256 request pid shared stage after next := by
  cases stage with
  | absent | done outcome => cases stepped
  | received =>
    obtain ⟨rfl, rfl⟩ := Prod.mk.inj (Option.some.inj stepped)
    by_cases invite : request.msg.method = some .INVITE
    · rw [if_pos invite]
      exact .passes id id Stage.noConfusion id rfl rfl
    · rw [if_neg invite]
      exact .passes id id Stage.noConfusion id rfl rfl
  | checking =>
    unfold handleStep at stepped
    cases isKey : getTxKey sha256 request.msg .Server with
    | error fault =>
      rw [isKey] at stepped
      obtain ⟨rfl, rfl⟩ := Prod.mk.inj (Option.some.inj stepped)
      exact .passes id id Stage.noConfusion id rfl rfl
    | ok key =>
      rw [isKey] at stepped
      obtain ⟨rfl, rfl⟩ := Prod.mk.inj (Option.some.inj stepped)
      by_cases recorded : exit shared.store key = true
      · rw [if_pos recorded]
        exact .moves id id Stage.noConfusion Iff.rfl
          (fun _ => Or.inr fun _ => (recorded_iff isKey _).mpr recorded)
          (fun _ => via_of_key isKey) rfl
      · rw [if_neg recorded]
        exact .passes id id Stage.noConfusion id rfl rfl
  | driving =>
    unfold handleStep at stepped
    cases isKey : getTxKey sha256 request.msg .Server with
    | error fault =>
      rw [isKey] at stepped
      cases stepped
    | ok key =>
      rw [isKey] at stepped
      obtain ⟨rfl, rfl⟩ := Prod.mk.inj (Option.some.inj stepped)
      have same : Recorded sha256 request (receive key answers request.msg shared.store) ↔
          Recorded sha256 request shared.store := by
        rw [recorded_iff isKey, recorded_iff isKey, receive_exit]
      exact .moves id id Stage.noConfusion same (fun _ => Or.inl trivial)
        (fun drives => by cases drives) rfl
  | creating =>
    unfold handleStep at stepped
    cases isKey : getTxKey sha256 request.msg .Server with
    | error fault =>
      rw [isKey] at stepped
      obtain ⟨rfl, rfl⟩ := Prod.mk.inj (Option.some.inj stepped)
      have noVia : request.msg.via = [] := by
        by_contra listed
        obtain ⟨key, other⟩ := key_of_via sha256 listed
        rw [isKey] at other
        cases other
      exact .moves id id Stage.noConfusion Iff.rfl
        (fun _ => Or.inr fun listed => absurd noVia listed) (fun drives => by cases drives) rfl
    | ok key =>
      rw [isKey] at stepped
      dsimp only at stepped
      rcases create_cases key request.uri shared.store with
        ⟨recorded, exists_⟩ | ⟨fresh, created, timers, isCreated, recorded⟩
      · rw [exists_] at stepped
        obtain ⟨rfl, rfl⟩ := Prod.mk.inj (Option.some.inj stepped)
        exact .moves id id Stage.noConfusion Iff.rfl
          (fun _ => Or.inr fun _ => (recorded_iff isKey _).mpr recorded)
          (fun drives => by cases drives) rfl
      · rw [isCreated] at stepped
        obtain ⟨rfl, rfl⟩ := Prod.mk.inj (Option.some.inj stepped)
        refine .creates rfl rfl ?_ ((recorded_iff isKey _).mpr recorded) rfl
        rw [recorded_iff isKey, fresh]
        exact Bool.false_ne_true
  | routing =>
    obtain ⟨rfl, rfl⟩ := Prod.mk.inj (Option.some.inj stepped)
    exact .routes rfl rfl rfl rfl

/-- Where the copies are, and what that says about the record and the router. -/
structure Held (sha256 : String → String) (request : Request) (copies : Nat)
    (world : World Shared Stage) : Prop where
  present : ∀ pid, world.procs pid = .absent ↔ copies ≤ pid
  owned : Recorded sha256 request world.shared.store ↔ ∃ pid, Owner (world.procs pid)
  single : ∀ pid other, Owner (world.procs pid) → Owner (world.procs other) → pid = other
  found : ∀ pid, Found (world.procs pid) → request.msg.via ≠ [] →
    Recorded sha256 request world.shared.store
  drives : ∀ pid, world.procs pid = .driving → request.msg.via ≠ []
  sent : ∀ pid, pid ∈ world.shared.sent ↔ world.procs pid = .done .routed
  nodup : world.shared.sent.Nodup

theorem arrived_held {store : Store} (copies : Nat) (fresh : ¬ Recorded sha256 request store) :
    Held sha256 request copies (arrived store copies) := by
  have stage : ∀ pid, (arrived store copies).procs pid = .absent ∨
      (arrived store copies).procs pid = .received := by
    intro pid
    by_cases near : pid < copies
    · exact Or.inr (if_pos near)
    · exact Or.inl (if_neg near)
  constructor
  · intro pid
    by_cases near : pid < copies
    · simp [arrived, near]
    · simp [arrived, Nat.not_lt.mp near]
  · refine iff_of_false fresh ?_
    rintro ⟨pid, owner⟩
    rcases stage pid with isStage | isStage <;> simp [isStage, Owner] at owner
  · intro pid other owner
    rcases stage pid with isStage | isStage <;> simp [isStage, Owner] at owner
  · intro pid found
    rcases stage pid with isStage | isStage <;> simp [isStage, Found] at found
  · intro pid drives
    rcases stage pid with isStage | isStage <;> simp [isStage] at drives
  · intro pid
    rcases stage pid with isStage | isStage <;> simp [isStage] <;> simp [arrived]
  · exact List.nodup_nil

/-- Of a step the stage of one copy is new, the others are where they were. -/
theorem moved_cases {P : Nat → Stage → Prop} {world : World Shared Stage} {pid : Nat}
    {shared : Shared} {next : Stage} (mine : P pid next)
    (others : ∀ other, other ≠ pid → P other (world.procs other)) (other : Nat) :
    P other ((world.moved pid shared next).procs other) := by
  by_cases same : other = pid
  · subst same
    rw [moved_same]
    exact mine
  · rw [moved_other _ _ _ same]
    exact others other same

theorem stepped_present {pid : Nat} {shared after : Shared} {stage next : Stage}
    (stepped : handleStep sha256 request pid answers shared stage = some (after, next)) :
    stage ≠ .absent ∧ next ≠ .absent := by
  constructor
  · rintro rfl
    cases stepped
  · cases handle_effect stepped with
    | moves _ _ present => exact present
    | creates _ next_ => exact next_ ▸ Stage.noConfusion
    | routes _ next_ => exact next_ ▸ Stage.noConfusion

theorem moved_present {copies : Nat} {world : World Shared Stage} {pid : Nat} (after : Shared)
    {next : Stage} (present : ∀ pid, world.procs pid = .absent ↔ copies ≤ pid)
    (before : world.procs pid ≠ .absent) (now : next ≠ .absent) (other : Nat) :
    (world.moved pid after next).procs other = .absent ↔ copies ≤ other := by
  apply moved_cases (P := fun other stage => stage = .absent ↔ copies ≤ other)
  · exact iff_of_false now fun far => before ((present pid).mpr far)
  · exact fun other _ => present other

theorem only_owner {world : World Shared Stage} {pid : Nat} {after : Shared} {next : Stage}
    (others : ∀ other, other ≠ pid → ¬ Owner (world.procs other)) :
    ∀ one other, Owner ((world.moved pid after next).procs one) →
      Owner ((world.moved pid after next).procs other) → one = other := by
  have isPid : ∀ one, Owner ((world.moved pid after next).procs one) → one = pid := by
    intro one
    by_contra apart
    obtain ⟨owner, different⟩ := Classical.not_imp.mp apart
    rw [moved_other _ _ _ different] at owner
    exact others one different owner
  intro one other isOne isOther
  rw [isPid one isOne, isPid other isOther]

theorem held_step {copies : Nat} {world : World Shared Stage} {pid : Nat} {after : Shared}
    {next : Stage} (held : Held sha256 request copies world)
    (stepped : handleStep sha256 request pid answers world.shared (world.procs pid) =
      some (after, next)) :
    Held sha256 request copies (world.moved pid after next) := by
  obtain ⟨before, now⟩ := stepped_present stepped
  have present := moved_present after held.present before now
  cases handle_effect stepped with
  | moves notBefore notOwner _ recorded found drives sent =>
    have owners : ∀ other, Owner ((world.moved pid after next).procs other) ↔
        Owner (world.procs other) := by
      intro other
      by_cases same : other = pid
      · subst same
        rw [moved_same]
        exact iff_of_false notOwner notBefore
      · rw [moved_other _ _ _ same]
    constructor
    · exact present
    · rw [moved_shared, recorded, held.owned]
      exact exists_congr fun other => (owners other).symm
    · intro one other isOne isOther
      exact held.single one other ((owners one).mp isOne) ((owners other).mp isOther)
    · apply moved_cases (P := fun _ stage => Found stage → request.msg.via ≠ [] →
        Recorded sha256 request (world.moved pid after next).shared.store)
      · intro isFound listed
        rcases found isFound with earlier | first
        · exact recorded.mpr (held.found pid earlier listed)
        · exact first listed
      · intro other _ isFound listed
        exact recorded.mpr (held.found other isFound listed)
    · exact moved_cases (P := fun _ stage => stage = .driving → request.msg.via ≠ []) drives
        fun other _ => held.drives other
    · apply moved_cases (P := fun other stage =>
        other ∈ (world.moved pid after next).shared.sent ↔ stage = .done .routed)
      · rw [moved_shared, sent, held.sent]
        exact iff_of_false (fun same => notBefore (same ▸ trivial))
          fun same => notOwner (same ▸ trivial)
      · intro other _
        rw [moved_shared, sent]
        exact held.sent other
    · rw [moved_shared, sent]
      exact held.nodup
  | creates at_ next_ fresh recorded sent =>
    subst next_
    have unowned : ∀ other, ¬ Owner (world.procs other) :=
      fun other owner => fresh (held.owned.mpr ⟨other, owner⟩)
    constructor
    · exact present
    · refine iff_of_true recorded ⟨pid, ?_⟩
      rw [moved_same]
      trivial
    · apply only_owner
      exact fun other _ => unowned other
    · exact fun _ _ _ => recorded
    · exact moved_cases (P := fun _ stage => stage = .driving → request.msg.via ≠ [])
        (fun drives => by cases drives) fun other _ => held.drives other
    · apply moved_cases (P := fun other stage =>
        other ∈ (world.moved pid after Stage.routing).shared.sent ↔ stage = .done .routed)
      · rw [moved_shared, sent, held.sent]
        exact iff_of_false (fun same => unowned pid (same ▸ trivial)) Stage.noConfusion
      · intro other _
        rw [moved_shared, sent]
        exact held.sent other
    · rw [moved_shared, sent]
      exact held.nodup
  | routes at_ next_ store sent =>
    subst next_
    have owner : Owner (world.procs pid) := at_ ▸ trivial
    have recorded : Recorded sha256 request after.store := by
      rw [store]
      exact held.owned.mpr ⟨pid, owner⟩
    have unsent : pid ∉ world.shared.sent := by
      rw [held.sent, at_]
      exact Stage.noConfusion
    constructor
    · exact present
    · refine iff_of_true recorded ⟨pid, ?_⟩
      rw [moved_same]
      trivial
    · apply only_owner
      exact fun other different isOwner => different (held.single other pid isOwner owner)
    · exact fun _ _ _ => recorded
    · exact moved_cases (P := fun _ stage => stage = .driving → request.msg.via ≠ [])
        (fun drives => by cases drives) fun other _ => held.drives other
    · apply moved_cases (P := fun other stage =>
        other ∈ (world.moved pid after (Stage.done .routed)).shared.sent ↔ stage = .done .routed)
      · rw [moved_shared, sent]
        exact iff_of_true List.mem_cons_self rfl
      · intro other different
        rw [moved_shared, sent, List.mem_cons, ← held.sent]
        exact or_iff_right different
    · rw [moved_shared, sent]
      exact List.nodup_cons.mpr ⟨unsent, held.nodup⟩

theorem held_outside {copies : Nat} {world : World Shared Stage} {store : Store}
    (held : Held sha256 request copies world)
    (undeleted : Recorded sha256 request store ↔ Recorded sha256 request world.shared.store) :
    Held sha256 request copies ⟨{ world.shared with store := store }, world.procs⟩ :=
  ⟨held.present, undeleted.trans held.owned, held.single,
    fun pid found listed => undeleted.mpr (held.found pid found listed), held.drives, held.sent,
    held.nodup⟩

/-- A copy that has not come to its end goes on, whatever it is answered. -/
theorem handle_moves {pid : Nat} {shared : Shared} {stage : Stage} (present : stage ≠ .absent)
    (drives : stage = .driving → request.msg.via ≠ [])
    (unfinished : ∀ outcome, stage ≠ .done outcome) (answers : Nat → Answers) :
    ∃ after next, handleStep sha256 request pid answers shared stage = some (after, next) ∧
      next.left < stage.left := by
  cases stage with
  | absent => exact absurd rfl present
  | done outcome => exact absurd rfl (unfinished outcome)
  | received => exact ⟨_, _, rfl, by decide⟩
  | routing => exact ⟨_, _, rfl, by decide⟩
  | checking =>
    unfold handleStep
    cases getTxKey sha256 request.msg .Server with
    | error fault => exact ⟨_, _, rfl, by decide⟩
    | ok key =>
      refine ⟨_, _, rfl, ?_⟩
      split <;> decide
  | driving =>
    obtain ⟨key, isKey⟩ := key_of_via sha256 (drives rfl)
    unfold handleStep
    rw [isKey]
    exact ⟨_, _, rfl, by decide⟩
  | creating =>
    unfold handleStep
    cases getTxKey sha256 request.msg .Server with
    | error fault => exact ⟨_, _, rfl, by decide⟩
    | ok key =>
      dsimp only
      rcases create_cases key request.uri shared.store with
        ⟨_, exists_⟩ | ⟨_, created, timers, isCreated, _⟩
      · rw [exists_]
        exact ⟨_, _, rfl, by decide⟩
      · rw [isCreated]
        exact ⟨_, _, rfl, by decide⟩

/-- What is sent once is one copy or none. -/
theorem sent_cases {copies : Nat} {world : World Shared Stage}
    (held : Held sha256 request copies world) :
    world.shared.sent = [] ∨ ∃ pid, world.shared.sent = [pid] := by
  have isSent : ∀ pid, pid ∈ world.shared.sent → Owner (world.procs pid) :=
    fun pid listed => (held.sent pid).mp listed ▸ trivial
  have nodup := held.nodup
  cases known : world.shared.sent with
  | nil => exact Or.inl rfl
  | cons pid rest =>
    right
    refine ⟨pid, ?_⟩
    rw [known] at isSent nodup
    cases rest with
    | nil => rfl
    | cons other rest =>
      have same := held.single pid other (isSent pid List.mem_cons_self)
        (isSent other (List.mem_cons_of_mem _ List.mem_cons_self))
      subst same
      exact absurd List.mem_cons_self (List.nodup_cons.mp nodup).1

/-- Once all copies have come to their end, the one that created the record was sent. -/
theorem all_done_routed {copies : Nat} {world : World Shared Stage}
    (held : Held sha256 request copies world) (any : 0 < copies)
    (ended : ∀ pid < copies, ∃ outcome, world.procs pid = .done outcome)
    (listed : request.msg.via ≠ []) : ∃ pid < copies, world.shared.sent = [pid] := by
  have recorded : Recorded sha256 request world.shared.store := by
    obtain ⟨outcome, isDone⟩ := ended 0 any
    cases outcome with
    | routed => exact held.owned.mpr ⟨0, isDone ▸ trivial⟩
    | drove | dropped => exact held.found 0 (isDone ▸ trivial) listed
  obtain ⟨pid, owner⟩ := held.owned.mp recorded
  have near : pid < copies := by
    by_contra far
    rw [(held.present pid).mpr (Nat.not_lt.mp far)] at owner
    exact owner
  obtain ⟨outcome, isDone⟩ := ended pid near
  have routed : world.procs pid = .done .routed := by
    rw [isDone] at owner ⊢
    cases outcome with
    | routed => rfl
    | drove | dropped => exact owner.elim
  have isSent := (held.sent pid).mpr routed
  rcases sent_cases held with none_ | ⟨one, isOne⟩
  · rw [none_] at isSent
    cases isSent
  · rw [isOne] at isSent ⊢
    rw [List.mem_singleton] at isSent
    subst isSent
    exact ⟨pid, near, rfl⟩

theorem held_routed {copies : Nat} {world : World Shared Stage}
    (held : Held sha256 request copies world) : RoutedOnce sha256 request copies world := by
  constructor
  · rcases sent_cases held with none_ | ⟨pid, one⟩
    · simp [none_]
    · simp [one]
  · exact held.sent
  · intro pid near unfinished answers
    have present : world.procs pid ≠ .absent :=
      fun absent => absurd ((held.present pid).mp absent) (Nat.not_le.mpr near)
    exact handle_moves present (held.drives pid) unfinished answers
  · exact all_done_routed held
  · intro noVia
    by_contra any
    obtain ⟨pid, isSent⟩ := List.exists_mem_of_ne_nil _ any
    have owner : Owner (world.procs pid) := (held.sent pid).mp isSent ▸ trivial
    obtain ⟨key, isKey, _⟩ := held.owned.mpr ⟨pid, owner⟩
    exact absurd noVia (via_of_key isKey)

end

/-- However the copies of a request interleave, and whatever else happens that leaves the
    record alone, one of them is sent to the router. -/
theorem routed_once (sha256 : String → String) (request : Request) (store : Store) (copies : Nat)
    (fresh : ¬ Recorded sha256 request store) (last : World Shared Stage)
    (run : Run (handling sha256 request) (Undeleted sha256 request) (arrived store copies) last) :
    RoutedOnce sha256 request copies last := by
  apply held_routed
  apply run_keeps (Held sha256 request copies) (arrived_held copies fresh) _ run
  intro world action after held undeleted acted
  rcases act_cases acted with ⟨pid, answers, shared, stage, rfl, stepped, rfl⟩ |
    ⟨other, shared, rfl, happened, rfl⟩
  · exact held_step held stepped
  · cases happened
    exact held_outside held undeleted

def invite : Message where
  method := some .INVITE
  requestUri := some { host := "example.com" }
  via := [⟨.Udp, "192.0.2.1", some 5060, "z9hG4bK1"⟩]
  callid := "c1"
  remoteUri := some { host := "192.0.2.1" }

def invite_request : Request := ⟨invite, { host := "192.0.2.1" }, rfl, rfl⟩

/-- The address is known and whatever is sent arrives. -/
def reachable : Nat → Answers := fun _ => ⟨some .Udp, true, true, none⟩

def only_copies (_ : World Shared Stage) : Action (Nat → Answers) Store → Bool
  | .proc _ _ => true
  | .outside _ => false

theorem only_copies_undeleted (sha256 : String → String) (request : Request)
    (world : World Shared Stage) (action : Action (Nat → Answers) Store)
    (isCopy : only_copies world action = true) : Undeleted sha256 request world action := by
  cases action with
  | proc pid answers => trivial
  | outside store => cases isCopy

/-- Both copies find no record before either creates it. -/
def both_find_none : List (Action (Nat → Answers) Store) :=
  [0, 1, 0, 1, 1, 0, 1].map fun pid => .proc pid reachable

theorem none_recorded (sha256 : String → String) (request : Request) :
    ¬ Recorded sha256 request Store.empty := by
  rintro ⟨key, _, recorded⟩
  cases recorded

/-- The copy that creates the record is sent to the router, the other one is dropped. -/
theorem routed_once_race :
    ∃ last, runWhere (handling id invite_request) only_copies (arrived Store.empty 2)
        both_find_none = some last ∧
      last.procs 0 = .done .dropped ∧ last.shared.sent = [1] ∧
      RoutedOnce id invite_request 2 last := by
  have ran : ∃ last, runWhere (handling id invite_request) only_copies (arrived Store.empty 2)
      both_find_none = some last ∧ last.procs 0 = .done .dropped ∧ last.shared.sent = [1] :=
    ⟨_, rfl, by decide, by decide⟩
  obtain ⟨last, took, dropped, sent⟩ := ran
  exact ⟨last, took, dropped, sent, routed_once id invite_request Store.empty 2
    (none_recorded id invite_request) last
    (run_of_runWhere (only_copies_undeleted id invite_request) both_find_none took)⟩

def without_via : Message := { invite with via := [] }

def without_via_request : Request := ⟨without_via, { host := "192.0.2.1" }, rfl, rfl⟩

/-- A request that has no Via has no key, and no copy of it is sent. -/
theorem without_via_unrouted :
    ¬ ∀ sha256 request store copies last, ¬ Recorded sha256 request store →
      Run (handling sha256 request) (Undeleted sha256 request) (arrived store copies) last →
      0 < copies → (∀ pid < copies, ∃ outcome, last.procs pid = .done outcome) →
        ∃ pid < copies, last.shared.sent = [pid] := by
  intro routed
  have ran : ∃ last, runWhere (handling id without_via_request) only_copies
      (arrived Store.empty 1) ([0, 0, 0].map fun pid => .proc pid reachable) = some last ∧
        last.procs 0 = .done .dropped ∧ last.shared.sent = [] :=
    ⟨_, rfl, by decide, by decide⟩
  obtain ⟨last, took, dropped, unsent⟩ := ran
  obtain ⟨pid, _, sent⟩ := routed id without_via_request Store.empty 1 last
    (none_recorded id without_via_request)
    (run_of_runWhere (only_copies_undeleted id without_via_request) _ took) Nat.one_pos
    (fun pid near => ⟨.dropped, by rw [Nat.lt_one_iff.mp near]; exact dropped⟩)
  rw [unsent] at sent
  cases sent

end RequestRouting
