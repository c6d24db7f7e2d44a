import Mathlib.Algebra.GroupWithZero.Nat
import Nebula.Lib.Interleaving
import Nebula.Switchboard.CallContexts

/- A watcher of the dialogs of a user: its hash with the CSeq of its NOTIFYs, the set of watchers
   of the user, and the NOTIFYs. Every command to Redis is a step of its own, and one whose reply
   is lost is sent again. -/
namespace Presence
open Interleaving
open CallContexts (CallDirection)

section Body

inductive DialogState where
  | Early
  | Confirmed
  deriving DecidableEq

def DialogState.text : DialogState → String
  | .Early => "early"
  | .Confirmed => "confirmed"

def directionText : CallDirection → String
  | .Initiator => "initiator"
  | .Recipient => "recipient"

structure DialogInfo where
  local_name : String
  remote : String
  direction : CallDirection
  callid : String
  state : DialogState

structure Watcher where
  presentity_user : String
  presentity_domain : String

def dialogOf (uuid : String) (dialogs : List DialogInfo) (global_dnd : Option Bool) :
    Option DialogInfo :=
  match dialogs.find? (fun dialog => dialog.state = .Confirmed) with
  | some dialog => some dialog
  | none =>
    if dialogs.isEmpty && global_dnd = some true then
      some ⟨"DND", "DND", .Recipient, uuid, .Confirmed⟩
    else dialogs.head?

def DialogInfo.xml (watcher : Watcher) (dialog : DialogInfo) : String :=
  "<dialog id=\"" ++ dialog.callid ++ "\" call-id=\"" ++ dialog.callid ++ "\" direction=\"" ++
    directionText dialog.direction ++ "\"><state>" ++ dialog.state.text ++
    "</state><remote><identity>sip:" ++ dialog.remote ++ "@" ++ watcher.presentity_domain ++
    "</identity><target uri=\"sip:" ++ dialog.remote ++ "@" ++ watcher.presentity_domain ++
    "\" /></remote><local><identity>sip:" ++ dialog.local_name ++ "@" ++
    watcher.presentity_domain ++ "</identity><target uri=\"sip:" ++ dialog.local_name ++ "@" ++
    watcher.presentity_domain ++ "\" /></local></dialog>"

def dialogBody (watcher : Watcher) (version : Int) (dialog : Option DialogInfo) : String :=
  "<?xml version=\"1.0\"?><dialog-info xmlns=\"urn:ietf:params:xml:ns:dialog-info\" version=\"" ++
    toString version ++ "\" state=\"full\" entity=\"sip:" ++ watcher.presentity_user ++ "@" ++
    watcher.presentity_domain ++ "\">" ++ dialog.elim "" (DialogInfo.xml watcher) ++
    "</dialog-info>"

@[irreducible] def i32 (n : Int) : Int := n.bmod (2 ^ 32)

/-- The CSeq that a count is sent as, and the version that goes with it. -/
def cseqOf (count : Nat) : Int := i32 count

def versionOf (count : Nat) : Int := i32 (cseqOf count - 1)

end Body

section Model

/-- The hash of the watcher; each time it is made anew is a life of its own. -/
structure Hash where
  cseq : Nat
  life : Nat

/-- What hincrby_key_exits has returned: 0 for a hash that is gone. -/
structure Number where
  life : Option Nat
  count : Nat
  deriving DecidableEq

structure Notify where
  number : Number
  seq : Int
  expires : Int
  body : String

structure Shared where
  hash : Option Hash
  lives : Nat
  listed : Bool
  dialogs : List DialogInfo
  global_dnd : Option Bool
  calls : Nat
  sent : List Notify

inductive Operation where
  | subscribe
  | unsubscribe
  | notify_dialog

/-- The command that an operation has come to. -/
inductive Stage where
  | idle
  | sadd
  | expire_set
  | hset
  | expire
  | del
  | srem
  | smembers
  | checking
  | removing
  | hget
  | counting
  | timing (number : Number)
  | fetching (number : Number) (expires : Int)
  | reading (number : Number) (expires : Int) (dialogs : List DialogInfo)
  | sending (notify : Notify)

/-- A command is run and its reply read, or run and its reply lost, or there is no answer to it
    at all. A time that is left and an id are those that the answer brings. -/
inductive Choice where
  | start (operation : Operation)
  | answered (left : Int) (uuid : String)
  | lost
  | gave_up

inductive Outside where
  | changed (dialogs : List DialogInfo) (global_dnd : Option Bool)
  | call_lost
  | hash_expires
  | set_expires

variable (watcher : Watcher) (shared : Shared)

def Shared.hset : Shared :=
  match shared.hash with
  | some _ => shared
  | none => { shared with hash := some ⟨0, shared.lives⟩, lives := shared.lives + 1 }

def Shared.hincrby_key_exits : Shared × Number :=
  match shared.hash with
  | some hash =>
    ({ shared with hash := some { hash with cseq := hash.cseq + 1 } },
      ⟨some hash.life, hash.cseq + 1⟩)
  | none => (shared, ⟨none, 0⟩)

/-- What a command does where it is run. -/
def run : Stage → Shared
  | .sadd => { shared with listed := true }
  | .hset => shared.hset
  | .del => { shared with hash := none }
  | .srem | .removing => { shared with listed := false }
  | .counting => shared.hincrby_key_exits.1
  | .sending notify => { shared with sent := notify :: shared.sent }
  | _ => shared

/-- Where the operation goes on with an answer. -/
def next (left : Int) (uuid : String) : Stage → Stage
  | .sadd => .expire_set
  | .expire_set => .hset
  | .hset => .expire
  | .expire => .counting
  | .del => .srem
  | .smembers => if shared.listed then .checking else .idle
  | .checking => if shared.hash.isSome then .hget else .removing
  | .hget => if shared.hash.isSome then .counting else .idle
  | .counting => .timing shared.hincrby_key_exits.2
  | .timing number => .fetching number (i32 left)
  | .fetching number expires => .reading number expires shared.dialogs
  | .reading number expires dialogs =>
    .sending ⟨number, cseqOf number.count, expires,
      dialogBody watcher (versionOf number.count) (dialogOf uuid dialogs shared.global_dnd)⟩
  | .idle | .srem | .removing | .sending _ => .idle

/-- Where it goes on without one: a key that cannot be looked at counts as gone. -/
def without : Stage → Stage
  | .sadd => .expire_set
  | .expire_set => .hset
  | .hset => .expire
  | .expire => .counting
  | .del => .srem
  | .checking => .removing
  | .timing number => .fetching number 0
  | .fetching number expires => .reading number expires []
  | .reading number expires dialogs =>
    .sending ⟨number, cseqOf number.count, expires,
      dialogBody watcher (versionOf number.count) (dialogOf "" dialogs none)⟩
  | _ => .idle

def begin : Operation → Shared × Stage
  | .subscribe => (shared, .sadd)
  | .unsubscribe => (shared, .del)
  | .notify_dialog => ({ shared with calls := shared.calls - 1 }, .smembers)

def step : Choice → Stage → Option (Shared × Stage)
  | .start operation, .idle => some (begin shared operation)
  | .start _, _ => none
  | _, .idle => none
  | .answered left uuid, stage => some (run shared stage, next watcher shared left uuid stage)
  | .lost, .sending _ => none
  | .lost, stage => some (run shared stage, stage)
  | .gave_up, stage => some (shared, without watcher stage)

def outside : Outside → Option Shared
  | .changed dialogs global_dnd =>
    some { shared with dialogs := dialogs, global_dnd := global_dnd, calls := shared.calls + 1 }
  | .call_lost => some { shared with calls := shared.calls - 1 }
  | .hash_expires => some { shared with hash := none }
  | .set_expires => some { shared with listed := false }

def presence : System Shared Stage Choice Outside where
  step := fun _ choice shared stage => step watcher shared choice stage
  outside := fun event shared => outside shared event

def start (dialogs : List DialogInfo) (global_dnd : Option Bool) : World Shared Stage :=
  ⟨⟨none, 0, false, dialogs, global_dnd, 0, []⟩, fun _ => .idle⟩

end Model

section Numbers
variable {watcher : Watcher} {shared after : Shared} {stage : Stage}

def Stage.number : Stage → Option Number
  | .timing number | .fetching number _ | .reading number _ _ => some number
  | .sending notify => some notify.number
  | _ => none

/-- A number is one of those that its life has come to, or that of no life. -/
def Number.Given (shared : Shared) (number : Number) : Prop :=
  match number.life with
  | none => number.count = 0
  | some life => 0 < number.count ∧ life < shared.lives ∧
      ∀ hash, shared.hash = some hash → hash.life = life → number.count ≤ hash.cseq

def numbers (sent : List Notify) : List Number :=
  (sent.map Notify.number).filter (fun number => number.life.isSome)

structure Counted (shared : Shared) : Prop where
  life : ∀ hash, shared.hash = some hash → hash.life < shared.lives
  given : ∀ notify ∈ shared.sent, notify.number.Given shared
  once : (numbers shared.sent).Nodup

def Fresh (shared : Shared) (stage : Stage) : Prop :=
  ∀ number, stage.number = some number →
    number.Given shared ∧ (number.life.isSome → number ∉ shared.sent.map Notify.number)

def Different (stage other : Stage) : Prop :=
  ∀ number, stage.number = some number → number.life.isSome → other.number ≠ some number

def numbering : Outline Shared Stage := ⟨Counted, Fresh, Different⟩

/-- A hash that is still of an earlier life has only counted on. -/
structure Grows (shared after : Shared) : Prop where
  sent : after.sent = shared.sent
  lives : shared.lives ≤ after.lives
  life : ∀ hash, after.hash = some hash → hash.life < after.lives
  count : ∀ hash, after.hash = some hash → hash.life < shared.lives →
    ∃ before, shared.hash = some before ∧ before.life = hash.life ∧ before.cseq ≤ hash.cseq

theorem different_symm (stage other : Stage) (different : Different stage other) :
    Different other stage := by
  intro number theirs live mine
  exact different number mine live theirs

theorem grows_of_same (counted : Counted shared) (sent : after.sent = shared.sent)
    (lives : after.lives = shared.lives) (hash : after.hash = shared.hash ∨ after.hash = none) :
    Grows shared after := by
  refine ⟨sent, Nat.le_of_eq lives.symm, ?_, ?_⟩
  · intro found same
    rw [lives]
    rcases hash with kept | gone
    · exact counted.life found (kept.symm.trans same)
    · rw [gone] at same
      cases same
  · intro found same _
    rcases hash with kept | gone
    · exact ⟨found, kept.symm.trans same, rfl, Nat.le_refl _⟩
    · rw [gone] at same
      cases same

theorem grows_hset (counted : Counted shared) : Grows shared shared.hset := by
  unfold Shared.hset
  split
  · exact grows_of_same counted rfl rfl (Or.inl rfl)
  · refine ⟨rfl, Nat.le_succ _, ?_, ?_⟩
    · intro hash same
      obtain rfl := Option.some.inj same
      exact Nat.lt_succ_self _
    · intro hash same older
      obtain rfl := Option.some.inj same
      exact absurd older (Nat.lt_irrefl _)

theorem grows_hincrby (counted : Counted shared) :
    Grows shared shared.hincrby_key_exits.1 := by
  unfold Shared.hincrby_key_exits
  split
  · rename_i before found
    refine ⟨rfl, Nat.le_refl _, ?_, ?_⟩
    · intro hash same
      obtain rfl := Option.some.inj same
      exact counted.life before found
    · intro hash same _
      obtain rfl := Option.some.inj same
      exact ⟨before, found, rfl, Nat.le_succ _⟩
  · exact grows_of_same counted rfl rfl (Or.inl rfl)

theorem grows_run (counted : Counted shared) (unsent : ∀ notify, stage ≠ .sending notify) :
    Grows shared (run shared stage) := by
  cases stage with
  | sending notify => exact absurd rfl (unsent notify)
  | hset => exact grows_hset counted
  | counting => exact grows_hincrby counted
  | del => exact grows_of_same counted rfl rfl (Or.inr rfl)
  | idle | sadd | expire_set | expire | srem | smembers | checking | removing | hget | timing _
  | fetching _ _ | reading _ _ _ => exact grows_of_same counted rfl rfl (Or.inl rfl)

theorem given_of_grows (grows : Grows shared after) {number : Number}
    (given : number.Given shared) : number.Given after := by
  unfold Number.Given at given ⊢
  cases life : number.life with
  | none => simpa [life] using given
  | some own =>
    simp only [life] at given ⊢
    obtain ⟨positive, older, counted⟩ := given
    refine ⟨positive, Nat.lt_of_lt_of_le older grows.lives, ?_⟩
    intro hash found same
    obtain ⟨before, was, alike, less⟩ := grows.count hash found (by rw [same]; exact older)
    exact Nat.le_trans (counted before was (alike.trans same)) less

theorem counted_of_grows (counted : Counted shared) (grows : Grows shared after) :
    Counted after := by
  refine ⟨grows.life, ?_, ?_⟩
  · rw [grows.sent]
    exact fun notify listed => given_of_grows grows (counted.given notify listed)
  · rw [grows.sent]
    exact counted.once

theorem fresh_of_grows (grows : Grows shared after) (fresh : Fresh shared stage) :
    Fresh after stage := by
  intro number carried
  obtain ⟨given, unsent⟩ := fresh number carried
  rw [grows.sent]
  exact ⟨given_of_grows grows given, unsent⟩

/-- The number that a life has just come to is larger than all of that life. -/
theorem given_after_count {number : Number} {hash : Hash} (found : shared.hash = some hash)
    (given : number.Given shared) : number ≠ ⟨some hash.life, hash.cseq + 1⟩ := by
  rintro rfl
  have larger := given.2.2 hash found rfl
  simp only at larger
  omega

theorem counted_number (counted : Counted shared) :
    shared.hincrby_key_exits.2.Given shared.hincrby_key_exits.1 ∧
      ∀ number : Number, number.Given shared → number.life.isSome →
        number ≠ shared.hincrby_key_exits.2 := by
  unfold Shared.hincrby_key_exits
  split
  · rename_i hash found
    constructor
    · refine ⟨Nat.succ_pos _, counted.life hash found, ?_⟩
      intro after same _
      obtain rfl := Option.some.inj same
      exact Nat.le_refl _
    · exact fun number given _ => given_after_count found given
  · constructor
    · rfl
    · rintro number _ live rfl
      cases live

section Steps
variable {world : World Shared Stage} {pid : Nat}

/-- A step that sends nothing keeps the numbers apart where it takes none that is not new. -/
theorem keeps_unsent {arrived : Stage} (holds : numbering.Holds world)
    (grows : Grows world.shared after)
    (taken : ∀ number, arrived.number = some number →
      (world.procs pid).number = some number ∨
        (number.Given after ∧ ∀ other : Number, other.Given world.shared → other.life.isSome →
          other ≠ number)) : numbering.Keeps world pid after arrived := by
  constructor
  · exact counted_of_grows holds.whole grows
  · intro number carried
    rcases taken number carried with before | ⟨given, new⟩
    · exact fresh_of_grows grows (holds.known pid) number before
    · refine ⟨given, ?_⟩
      intro live listed
      rw [grows.sent] at listed
      obtain ⟨notify, sent, rfl⟩ := List.mem_map.mp listed
      exact new _ (holds.whole.given notify sent) live rfl
  · exact fun other _ => fresh_of_grows grows (holds.known other)
  · intro other different number carried live theirs
    rcases taken number carried with before | ⟨_, new⟩
    · exact holds.apart pid other (Ne.symm different) number before live theirs
    · exact new number (holds.known other number theirs).1 live rfl

theorem keeps_sent {notify : Notify} (holds : numbering.Holds world)
    (current : world.procs pid = .sending notify) :
    numbering.Keeps world pid { world.shared with sent := notify :: world.shared.sent } .idle := by
  have own : (world.procs pid).number = some notify.number := by rw [current]; rfl
  obtain ⟨given, unsent⟩ := holds.known pid _ own
  constructor
  · refine ⟨holds.whole.life, ?_, ?_⟩
    · intro other listed
      rcases List.mem_cons.mp listed with rfl | before
      · exact given
      · exact holds.whole.given other before
    · by_cases live : notify.number.life.isSome
      · simp only [numbers, List.map_cons, List.filter_cons, live, if_true, List.nodup_cons]
        exact ⟨fun listed => unsent live ((List.mem_filter.mp listed).1), holds.whole.once⟩
      · simpa [numbers, live] using holds.whole.once
  · exact nofun
  · intro other different number theirs
    obtain ⟨given, unsent⟩ := holds.known other number theirs
    refine ⟨given, ?_⟩
    intro live listed
    rcases List.mem_cons.mp listed with rfl | before
    · exact holds.apart other pid different notify.number theirs live own
    · exact unsent live before
  · exact fun _ _ => nofun

theorem keeps_answered {left : Int} {uuid : String} (holds : numbering.Holds world)
    (busy : world.procs pid = stage) :
    numbering.Keeps world pid (run world.shared stage) (next watcher world.shared left uuid stage) := by
  subst busy
  have plain : (∀ number, (next watcher world.shared left uuid (world.procs pid)).number =
        some number → (world.procs pid).number = some number) →
      (∀ notify, world.procs pid ≠ .sending notify) →
      numbering.Keeps world pid (run world.shared (world.procs pid))
        (next watcher world.shared left uuid (world.procs pid)) :=
    fun still unsent => keeps_unsent holds (grows_run holds.whole unsent)
      fun number carried => Or.inl (still number carried)
  cases current : world.procs pid with
  | counting =>
    apply keeps_unsent holds (grows_hincrby holds.whole)
    intro number carried
    obtain rfl := Option.some.inj carried
    exact Or.inr (counted_number holds.whole)
  | sending notify => exact keeps_sent holds current
  | timing number | fetching number expires | reading number expires dialogs =>
    rw [current] at plain
    exact plain (fun _ => id) nofun
  | smembers | checking | hget =>
    rw [current] at plain
    refine plain ?_ nofun
    simp only [next]
    split <;> nofun
  | idle | sadd | expire_set | hset | expire | del | srem | removing =>
    rw [current] at plain
    exact plain nofun nofun

theorem keeps_lost (holds : numbering.Holds world)
    (unsent : ∀ notify, world.procs pid ≠ .sending notify) :
    numbering.Keeps world pid (run world.shared (world.procs pid)) (world.procs pid) :=
  keeps_unsent holds (grows_run holds.whole unsent) fun _ carried => Or.inl carried

theorem keeps_gave_up (holds : numbering.Holds world) :
    numbering.Keeps world pid world.shared (without watcher (world.procs pid)) := by
  apply keeps_unsent holds (grows_of_same holds.whole rfl rfl (Or.inl rfl))
  intro number carried
  left
  cases current : world.procs pid with
  | timing other | fetching other expires | reading other expires dialogs =>
    rw [current] at carried
    exact carried
  | idle | sadd | expire_set | hset | expire | del | srem | smembers | checking | removing | hget
  | counting | sending notify =>
    rw [current] at carried
    cases carried

/-- What a step of an operation is. -/
theorem step_cases {choice : Choice} {arrived : Stage}
    (stepped : step watcher shared choice stage = some (after, arrived)) :
    (∃ operation, choice = .start operation ∧ stage = .idle ∧
        (after, arrived) = begin shared operation) ∨
      (∃ left uuid, choice = .answered left uuid ∧ stage ≠ .idle ∧ after = run shared stage ∧
        arrived = next watcher shared left uuid stage) ∨
      (choice = .lost ∧ stage ≠ .idle ∧ (∀ notify, stage ≠ .sending notify) ∧
        after = run shared stage ∧ arrived = stage) ∨
      (choice = .gave_up ∧ stage ≠ .idle ∧ after = shared ∧ arrived = without watcher stage) := by
  unfold step at stepped
  split at stepped
  · exact Or.inl ⟨_, rfl, rfl, (Option.some.inj stepped).symm⟩
  · cases stepped
  · cases stepped
  · rename_i busy
    obtain ⟨rfl, rfl⟩ := Prod.mk.inj (Option.some.inj stepped)
    exact Or.inr (Or.inl ⟨_, _, rfl, busy, rfl, rfl⟩)
  · cases stepped
  · rename_i busy unsent
    obtain ⟨rfl, rfl⟩ := Prod.mk.inj (Option.some.inj stepped)
    exact Or.inr (Or.inr (Or.inl ⟨rfl, busy, unsent, rfl, rfl⟩))
  · rename_i busy
    obtain ⟨rfl, rfl⟩ := Prod.mk.inj (Option.some.inj stepped)
    exact Or.inr (Or.inr (Or.inr ⟨rfl, busy, rfl, rfl⟩))

theorem numbering_holds {first : World Shared Stage} {guard : Guard Shared Stage Choice Outside}
    (atFirst : numbering.Holds first) (reached : Run (presence watcher) guard first world) :
    numbering.Holds world := by
  apply numbering.run_holds different_symm atFirst _ _ reached
  · intro world pid choice after arrived holds _ stepped
    rcases step_cases stepped with ⟨operation, rfl, idle, same⟩ | ⟨left, uuid, rfl, _, rfl, rfl⟩ |
      ⟨rfl, _, unsent, rfl, rfl⟩ | ⟨rfl, _, rfl, rfl⟩
    · cases operation <;> obtain ⟨rfl, rfl⟩ := Prod.mk.inj same <;>
        exact keeps_unsent holds (grows_of_same holds.whole rfl rfl (Or.inl rfl)) nofun
    · exact keeps_answered holds rfl
    · exact keeps_lost holds unsent
    · exact keeps_gave_up holds
  · intro world event after holds _ happened
    have grows : Grows world.shared after := by
      cases event <;> obtain rfl := Option.some.inj happened
      · exact grows_of_same holds.whole rfl rfl (Or.inl rfl)
      · exact grows_of_same holds.whole rfl rfl (Or.inl rfl)
      · exact grows_of_same holds.whole rfl rfl (Or.inr rfl)
      · exact grows_of_same holds.whole rfl rfl (Or.inl rfl)
    constructor
    · exact counted_of_grows holds.whole grows
    · exact fun pid => fresh_of_grows grows (holds.known pid)
    · exact holds.apart

end Steps

theorem numbering_start (dialogs : List DialogInfo) (global_dnd : Option Bool) :
    numbering.Holds (start dialogs global_dnd) :=
  ⟨⟨nofun, nofun, List.nodup_nil⟩, fun _ => nofun, fun _ _ _ => nofun⟩

/-- A NOTIFY is that of its number. -/
def Composed (watcher : Watcher) (notify : Notify) : Prop :=
  notify.seq = cseqOf notify.number.count ∧
    ∃ dialog, notify.body = dialogBody watcher (versionOf notify.number.count) dialog

theorem composed_reading (number : Number) (expires : Int) (dialog : Option DialogInfo) :
    Composed watcher ⟨number, cseqOf number.count, expires,
      dialogBody watcher (versionOf number.count) dialog⟩ :=
  ⟨Eq.refl (cseqOf number.count), dialog, Eq.refl (dialogBody watcher _ dialog)⟩

/-- Only a command that sends a NOTIFY sends one. -/
theorem mem_sent_run {notify : Notify} (listed : notify ∈ (run shared stage).sent) :
    notify ∈ shared.sent ∨ stage = .sending notify := by
  cases stage with
  | sending own => exact (List.mem_cons.mp listed).symm.imp id (congrArg _ ·.symm)
  | counting | hset =>
    left
    simp only [run, Shared.hset, Shared.hincrby_key_exits] at listed
    split at listed <;> exact listed
  | _ => exact Or.inl listed

theorem composed_next {left : Int} {uuid : String} {notify : Notify}
    (same : next watcher shared left uuid stage = .sending notify) : Composed watcher notify := by
  cases stage with
  | reading number expires dialogs =>
    obtain rfl := Stage.sending.inj same
    exact composed_reading number expires _
  | smembers | checking | hget =>
    simp only [next] at same
    split at same <;> cases same
  | _ => cases same

theorem composed_without {notify : Notify} (same : without watcher stage = .sending notify) :
    Composed watcher notify := by
  cases stage with
  | reading number expires dialogs =>
    obtain rfl := Stage.sending.inj same
    exact composed_reading number expires _
  | _ => cases same

theorem composed_reached {world : World Shared Stage} {dialogs : List DialogInfo}
    {global_dnd : Option Bool} {guard : Guard Shared Stage Choice Outside}
    (reached : Run (presence watcher) guard (start dialogs global_dnd) world) :
    (∀ notify ∈ world.shared.sent, Composed watcher notify) ∧
      ∀ pid notify, world.procs pid = .sending notify → Composed watcher notify := by
  apply run_keeps (fun world => (∀ notify ∈ world.shared.sent, Composed watcher notify) ∧
    ∀ pid notify, world.procs pid = .sending notify → Composed watcher notify)
    _ _ reached
  · exact ⟨nofun, fun _ _ current => Stage.noConfusion current⟩
  rintro world action after ⟨sent, sending⟩ _ acted
  have ran : ∀ pid, ∀ notify ∈ (run world.shared (world.procs pid)).sent,
      Composed watcher notify :=
    fun pid notify listed => (mem_sent_run listed).elim (sent notify) (sending pid notify)
  rcases act_cases acted with ⟨pid, choice, shared, arrived, rfl, stepped, rfl⟩ |
    ⟨event, shared, rfl, happened, rfl⟩
  · have others : (∀ notify, arrived = .sending notify → Composed watcher notify) →
        ∀ other notify, (world.moved pid shared arrived).procs other = .sending notify →
          Composed watcher notify := fun own =>
      all_moved (fun _ (stage : Stage) => ∀ notify, stage = .sending notify →
        Composed watcher notify) own fun other _ => sending other
    rcases step_cases stepped with ⟨operation, rfl, idle, same⟩ | ⟨left, uuid, rfl, _, rfl, rfl⟩ |
      ⟨rfl, _, unsent, rfl, rfl⟩ | ⟨rfl, _, rfl, rfl⟩
    · cases operation <;> obtain ⟨rfl, rfl⟩ := Prod.mk.inj same <;> exact ⟨sent, others nofun⟩
    · exact ⟨ran pid, others fun _ => composed_next⟩
    · exact ⟨ran pid, others (sending pid)⟩
    · exact ⟨sent, others fun _ => composed_without⟩
  · refine ⟨?_, sending⟩
    cases event <;> obtain rfl := Option.some.inj happened <;> exact sent

theorem cseqOf_inj {count other : Nat} (small : count < 2 ^ 32) (less : other < 2 ^ 32)
    (same : cseqOf count = cseqOf other) : count = other := by
  unfold cseqOf i32 at same
  have left : (count : Int).bmod (2 ^ 32) % (2 ^ 32 : Nat) = count % (2 ^ 32 : Nat) := Int.bmod_emod
  have right : (other : Int).bmod (2 ^ 32) % (2 ^ 32 : Nat) = other % (2 ^ 32 : Nat) := Int.bmod_emod
  rw [same] at left
  omega

theorem cseqOf_small {count : Nat} (small : count < 2 ^ 31) : cseqOf count = count := by
  unfold cseqOf i32
  rw [Int.bmod_eq_of_le] <;> omega

/-- No two NOTIFYs of one life of a subscription share a CSeq, in whatever order the commands of
    subscriptions, refreshes, expiries and notifications come and however often they are sent
    again; the others have CSeq 0. -/
theorem cseq_once {dialogs : List DialogInfo} {global_dnd : Option Bool}
    {world : World Shared Stage}
    (reached : Run (presence watcher) (fun _ _ => True) (start dialogs global_dnd) world) :
    world.shared.sent.Pairwise (fun late early => late.number.life.isSome →
      late.number.life = early.number.life → late.number.count < 2 ^ 32 →
        early.number.count < 2 ^ 32 → late.seq ≠ early.seq) ∧
      ∀ notify ∈ world.shared.sent,
        (notify.number.life = none → notify.seq = 0) ∧
        (notify.number.life.isSome → notify.number.count < 2 ^ 31 → 0 < notify.seq) ∧
        ∃ dialog, notify.body = dialogBody watcher (versionOf notify.number.count) dialog := by
  have holds := numbering_holds (numbering_start dialogs global_dnd) reached
  have composed := (composed_reached reached).1
  constructor
  · have once := holds.whole.once
    unfold numbers at once
    rw [List.Nodup, List.pairwise_filter, List.pairwise_map] at once
    refine (List.Pairwise.and_mem.mp once).imp ?_
    rintro late early ⟨sent, earlier, apart⟩ live same small less equal
    apply apart live (same ▸ live)
    rw [(composed late sent).1, (composed early earlier).1] at equal
    have counts := cseqOf_inj small less equal
    cases number : late.number
    cases other : early.number
    simp_all
  · intro notify sent
    have given := holds.whole.given notify sent
    refine ⟨?_, ?_, (composed notify sent).2⟩
    · intro gone
      rw [Number.Given, gone] at given
      rw [(composed notify sent).1, given]
      exact cseqOf_small (by decide)
    · intro live small
      obtain ⟨life, own⟩ := Option.isSome_iff_exists.mp live
      rw [Number.Given, own] at given
      rw [(composed notify sent).1, cseqOf_small small]
      exact Int.natCast_pos.mpr given.1

def two_watched : List (Action Choice Outside) :=
  [.proc 0 (.start .subscribe), .proc 0 (.answered 0 ""), .proc 0 (.answered 0 ""),
    .proc 0 (.answered 0 ""), .proc 0 (.answered 0 ""), .outside (.changed [] (some true)),
    .proc 1 (.start .notify_dialog), .proc 1 (.answered 0 ""), .proc 1 (.answered 0 ""),
    .proc 1 (.answered 0 ""), .proc 1 .lost, .proc 1 (.answered 0 ""), .proc 1 (.answered 600 ""),
    .proc 0 (.answered 0 ""), .proc 0 (.answered 600 ""), .proc 0 (.answered 0 ""),
    .proc 1 (.answered 0 ""), .proc 1 (.answered 0 "id"), .proc 1 (.answered 0 ""),
    .proc 0 (.answered 0 "other"), .proc 0 (.answered 0 "")]

theorem cseq_once_two_watched : ∃ world,
    runAll (presence ⟨"100", "host"⟩) (start [] none) two_watched = some world ∧
      world.shared.sent.map Notify.number = [⟨some 0, 3⟩, ⟨some 0, 2⟩] ∧
      world.shared.sent.Pairwise (fun late early => late.number.life.isSome →
        late.number.life = early.number.life → late.number.count < 2 ^ 32 →
          early.number.count < 2 ^ 32 → late.seq ≠ early.seq) :=
  ⟨_, rfl, rfl, (cseq_once (run_of_runAll two_watched rfl)).1⟩

end Numbers

section Currency
variable (watcher : Watcher)

/-- The subscription stays, and every call and every command gets an answer in the end. -/
def steady : Action Choice Outside → Bool
  | .proc _ (.start .unsubscribe) | .proc _ .gave_up => false
  | .outside .call_lost | .outside .hash_expires | .outside .set_expires => false
  | _ => true

abbrev Steady : Guard Shared Stage Choice Outside := fun _ action => steady action = true

/-- A subscription that is to be notified of what has changed. -/
def due (hash : Hash) (lives : Nat) (dialogs : List DialogInfo) (global_dnd : Option Bool) :
    World Shared Stage :=
  ⟨⟨some hash, lives, true, dialogs, global_dnd, 1, []⟩, fun _ => .idle⟩

def Quiet (world : World Shared Stage) : Prop :=
  world.shared.calls = 0 ∧ ∀ pid, world.procs pid = .idle

def Current (shared : Shared) (number : Number) (body : String) : Prop :=
  ∃ uuid, body = dialogBody watcher (versionOf number.count)
    (dialogOf uuid shared.dialogs shared.global_dnd)

/-- What a stage that has a number beyond the mark has read since. -/
def Reads (shared : Shared) (mark : Nat) : Stage → Prop
  | .reading number _ dialogs => mark < number.count → dialogs = shared.dialogs
  | .sending notify => mark < notify.number.count → Current watcher shared notify.number notify.body
  | .del | .srem | .removing => False
  | _ => True

def Stage.before_count : Stage → Bool
  | .smembers | .checking | .hget | .counting => true
  | _ => false

def Owed (world : World Shared Stage) : Prop :=
  0 < world.shared.calls ∨ Pending (fun (stage : Stage) (_ : Unit) => stage.before_count = true) world ()

/-- What a stage has for a number is not beyond a count. -/
def Stage.Behind (count : Nat) (stage : Stage) : Prop :=
  ∀ number, stage.number = some number → number.count ≤ count

abbrev Carried (world : World Shared Stage) (count : Nat) : Prop :=
  Pending (fun (stage : Stage) count => ∃ number, stage.number = some number ∧ number.count = count)
    world count

/-- Whatever has a number beyond the mark shows the dialogs as they are, and there is one that has
    the last, or one will be taken. -/
structure Caught (hash : Hash) (mark : Nat) (world : World Shared Stage) : Prop where
  live : world.shared.hash = some hash
  listed : world.shared.listed = true
  earlier : mark ≤ hash.cseq
  sent : ∀ notify ∈ world.shared.sent, notify.number.count ≤ hash.cseq ∧
    (mark < notify.number.count → Current watcher world.shared notify.number notify.body)
  reads : ∀ pid, Reads watcher world.shared mark (world.procs pid)
  carried : ∀ pid, (world.procs pid).Behind hash.cseq
  last : Owed world ∨ (mark < hash.cseq ∧
    ((∃ notify ∈ world.shared.sent, notify.number.count = hash.cseq) ∨ Carried world hash.cseq))

variable {watcher} {hash : Hash} {mark : Nat} {world : World Shared Stage} {pid : Nat}
  {arrived : Stage}

/-- A step that counts nothing and sends nothing. -/
theorem caught_moved {after : Shared} (caught : Caught watcher hash mark world)
    (same : after.hash = world.shared.hash ∧ after.listed = true ∧
      after.dialogs = world.shared.dialogs ∧ after.global_dnd = world.shared.global_dnd ∧
      after.sent = world.shared.sent)
    (reads : Reads watcher world.shared mark arrived)
    (number : arrived.number = (world.procs pid).number)
    (owes : Owed world → Owed (world.moved pid after arrived)) :
    Caught watcher hash mark (world.moved pid after arrived) := by
  obtain ⟨kept, listed, dialogs, global_dnd, sent⟩ := same
  have alike : ∀ stage, Reads watcher world.shared mark stage → Reads watcher after mark stage := by
    intro stage
    cases stage <;> simp only [Reads, Current, dialogs, global_dnd, imp_self]
  constructor
  · exact kept.trans caught.live
  · exact listed
  · exact caught.earlier
  · intro notify found
    rw [moved_shared, sent] at found
    simpa only [moved_shared, Current, dialogs, global_dnd] using caught.sent notify found
  · exact all_moved (fun _ => Reads watcher after mark) (alike _ reads) fun other _ => alike _ (caught.reads other)
  · refine all_moved (fun _ => Stage.Behind hash.cseq) ?_ fun other _ => caught.carried other
    exact fun own found => caught.carried pid own (number.symm.trans found)
  · rcases caught.last with owed | ⟨beyond, top⟩
    · exact Or.inl (owes owed)
    · right
      refine ⟨beyond, ?_⟩
      rcases top with ⟨notify, found, own⟩ | carried
      · exact Or.inl ⟨notify, by rwa [moved_shared, sent], own⟩
      · right
        rcases pending_cases pid after arrived carried with ⟨own, found, count⟩ | still
        · exact pending_moved ⟨own, number.trans found, count⟩
        · exact still

/-- What was owed still is where the step is not one that counts. -/
theorem owed_moved {after : Shared} (calls : world.shared.calls ≤ after.calls)
    (goes_on : (world.procs pid).before_count = true → arrived.before_count = true)
    (owed : Owed world) : Owed (world.moved pid after arrived) := by
  rcases owed with waiting | pending
  · exact Or.inl (Nat.lt_of_lt_of_le waiting calls)
  · right
    rcases pending_cases pid after arrived pending with own | still
    · exact pending_moved (goes_on own)
    · exact still

/-- The state with one more number given. -/
def Shared.counted (shared : Shared) (hash : Hash) : Shared :=
  { shared with hash := some { hash with cseq := hash.cseq + 1 } }

theorem caught_counted (caught : Caught watcher hash mark world)
    (reads : Reads watcher world.shared mark arrived)
    (number : ∀ own, arrived.number = some own → own.count = hash.cseq + 1)
    (taken : arrived.before_count = true ∨ arrived.number.isSome) :
    Caught watcher { hash with cseq := hash.cseq + 1 } mark
      (world.moved pid (world.shared.counted hash) arrived) := by
  constructor
  · rfl
  · exact caught.listed
  · exact Nat.le_succ_of_le caught.earlier
  · intro notify found
    obtain ⟨less, current⟩ := caught.sent notify found
    exact ⟨Nat.le_succ_of_le less, current⟩
  · exact all_moved (fun _ => Reads watcher world.shared mark) reads fun other _ => caught.reads other
  · exact all_moved (fun _ => Stage.Behind (hash.cseq + 1))
      (fun own found => Nat.le_of_eq (number own found))
      fun other _ own found => Nat.le_succ_of_le (caught.carried other own found)
  · rcases taken with again | some
    · exact Or.inl (Or.inr (pending_moved again))
    · right
      obtain ⟨own, found⟩ := Option.isSome_iff_exists.mp some
      exact ⟨Nat.lt_succ_of_le caught.earlier, Or.inr (pending_moved ⟨own, found, number own found⟩)⟩

theorem caught_sent {notify : Notify} (caught : Caught watcher hash mark world)
    (current : world.procs pid = .sending notify) :
    Caught watcher hash mark (world.moved pid
      { world.shared with sent := notify :: world.shared.sent } .idle) := by
  have own : (world.procs pid).number = some notify.number := by rw [current]; rfl
  have read := caught.reads pid
  rw [current] at read
  constructor
  · exact caught.live
  · exact caught.listed
  · exact caught.earlier
  · intro other found
    rcases List.mem_cons.mp found with rfl | before
    · exact ⟨caught.carried pid _ own, read⟩
    · exact caught.sent other before
  · exact all_moved (fun _ => Reads watcher world.shared mark) trivial fun other _ => caught.reads other
  · exact all_moved (fun _ => Stage.Behind hash.cseq) nofun fun other _ => caught.carried other
  · rcases caught.last with owed | ⟨beyond, top⟩
    · left
      apply owed_moved (Nat.le_refl _) _ owed
      rw [current]
      exact nofun
    · right
      refine ⟨beyond, ?_⟩
      rcases top with ⟨other, found, count⟩ | carried
      · exact Or.inl ⟨other, List.mem_cons_of_mem _ found, count⟩
      · rcases pending_cases pid _ .idle carried with ⟨number, found, count⟩ | still
        · rw [own] at found
          obtain rfl := Option.some.inj found
          exact Or.inl ⟨notify, List.mem_cons_self, count⟩
        · exact Or.inr still

/-- A change puts the mark to the last number, and is owed. -/
theorem caught_changed (caught : Caught watcher hash mark world) (dialogs : List DialogInfo)
    (global_dnd : Option Bool) :
    Caught watcher hash hash.cseq ⟨{ world.shared with
      dialogs := dialogs, global_dnd := global_dnd, calls := world.shared.calls + 1 },
      world.procs⟩ := by
  constructor
  · exact caught.live
  · exact caught.listed
  · exact Nat.le_refl _
  · intro notify found
    have less := (caught.sent notify found).1
    exact ⟨less, fun more => absurd more (Nat.not_lt.mpr less)⟩
  · intro pid
    have read := caught.reads pid
    cases current : world.procs pid with
    | reading number expires dialogs =>
      have less := caught.carried pid number (by rw [current]; rfl)
      exact fun more => absurd more (Nat.not_lt.mpr less)
    | sending notify =>
      have less := caught.carried pid notify.number (by rw [current]; rfl)
      exact fun more => absurd more (Nat.not_lt.mpr less)
    | del | srem | removing =>
      rw [current] at read
      exact read
    | idle | sadd | expire_set | hset | expire | smembers | checking | hget | counting | timing _
    | fetching _ _ => trivial
  · exact caught.carried
  · exact Or.inl (Or.inl (Nat.succ_pos _))

theorem caught_begin {operation : Operation} (caught : Caught watcher hash mark world)
    (idle : world.procs pid = .idle) (stays : operation ≠ .unsubscribe) :
    Caught watcher hash mark
      (world.moved pid (begin world.shared operation).1 (begin world.shared operation).2) := by
  cases operation with
  | subscribe =>
    refine caught_moved caught ⟨rfl, caught.listed, rfl, rfl, rfl⟩ ?_ ?_ (owed_moved (Nat.le_refl _) ?_)
    · trivial
    · rw [idle]
      rfl
    · rw [idle]
      exact nofun
  | unsubscribe => exact absurd rfl stays
  | notify_dialog =>
    refine caught_moved caught ⟨rfl, caught.listed, rfl, rfl, rfl⟩ ?_ ?_ ?_
    · trivial
    · rw [idle]
      rfl
    · exact fun _ => Or.inr (pending_moved rfl)

/-- A command that changes nothing. -/
theorem caught_quiet {stage : Stage} {after : Shared} (caught : Caught watcher hash mark world)
    (current : world.procs pid = stage) (same : after = world.shared)
    (reads : Reads watcher world.shared mark arrived) (number : arrived.number = stage.number)
    (goes_on : stage.before_count = true → arrived.before_count = true) :
    ∃ hash, Caught watcher hash mark (world.moved pid after arrived) := by
  subst same current
  exact ⟨hash, caught_moved caught ⟨rfl, caught.listed, rfl, rfl, rfl⟩ reads number
    (owed_moved (Nat.le_refl _) goes_on)⟩

theorem hset_same (caught : Caught watcher hash mark world) : world.shared.hset = world.shared := by
  simp only [Shared.hset, caught.live]

theorem hincrby_counted (caught : Caught watcher hash mark world) :
    world.shared.hincrby_key_exits =
      (world.shared.counted hash, ⟨some hash.life, hash.cseq + 1⟩) := by
  simp only [Shared.hincrby_key_exits, caught.live, Shared.counted]

theorem caught_answered {left : Int} {uuid : String} (caught : Caught watcher hash mark world) :
    ∃ hash, Caught watcher hash mark (world.moved pid (run world.shared (world.procs pid))
      (next watcher world.shared left uuid (world.procs pid))) := by
  have read := caught.reads pid
  cases current : world.procs pid with
  | del | srem | removing =>
    rw [current] at read
    exact read.elim
  | counting =>
    simp only [run, next, hincrby_counted caught]
    refine ⟨_, caught_counted caught trivial ?_ (Or.inr rfl)⟩
    intro own found
    obtain rfl := Option.some.inj found
    rfl
  | sending notify => exact ⟨hash, caught_sent caught current⟩
  | hset => exact caught_quiet caught current (hset_same caught) trivial rfl nofun
  | sadd =>
    refine ⟨hash, caught_moved caught ⟨rfl, rfl, rfl, rfl, rfl⟩ trivial (by rw [current]; rfl) ?_⟩
    apply owed_moved (Nat.le_refl _)
    rw [current]
    exact nofun
  | smembers =>
    simp only [next, caught.listed, if_true]
    exact caught_quiet caught current rfl trivial rfl fun _ => rfl
  | checking | hget =>
    simp only [next, caught.live, Option.isSome_some, if_true]
    exact caught_quiet caught current rfl trivial rfl fun _ => rfl
  | expire => exact caught_quiet caught current rfl trivial rfl fun _ => rfl
  | fetching number expires => exact caught_quiet caught current rfl (fun _ => rfl) rfl nofun
  | reading number expires dialogs =>
    rw [current] at read
    refine caught_quiet caught current rfl ?_ rfl nofun
    intro beyond
    rw [read beyond]
    exact ⟨uuid, rfl⟩
  | idle | expire_set | timing _ => exact caught_quiet caught current rfl trivial rfl nofun

theorem caught_lost (caught : Caught watcher hash mark world)
    (unsent : ∀ notify, world.procs pid ≠ .sending notify) :
    ∃ hash, Caught watcher hash mark
      (world.moved pid (run world.shared (world.procs pid)) (world.procs pid)) := by
  have read := caught.reads pid
  have again : run world.shared (world.procs pid) = world.shared →
      ∃ hash, Caught watcher hash mark
        (world.moved pid (run world.shared (world.procs pid)) (world.procs pid)) :=
    fun same => caught_quiet caught rfl same read rfl id
  cases current : world.procs pid with
  | del | srem | removing =>
    rw [current] at read
    exact read.elim
  | sending notify => exact absurd current (unsent notify)
  | counting =>
    simp only [run, hincrby_counted caught]
    exact ⟨_, caught_counted caught trivial nofun (Or.inl rfl)⟩
  | sadd =>
    have kept : run world.shared .sadd = world.shared := by
      simp only [run, ← caught.listed]
    rw [current] at again
    exact again kept
  | hset =>
    rw [current] at again
    exact again (hset_same caught)
  | _ =>
    rw [current] at again
    exact again rfl

theorem caught_reached {lives : Nat} {dialogs : List DialogInfo} {global_dnd : Option Bool}
    (reached : Run (presence watcher) Steady (due hash lives dialogs global_dnd) world) :
    ∃ hash mark, Caught watcher hash mark world := by
  apply run_keeps (fun world => ∃ hash mark, Caught watcher hash mark world) _ _ reached
  · exact ⟨hash, hash.cseq, rfl, rfl, Nat.le_refl _, nofun, fun _ => trivial, fun _ => nofun,
      Or.inl (Or.inl Nat.zero_lt_one)⟩
  · intro world action after caught allowed acted
    obtain ⟨hash, mark, caught⟩ := caught
    rcases act_cases acted with ⟨pid, choice, shared, arrived, rfl, stepped, rfl⟩ |
      ⟨event, shared, rfl, happened, rfl⟩
    · rcases step_cases stepped with ⟨operation, rfl, idle, same⟩ |
        ⟨left, uuid, rfl, _, rfl, rfl⟩ | ⟨rfl, _, unsent, rfl, rfl⟩ | ⟨rfl, _, rfl, rfl⟩
      · have stays : operation ≠ .unsubscribe := by
          rintro rfl
          cases allowed
        have begun := caught_begin caught idle stays
        obtain ⟨rfl, rfl⟩ := Prod.mk.inj same
        exact ⟨hash, mark, begun⟩
      · obtain ⟨next, kept⟩ := @caught_answered _ _ _ _ pid left uuid caught
        exact ⟨next, mark, kept⟩
      · obtain ⟨next, kept⟩ := caught_lost caught unsent
        exact ⟨next, mark, kept⟩
      · cases allowed
    · cases event with
      | changed dialogs global_dnd =>
        obtain rfl := Option.some.inj happened
        exact ⟨hash, hash.cseq, caught_changed caught dialogs global_dnd⟩
      | call_lost | hash_expires | set_expires => cases allowed

/-- However the notifications of two changes overtake each other, the NOTIFY with the largest
    number shows the dialogs as they are once nothing is on the way. -/
theorem last_notify_current {lives : Nat} {dialogs : List DialogInfo} {global_dnd : Option Bool}
    (reached : Run (presence watcher) Steady (due hash lives dialogs global_dnd) world)
    (quiet : Quiet world) :
    ∃ notify ∈ world.shared.sent,
      (∀ other ∈ world.shared.sent, other.number.count ≤ notify.number.count) ∧
        Current watcher world.shared notify.number notify.body := by
  obtain ⟨hash, mark, caught⟩ := caught_reached reached
  obtain ⟨calls, idle⟩ := quiet
  rcases caught.last with (waiting | ⟨pid, before⟩) | ⟨beyond, ⟨notify, found, last⟩ | ⟨pid, carried⟩⟩
  · omega
  · rw [idle pid] at before
    cases before
  · refine ⟨notify, found, ?_, ?_⟩
    · intro other listed
      rw [last]
      exact (caught.sent other listed).1
    · apply (caught.sent notify found).2
      rw [last]
      exact beyond
  · rw [idle pid] at carried
    obtain ⟨number, none, _⟩ := carried
    cases none

def overtaken : List (Action Choice Outside) :=
  let hears (pid : Nat) : List (Action Choice Outside) :=
    [.proc pid (.start .notify_dialog), .proc pid (.answered 0 ""), .proc pid (.answered 0 ""),
      .proc pid (.answered 0 ""), .proc pid (.answered 0 ""), .proc pid (.answered 900 "")]
  hears 1 ++ [.outside (.changed [⟨"100", "101", .Initiator, "call", .Early⟩] none)] ++ hears 2 ++
    [.proc 2 (.answered 0 ""), .proc 2 (.answered 0 ""), .proc 2 (.answered 0 ""),
      .proc 1 (.answered 0 ""), .proc 1 (.answered 0 ""), .proc 1 (.answered 0 "")]

theorem last_notify_current_overtaken : ∃ world,
    runWhere (presence ⟨"100", "host"⟩) (fun _ => steady) (due ⟨4, 0⟩ 1 [] none) overtaken =
        some world ∧
      ∃ notify ∈ world.shared.sent,
        (∀ other ∈ world.shared.sent, other.number.count ≤ notify.number.count) ∧
          Current ⟨"100", "host"⟩ world.shared notify.number notify.body := by
  refine ⟨_, rfl, last_notify_current (run_of_runWhere (fun _ _ => id) overtaken rfl) ?_⟩
  constructor
  · rfl
  · intro pid
    by_cases first : pid = 1
    · subst first
      rfl
    · by_cases second : pid = 2
      · subst second
        rfl
      · simp [World.moved, Function.update_of_ne, first, second, due]

end Currency
end Presence
