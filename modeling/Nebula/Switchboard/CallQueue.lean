import Nebula.Lib.Rounds
import Nebula.Sip.UriText
import Nebula.Switchboard.Bridge
import Mathlib.Algebra.GroupWithZero.Nat

/- The members of a call queue, and which of them are rung in an attempt to bridge a call. What
   Redis holds of earlier calls, who is available and where an attempt breaks off are choices
   of the attempt. -/
namespace CallQueues
open Rounds
open SipText (Text lowercase)
open Bridge (ChannelBridgeResult)

section Model

inductive BridgeExtension where
  | user (uuid : Text)
  | group (uuid : Text) (members : List Text)
  | trunk (uuid : Text)
  | externalNumber (e164 : Text)
  | intra (e164 : Text)
  | interTenant (dstTenantId exten : Text)
  deriving DecidableEq

def BridgeExtension.id : BridgeExtension → Text
  | user uuid => "user:".toList ++ uuid
  | group uuid _ => "group:".toList ++ uuid
  | trunk uuid => "trunk:".toList ++ uuid
  | externalNumber e164 => "external_number:".toList ++ e164
  | intra e164 => "internal_number:".toList ++ e164
  | interTenant dstTenantId exten =>
    "inter_tenant:".toList ++ dstTenantId ++ ':' :: exten

def BridgeExtension.userUuids : BridgeExtension → List Text
  | user uuid => [uuid]
  | group _ members => members
  | _ => []

/-- What the keys of a queue answer for the id of a member and that of a call; no answer is an
    error, as of a record that has expired. -/
structure History where
  calls : Text → Option (List Text)
  ended : Text → Text → Option ℕ
  duration : Text → Text → Option ℕ

/-- Where an attempt breaks off: at the music, before anyone rings, or while they ring. -/
inductive Fault where
  | music
  | bridge
  | ringing
  deriving DecidableEq

structure Attempt where
  userAvailable : Text → Option Bool
  history : History
  successfulCalls : Option ℕ
  fault : Option Fault
  result : ChannelBridgeResult

structure QueueGroup where
  strategy : Text
  ringProgressively : Bool

structure CallQueue where
  group : QueueGroup
  queueMembers : List BridgeExtension
  triedMembers : Finset Text

inductive Strategy where
  | sequential (fromFirst : Bool)
  | longestIdle
  | fewestCalls
  | leastTalkingTime
  | available
  deriving DecidableEq

def Strategy.fromText (text : Text) : Strategy :=
  let name := lowercase text
  if name = "sequential".toList then .sequential false
  else if name = "sequential_from_first".toList then .sequential true
  else if name = "longestidle".toList then .longestIdle
  else if name = "fewestcalls".toList then .fewestCalls
  else if name = "leasttalkingtime".toList then .leastTalkingTime
  else .available

end Model

section Measures
variable (history : History) (member : BridgeExtension)

def History.memberTalkingTime : Option ℕ :=
  (history.calls member.id).map fun calls =>
    calls.foldl (fun acc call => (history.duration member.id call).getD 0 + acc) 0

/-- The duration is read as an i32 here: one that is no i32 is an error, and counts as 0. -/
def History.counted (call : Text) : Bool :=
  0 < ((history.duration member.id call).filter (· < 2147483648)).getD 0

def History.memberNumCalls : Option ℕ :=
  (history.calls member.id).map fun calls =>
    calls.foldl (fun acc call => if history.counted member call then acc + 1 else acc) 0

def History.memberLastCallEnded : Option ℕ :=
  (history.calls member.id).bind fun calls =>
    calls.getLast?.bind fun call => history.ended member.id call

end Measures

section Choosing
variable (queue : CallQueue) (attempt : Attempt)

/-- A group stops at the first user that is available, and at an error before. -/
def groupAvailable (userAvailable : Text → Option Bool) : List Text → Option Bool
  | [] => some false
  | uuid :: rest =>
    (userAvailable uuid).bind fun found =>
      if found then some true else groupAvailable userAvailable rest

def Attempt.isMemberAvailable : BridgeExtension → Option Bool
  | .user uuid => attempt.userAvailable uuid
  | .group _ members => groupAvailable attempt.userAvailable members
  | _ => some true

def Attempt.available (member : BridgeExtension) : Bool :=
  (attempt.isMemberAvailable member).getD false

def CallQueue.isMemberTried (member : BridgeExtension) : Bool :=
  member.id ∈ queue.triedMembers

def CallQueue.isAvailable : Bool := queue.queueMembers.any attempt.available

def CallQueue.availableMembers : List BridgeExtension :=
  queue.queueMembers.filter attempt.available

def CallQueue.candidates : List BridgeExtension :=
  (queue.availableMembers attempt).filter fun member => !queue.isMemberTried member

def CallQueue.longestIdle : List BridgeExtension :=
  (scan attempt.history.memberLastCallEnded 0 none (queue.candidates attempt)).toList

/-- A member without anything is taken at once. -/
def nonzero (count : Option ℕ) : Option ℕ :=
  if count.getD 0 = 0 then none else some (count.getD 0)

def CallQueue.leastTalkingTime : List BridgeExtension :=
  (scan (fun member => nonzero (attempt.history.memberTalkingTime member)) 0 none
    (queue.candidates attempt)).toList

def CallQueue.fewestCalls : List BridgeExtension :=
  (scan (fun member => nonzero (attempt.history.memberNumCalls member)) 0 none
    (queue.candidates attempt)).toList

/-- From one member on, and then those before it. Without members the code panics here, but
    then nobody is available, and it does not come here. -/
def CallQueue.sequential (fromFirst : Bool) : List BridgeExtension :=
  let n := if fromFirst then 0
    else attempt.successfulCalls.getD 0 % queue.queueMembers.length
  ((queue.queueMembers.drop n ++ queue.queueMembers.take n).find? fun member =>
    attempt.available member && !queue.isMemberTried member).toList

def CallQueue.chosen : List BridgeExtension :=
  match Strategy.fromText queue.group.strategy with
  | .sequential fromFirst => queue.sequential attempt fromFirst
  | .longestIdle => queue.longestIdle attempt
  | .fewestCalls => queue.fewestCalls attempt
  | .leastTalkingTime => queue.leastTalkingTime attempt
  | .available => queue.availableMembers attempt

end Choosing

section Bridging
variable (queue : CallQueue) (attempt : Attempt)

/-- Who was rung in an attempt, and what it returned: a result and the users it failed for, or
    an error. -/
structure Bridged where
  rung : List BridgeExtension
  returned : Option (ChannelBridgeResult × List Text)

def CallQueue.rung (members : List BridgeExtension) : List BridgeExtension :=
  if queue.group.ringProgressively ∧ lowercase queue.group.strategy ≠ "ringall".toList then
    members ++ queue.queueMembers.filter queue.isMemberTried
  else members

def CallQueue.bridge : CallQueue × Bridged :=
  if queue.isAvailable attempt = false then
    (queue, ⟨[], if attempt.fault = some .music then none else some (.Noanswer, [])⟩)
  else if attempt.fault = some .music then (queue, ⟨[], none⟩)
  else
    let members := queue.chosen attempt
    if members = [] then ({ queue with triedMembers := ∅ }, ⟨[], some (.Noanswer, [])⟩)
    else
      let rung := queue.rung members
      match attempt.fault with
      | some .bridge => (queue, ⟨[], none⟩)
      | some _ => (queue, ⟨rung, none⟩)
      | none =>
        ({ queue with
            triedMembers := (members.map BridgeExtension.id).foldl (fun tried id => insert id tried)
              queue.triedMembers },
          ⟨rung, some (attempt.result, (rung.flatMap BridgeExtension.userUuids).dedup)⟩)

/-- The ids of those that are rung, attempt by attempt. -/
def CallQueue.rungIds (queue : CallQueue) : List Attempt → List (List Text)
  | [] => []
  | attempt :: rest =>
    let step := queue.bridge attempt
    step.2.rung.map BridgeExtension.id :: step.1.rungIds rest

end Bridging

section Least
variable (queue : CallQueue) (attempt : Attempt)

/-- The total of what the calls of a member took. -/
def History.talkingTime (history : History) (member : BridgeExtension) : ℕ :=
  (((history.calls member.id).getD []).map fun call =>
    (history.duration member.id call).getD 0).sum

/-- How many of the calls count. -/
def History.numCalls (history : History) (member : BridgeExtension) : ℕ :=
  ((history.calls member.id).getD []).countP (history.counted member)

theorem fold_time (duration : Text → ℕ) (calls : List Text) (acc : ℕ) :
    calls.foldl (fun acc call => duration call + acc) acc = (calls.map duration).sum + acc := by
  induction calls generalizing acc with
  | nil => exact (Nat.zero_add acc).symm
  | cons call calls ih =>
    rw [List.foldl_cons, ih, List.map_cons, List.sum_cons]
    omega

theorem fold_count (counts : Text → Bool) (calls : List Text) (acc : ℕ) :
    calls.foldl (fun acc call => if counts call then acc + 1 else acc) acc =
      calls.countP counts + acc := by
  induction calls generalizing acc with
  | nil => exact (Nat.zero_add acc).symm
  | cons call calls ih =>
    rw [List.foldl_cons, ih, List.countP_cons]
    split <;> omega

theorem memberTalkingTime_total (history : History) (member : BridgeExtension) :
    (history.memberTalkingTime member).getD 0 = history.talkingTime member := by
  unfold History.memberTalkingTime History.talkingTime
  cases history.calls member.id with
  | none => rfl
  | some calls => exact fold_time _ calls 0

theorem memberNumCalls_total (history : History) (member : BridgeExtension) :
    (history.memberNumCalls member).getD 0 = history.numCalls member := by
  unfold History.memberNumCalls History.numCalls
  cases history.calls member.id with
  | none => rfl
  | some calls => exact fold_count _ calls 0

theorem nonzero_marked (count : Option ℕ) : nonzero count ≠ some 0 := by
  unfold nonzero
  intro marked
  split at marked
  · cases marked
  · rename_i some_
    exact some_ (Option.some.inj marked)

theorem order_nonzero (measure : BridgeExtension → Option ℕ) (member : BridgeExtension) :
    order (fun member => nonzero (measure member)) member =
      if (measure member).getD 0 = 0 then ⊥ else WithBot.some ((measure member).getD 0) := by
  by_cases zero : (measure member).getD 0 = 0
  · rw [if_pos zero]
    exact if_pos zero
  · rw [if_neg zero]
    exact if_neg zero

theorem nonzero_le {measure : BridgeExtension → Option ℕ} {first second : BridgeExtension}
    (below : order (fun member => nonzero (measure member)) first ≤
      order (fun member => nonzero (measure member)) second) :
    (measure first).getD 0 ≤ (measure second).getD 0 := by
  rw [order_nonzero, order_nonzero] at below
  by_cases none_ : (measure first).getD 0 = 0
  · rw [none_]
    exact Nat.zero_le _
  · rw [if_neg none_] at below
    by_cases other : (measure second).getD 0 = 0
    · rw [if_pos other] at below
      exact absurd below (not_le_of_gt (WithBot.bot_lt_coe _))
    · rw [if_neg other] at below
      exact WithBot.coe_le_coe.mp below

/-- One of the candidates is chosen where there are any, with no greater rank than the others. -/
def LeastOf {Rank : Type} [LE Rank] (candidates : List BridgeExtension)
    (rank : BridgeExtension → Rank) (chosen : List BridgeExtension) : Prop :=
  candidates = [] ∧ chosen = [] ∨
    ∃ member ∈ candidates, chosen = [member] ∧ ∀ other ∈ candidates, rank member ≤ rank other

theorem scan_leastOf {rank : BridgeExtension → Option ℕ} {candidates : List BridgeExtension}
    (marked : ∀ member ∈ candidates, rank member ≠ some 0) :
    LeastOf candidates (order rank) (scan rank 0 none candidates).toList := by
  by_cases empty : candidates = []
  · rw [empty]
    exact Or.inl ⟨rfl, rfl⟩
  · obtain ⟨member, inside, found⟩ := scan_found rank empty
    rw [found]
    exact Or.inr ⟨member, inside, rfl, scan_least rank marked found⟩

theorem LeastOf.map {Rank Other : Type} [LE Rank] [LE Other] {candidates : List BridgeExtension}
    {rank : BridgeExtension → Rank} {other : BridgeExtension → Other}
    {chosen : List BridgeExtension} (least : LeastOf candidates rank chosen)
    (same : ∀ first second, rank first ≤ rank second → other first ≤ other second) :
    LeastOf candidates other chosen := by
  rcases least with empty | ⟨member, inside, shape, below⟩
  · exact Or.inl empty
  · exact Or.inr ⟨member, inside, shape, fun next held => same _ _ (below next held)⟩

theorem longestIdle_least
    (marked : ∀ member ∈ queue.candidates attempt,
      attempt.history.memberLastCallEnded member ≠ some 0) :
    LeastOf (queue.candidates attempt) (order attempt.history.memberLastCallEnded)
      (queue.longestIdle attempt) :=
  scan_leastOf marked

theorem fewestCalls_least :
    LeastOf (queue.candidates attempt) attempt.history.numCalls (queue.fewestCalls attempt) := by
  refine (scan_leastOf fun member _ => nonzero_marked _).map fun first second below => ?_
  rw [← memberNumCalls_total, ← memberNumCalls_total]
  exact nonzero_le below

theorem leastTalkingTime_least :
    LeastOf (queue.candidates attempt) attempt.history.talkingTime
      (queue.leastTalkingTime attempt) := by
  refine (scan_leastOf fun member _ => nonzero_marked _).map fun first second below => ?_
  rw [← memberTalkingTime_total, ← memberTalkingTime_total]
  exact nonzero_le below

end Least

section Turns
variable {queue : CallQueue} {attempt : Attempt} {pool : BridgeExtension → Prop}

/-- A strategy that rings one member at a time. -/
structure CallQueue.OneByOne (queue : CallQueue) : Prop where
  strategy : Strategy.fromText queue.group.strategy ≠ .available
  progressively : queue.group.ringProgressively = false

def CallQueue.Steady (queue : CallQueue) (pool : BridgeExtension → Prop)
    (attempts : List Attempt) : Prop :=
  ∀ attempt ∈ attempts, ∀ member ∈ queue.queueMembers, attempt.available member ↔ pool member

/-- The ids of the members that are available. -/
def CallQueue.poolIds (queue : CallQueue) (pool : BridgeExtension → Prop) (id : Text) : Prop :=
  ∃ member ∈ queue.queueMembers, pool member ∧ member.id = id

theorem mem_candidates {member : BridgeExtension} : member ∈ queue.candidates attempt ↔
    member ∈ queue.queueMembers ∧ attempt.available member ∧ member.id ∉ queue.triedMembers := by
  simp only [CallQueue.candidates, CallQueue.availableMembers, CallQueue.isMemberTried,
    List.mem_filter, Bool.not_eq_true', decide_eq_false_iff_not, and_assoc]

/-- At most one is chosen, and one is where there is any to choose. -/
def OneOf (candidates chosen : List BridgeExtension) : Prop :=
  candidates = [] ∧ chosen = [] ∨ ∃ member ∈ candidates, chosen = [member]

theorem scan_oneOf (rank : BridgeExtension → Option ℕ) (candidates : List BridgeExtension) :
    OneOf candidates (scan rank 0 none candidates).toList := by
  by_cases empty : candidates = []
  · rw [empty]
    exact Or.inl ⟨rfl, rfl⟩
  · obtain ⟨member, inside, found⟩ := scan_found rank empty
    rw [found]
    exact Or.inr ⟨member, inside, rfl⟩

theorem sequential_oneOf (fromFirst : Bool) :
    OneOf (queue.candidates attempt) (queue.sequential attempt fromFirst) := by
  dsimp only [CallQueue.sequential]
  generalize (if fromFirst then 0
    else attempt.successfulCalls.getD 0 % queue.queueMembers.length) = n
  have round : ∀ member, member ∈ queue.queueMembers.drop n ++ queue.queueMembers.take n ↔
      member ∈ queue.queueMembers := by
    intro member
    rw [List.mem_append, or_comm, ← List.mem_append, List.take_append_drop]
  cases found : (queue.queueMembers.drop n ++ queue.queueMembers.take n).find? fun member =>
      attempt.available member && !queue.isMemberTried member with
  | none =>
    refine Or.inl ⟨List.eq_nil_iff_forall_not_mem.mpr fun member inside => ?_, rfl⟩
    obtain ⟨held, free, fresh⟩ := mem_candidates.mp inside
    have passed := List.find?_eq_none.mp found member ((round member).mpr held)
    simp [free, CallQueue.isMemberTried, fresh] at passed
  | some member =>
    have held := (round member).mp (List.mem_of_find?_eq_some found)
    have good := List.find?_some found
    simp only [CallQueue.isMemberTried, Bool.and_eq_true, Bool.not_eq_true',
      decide_eq_false_iff_not] at good
    exact Or.inr ⟨member, mem_candidates.mpr ⟨held, good⟩, rfl⟩

theorem chosen_oneOf (oneByOne : queue.OneByOne) :
    OneOf (queue.candidates attempt) (queue.chosen attempt) := by
  unfold CallQueue.chosen
  cases strategy : Strategy.fromText queue.group.strategy with
  | sequential fromFirst => exact sequential_oneOf fromFirst
  | longestIdle => exact scan_oneOf _ _
  | fewestCalls => exact scan_oneOf _ _
  | leastTalkingTime => exact scan_oneOf _ _
  | available => exact absurd strategy oneByOne.strategy

theorem bridge_group : (queue.bridge attempt).1.group = queue.group ∧
    (queue.bridge attempt).1.queueMembers = queue.queueMembers := by
  dsimp only [CallQueue.bridge]
  split
  · exact ⟨rfl, rfl⟩
  · split
    · exact ⟨rfl, rfl⟩
    · split
      · exact ⟨rfl, rfl⟩
      · split <;> exact ⟨rfl, rfl⟩

theorem bridge_nobody (whole : attempt.fault = none) (free : queue.isAvailable attempt = false) :
    queue.bridge attempt = (queue, ⟨[], some (.Noanswer, [])⟩) := by
  have quiet : attempt.fault ≠ some .music := by rw [whole]; exact nofun
  rw [CallQueue.bridge, if_pos free, if_neg quiet]

theorem bridge_forgets (whole : attempt.fault = none) (free : queue.isAvailable attempt = true)
    (empty : queue.chosen attempt = []) :
    queue.bridge attempt = ({ queue with triedMembers := ∅ }, ⟨[], some (.Noanswer, [])⟩) := by
  have quiet : attempt.fault ≠ some .music := by rw [whole]; exact nofun
  rw [CallQueue.bridge, if_neg (by rw [free]; exact nofun), if_neg quiet]
  exact if_pos empty

theorem bridge_rings (oneByOne : queue.OneByOne) (whole : attempt.fault = none)
    (free : queue.isAvailable attempt = true) {member : BridgeExtension}
    (chosen : queue.chosen attempt = [member]) :
    queue.bridge attempt = ({ queue with triedMembers := insert member.id queue.triedMembers },
      ⟨[member], some (attempt.result, member.userUuids.dedup)⟩) := by
  have quiet : attempt.fault ≠ some .music := by rw [whole]; exact nofun
  have alone : queue.rung [member] = [member] := by
    refine if_neg fun both => ?_
    rw [oneByOne.progressively] at both
    cases both.1
  rw [CallQueue.bridge, if_neg (by rw [free]; exact nofun), if_neg quiet]
  dsimp only
  rw [chosen, if_neg (List.cons_ne_nil _ _), whole, alone]
  simp

/-- An attempt that comes to a result is a turn: it rings one of those that were not tried, or
    forgets who was where there is nobody left. -/
theorem bridge_turn (oneByOne : queue.OneByOne) (whole : attempt.fault = none)
    (steady : ∀ member ∈ queue.queueMembers, attempt.available member ↔ pool member) :
    Turn (queue.poolIds pool) queue.triedMembers
      ((queue.bridge attempt).2.rung.map BridgeExtension.id)
      (queue.bridge attempt).1.triedMembers := by
  cases free : queue.isAvailable attempt with
  | false =>
    rw [bridge_nobody whole free]
    refine Turn.idle fun id present => ?_
    obtain ⟨member, held, inside, _⟩ := present
    have nobody := List.any_eq_false.mp free member held
    exact nobody ((steady member held).mpr inside)
  | true =>
    rcases @chosen_oneOf queue attempt oneByOne with ⟨none_, empty⟩ | ⟨member, candidate, chosen⟩
    · rw [bridge_forgets whole free empty]
      refine Turn.clear fun id present => ?_
      obtain ⟨member, held, inside, rfl⟩ := present
      by_contra fresh
      have candidate := mem_candidates.mpr ⟨held, (steady member held).mpr inside, fresh⟩
      rw [none_] at candidate
      cases candidate
    · rw [bridge_rings oneByOne whole free chosen]
      obtain ⟨held, able, fresh⟩ := mem_candidates.mp candidate
      exact Turn.serve ⟨member, held, (steady member held).mp able, rfl⟩ fresh

theorem rungIds_turns {attempts : List Attempt} (oneByOne : queue.OneByOne)
    (steady : queue.Steady pool attempts) (whole : ∀ attempt ∈ attempts, attempt.fault = none) :
    ∃ last, Turns (queue.poolIds pool) queue.triedMembers (queue.rungIds attempts) last := by
  induction attempts generalizing queue with
  | nil => exact ⟨_, Turns.done⟩
  | cons attempt rest ih =>
    obtain ⟨group, members⟩ := @bridge_group queue attempt
    have turn := bridge_turn oneByOne (whole attempt List.mem_cons_self)
      (steady attempt List.mem_cons_self)
    have later : (queue.bridge attempt).1.OneByOne := by
      constructor
      · rw [group]
        exact oneByOne.strategy
      · rw [group]
        exact oneByOne.progressively
    have same : (queue.bridge attempt).1.poolIds pool = queue.poolIds pool := by
      unfold CallQueue.poolIds
      rw [members]
    obtain ⟨last, turns⟩ := ih later
      (fun other held member inside => steady other (.tail _ held) member (members ▸ inside))
      fun other held => whole other (.tail _ held)
    rw [same] at turns
    exact ⟨last, Turns.next turn turns⟩

end Turns

section Fairness

/-- Where those that are available stay the same, they are rung in rounds, and of those that are
    left, the one with the least rank: no last call before any end, except that an end of 0 is
    the marker of the scan. -/
theorem rounds_and_least :
    (∀ (queue : CallQueue) (pool : BridgeExtension → Prop) (attempts : List Attempt),
      queue.OneByOne → queue.triedMembers = ∅ → queue.Steady pool attempts →
      (∀ attempt ∈ attempts, attempt.fault = none) →
      InRounds (queue.poolIds pool) (queue.rungIds attempts)) ∧
    ∀ (queue : CallQueue) (attempt : Attempt),
      ((∀ member ∈ queue.candidates attempt,
          attempt.history.memberLastCallEnded member ≠ some 0) →
        LeastOf (queue.candidates attempt) (order attempt.history.memberLastCallEnded)
          (queue.longestIdle attempt)) ∧
      LeastOf (queue.candidates attempt) attempt.history.numCalls (queue.fewestCalls attempt) ∧
      LeastOf (queue.candidates attempt) attempt.history.talkingTime
        (queue.leastTalkingTime attempt) := by
  constructor
  · intro queue pool attempts oneByOne fresh steady whole
    obtain ⟨last, turns⟩ := rungIds_turns oneByOne steady whole
    rw [fresh] at turns
    exact turns_in_rounds _ turns (fun id => by simp) List.nodup_nil (by simp)
  · intro queue attempt
    exact ⟨longestIdle_least queue attempt, fewestCalls_least queue attempt,
      leastTalkingTime_least queue attempt⟩

def twoUsers (strategy : String) : CallQueue :=
  ⟨⟨strategy.toList, false⟩, [.user ['A'], .user ['B']], ∅⟩

/-- An attempt in which every user is available. -/
def allFree (history : History) (fault : Option Fault) : Attempt :=
  ⟨fun _ => some true, history, some 0, fault, .Noanswer⟩

/-- The first user had a call of less than a second, and the second none. -/
def shortCall : History where
  calls id := some (if id = "user:A".toList then [['c']] else [])
  ended _ _ := some 7
  duration _ _ := some 0

theorem twoUsers_oneByOne {strategy : String}
    (single : Strategy.fromText strategy.toList ≠ .available) : (twoUsers strategy).OneByOne :=
  ⟨single, rfl⟩

theorem twoUsers_steady (strategy : String) (history : History) (faults : List (Option Fault)) :
    (twoUsers strategy).Steady (fun _ => True) (faults.map (allFree history)) := by
  intro attempt held member inside
  obtain ⟨fault, _, rfl⟩ := List.mem_map.mp held
  have users : member = .user ['A'] ∨ member = .user ['B'] := by simpa [twoUsers] using inside
  rcases users with rfl | rfl
  · exact iff_of_true rfl trivial
  · exact iff_of_true rfl trivial

theorem rounds_and_least_two :
    (twoUsers "longestidle").rungIds ([none, none, none].map (allFree shortCall)) =
        ["user:B".toList, "user:A".toList].map single ++ [[]] ∧
      InRounds ((twoUsers "longestidle").poolIds fun _ => True)
        ((twoUsers "longestidle").rungIds ([none, none, none].map (allFree shortCall))) ∧
      LeastOf ((twoUsers "longestidle").candidates (allFree shortCall none))
        (order shortCall.memberLastCallEnded)
        ((twoUsers "longestidle").longestIdle (allFree shortCall none)) :=
  ⟨by decide +kernel,
    rounds_and_least.1 _ _ _ (twoUsers_oneByOne (by decide +kernel)) rfl (twoUsers_steady _ _ _)
      (by simp [allFree]),
    (rounds_and_least.2 _ _).1 (by decide +kernel)⟩

/-- A strategy that would always take a member without any call where there is one. -/
def UncalledFirst (choose : CallQueue → Attempt → List BridgeExtension) : Prop :=
  ∀ (queue : CallQueue) (attempt : Attempt), ∀ member ∈ choose queue attempt,
    (∃ other ∈ queue.candidates attempt, attempt.history.calls other.id = some []) →
    attempt.history.calls member.id = some []

/-- The last call of the first user ended in the first second of the clock. -/
def epochCall : History where
  calls _ := some [['c']]
  ended id _ := some (if id = "user:A".toList then 0 else 7)
  duration _ _ := some 1

theorem not_inRounds_twice {Item : Type} {pool : Item → Prop} (item : Item) :
    ¬ InRounds pool [single item, single item] := by
  rintro ⟨rounds, current, shape, _, nodup, _⟩
  cases rounds with
  | nil =>
    have twice : [item, item] = current :=
      List.map_injective_iff.mpr (fun _ _ => List.singleton_inj.mp) shape
    rw [← twice] at nodup
    simp at nodup
  | cons round rounds =>
    have empty : [] ∈ [single item, single item] := by
      rw [shape]
      simp
    simp [single] at empty

/-- A short call, an end at the marker and an error while members ring each break the plain
    rule. -/
theorem plain_rule_fails :
    ¬ UncalledFirst CallQueue.fewestCalls ∧ ¬ UncalledFirst CallQueue.leastTalkingTime ∧
      (¬ ∀ (queue : CallQueue) (attempt : Attempt), LeastOf (queue.candidates attempt)
        (order attempt.history.memberLastCallEnded) (queue.longestIdle attempt)) ∧
      ¬ ∀ (queue : CallQueue) (pool : BridgeExtension → Prop) (attempts : List Attempt),
        queue.OneByOne → queue.triedMembers = ∅ → queue.Steady pool attempts →
        InRounds (queue.poolIds pool) (queue.rungIds attempts) := by
  refine ⟨fun first => ?_, fun first => ?_, fun least => ?_, fun fair => ?_⟩
  · have passed := first (twoUsers "fewestcalls") (allFree shortCall none) (.user ['A'])
      (by decide +kernel) ⟨.user ['B'], by decide +kernel, by decide +kernel⟩
    exact absurd passed (by decide +kernel)
  · have passed := first (twoUsers "leasttalkingtime") (allFree shortCall none) (.user ['A'])
      (by decide +kernel) ⟨.user ['B'], by decide +kernel, by decide +kernel⟩
    exact absurd passed (by decide +kernel)
  · have chosen : (twoUsers "longestidle").longestIdle (allFree epochCall none) =
        [.user ['B']] := by decide +kernel
    rcases least (twoUsers "longestidle") (allFree epochCall none) with
      ⟨none_, _⟩ | ⟨member, _, own, below⟩
    · exact absurd none_ (by decide +kernel)
    · obtain rfl := List.singleton_inj.mp (chosen.symm.trans own)
      exact absurd (below (.user ['A']) (by decide +kernel)) (by decide +kernel)
  · have rings : (twoUsers "sequential").rungIds
        ([some .ringing, some .ringing].map (allFree shortCall)) =
        [single "user:A".toList, single "user:A".toList] := by decide +kernel
    have rounds := fair (twoUsers "sequential") _ _ (twoUsers_oneByOne (by decide +kernel)) rfl
      (twoUsers_steady _ shortCall [some .ringing, some .ringing])
    rw [rings] at rounds
    exact not_inRounds_twice _ rounds

end Fairness

end CallQueues
