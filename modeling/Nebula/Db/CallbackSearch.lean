import Nebula.Lib.Runs

/- The search for the call by which the caller of an abandoned queue record has been called back.
   It is taken up where the last one for the record has stopped, which is cached, and a call that
   has not ended holds that place back. -/
namespace CallbackSearch
open Runs

abbrev Text := List Char

def ANSWERED : Text := ['a', 'n', 's', 'w', 'e', 'r', 'e', 'd']

def OUTBOUND : Text := ['o', 'u', 't', 'b', 'o', 'u', 'n', 'd']

/-- Instants are counted in microseconds, as the database keeps them. -/
def SECOND : Int := 1000000

structure CdrItem where
  uuid : Nat
  tenantId : Text
  start : Int
  ended : Option Int
  disposition : Option Text
  callType : Option Text
  toExten : Option Text
  deriving DecidableEq

structure PhoneNumber where
  national : Text
  e164 : Text

/-- A queue record, with the tenant and the number of the call that it was made for. -/
structure QueueRecord where
  start : Int
  ended : Option Int
  tenantId : Text
  fromExten : Text

inductive AbandonedQueueRecordCalledback where
  | notCalledback
  | calledback (uuid : Nat) (start : Int)
  | withinTimeout (start : Int)
  deriving DecidableEq

/-- Whom an abandoned queue record is about. -/
structure Caller where
  tenantId : Text
  number : Text
  numberFormats : List Text
  deriving DecidableEq

section Queries

def Candidate (caller : Caller) (row : CdrItem) : Prop :=
  row.tenantId = caller.tenantId ∧ row.callType = some OUTBOUND ∧
    row.toExten ∈ caller.numberFormats.map some

instance (caller : Caller) (row : CdrItem) : Decidable (Candidate caller row) :=
  inferInstanceAs (Decidable (_ ∧ _ ∧ _))

def Asked (caller : Caller) (needsToBeAnswered : Bool) (row : CdrItem) : Prop :=
  Candidate caller row ∧ (needsToBeAnswered = true → row.disposition = some ANSWERED)

instance (caller : Caller) (needs : Bool) (row : CdrItem) : Decidable (Asked caller needs row) :=
  inferInstanceAs (Decidable (_ ∧ (_ → _)))

def Found (caller : Caller) (needsToBeAnswered : Bool) (startTime timeoutTime : Int)
    (row : CdrItem) : Prop :=
  Asked caller needsToBeAnswered row ∧ startTime ≤ row.start ∧ row.start ≤ timeoutTime

instance (caller : Caller) (needs : Bool) (startTime timeoutTime : Int) :
    DecidablePred (Found caller needs startTime timeoutTime) :=
  fun _ => inferInstanceAs (Decidable (_ ∧ _ ∧ _))

def Unfinished (caller : Caller) (startTime timeoutTime : Int) (row : CdrItem) : Prop :=
  row.tenantId = caller.tenantId ∧ row.ended = none ∧ startTime ≤ row.start ∧
    row.start ≤ timeoutTime

instance (caller : Caller) (startTime timeoutTime : Int) :
    DecidablePred (Unfinished caller startTime timeoutTime) :=
  fun _ => inferInstanceAs (Decidable (_ ∧ _ ∧ _ ∧ _))

/-- One of the rows that satisfy a condition with the earliest start, or none if none does. -/
def IsFirst (p : CdrItem → Prop) (rows : List CdrItem) : Option CdrItem → Prop
  | none => ∀ row ∈ rows, ¬ p row
  | some first => first ∈ rows ∧ p first ∧ ∀ row ∈ rows, p row → first.start ≤ row.start

instance (p : CdrItem → Prop) [DecidablePred p] (rows : List CdrItem) :
    ∀ first, Decidable (IsFirst p rows first)
  | none => inferInstanceAs (Decidable (∀ row ∈ rows, ¬ p row))
  | some first => inferInstanceAs
      (Decidable (first ∈ rows ∧ p first ∧ ∀ row ∈ rows, p row → first.start ≤ row.start))

/-- A query that fails is taken for one that finds nothing. -/
def Queried (p : CdrItem → Prop) (rows : List CdrItem) (answered : Bool)
    (first : Option CdrItem) : Prop :=
  match answered with
  | true => IsFirst p rows first
  | false => first = none

instance (p : CdrItem → Prop) [DecidablePred p] (rows : List CdrItem) (first : Option CdrItem) :
    ∀ answered, Decidable (Queried p rows answered first)
  | true => inferInstanceAs (Decidable (IsFirst p rows first))
  | false => inferInstanceAs (Decidable (first = none))

end Queries

section Model

/-- What a search has come to, which is cached. The parameters that it was made with are not, and
    are no part of the code here, nor is the flag: a call that it has passed over has been
    answered since. -/
structure Search where
  calledBack : AbandonedQueueRecordCalledback
  needsToBeAnswered : Bool
  timeoutTime : Int
  overtaken : Bool

structure Entry where
  caller : Caller
  search : Search

/-- A search between its two queries. Its flag and the rows of the first query are no part of the
    code. -/
structure Checking where
  caller : Caller
  needsToBeAnswered : Bool
  timeoutTime : Int
  startTime : Int
  connected : Bool
  calledBackCdr : Option CdrItem
  overtaken : Bool
  rows : List CdrItem

def Checking.search (checking : Checking) : Search where
  calledBack :=
    match checking.calledBackCdr with
    | some cdr => .calledback cdr.uuid cdr.start
    | none => .withinTimeout checking.startTime
  needsToBeAnswered := checking.needsToBeAnswered
  timeoutTime := checking.timeoutTime
  overtaken := checking.overtaken

/-- What a call of the function is answered, with the rows that it has searched. -/
structure Answer where
  rows : List CdrItem
  needsToBeAnswered : Bool
  timeoutTime : Int
  calledBack : AbandonedQueueRecordCalledback
  deriving DecidableEq

structure State where
  rows : List CdrItem
  clock : Int
  cache : Option Entry
  checking : Option Checking
  answers : List Answer

/-- Whether the cached record can be read, the call of the record looked up, a connection had and
    the query answered, and what it finds. -/
structure First where
  seen : Bool
  known : Bool
  connected : Bool
  answered : Bool
  calledBackCdr : Option CdrItem

/-- Whether the second query is answered, what it finds, and whether the cache can be written. -/
structure Second where
  answered : Bool
  unfinished : Option CdrItem
  stored : Bool

inductive Event where
  | starts (row : CdrItem)
  | answers (uuid : Nat)
  | ends (uuid : Nat) (time : Int)
  | ticks (span : Nat)
  | checks (needsToBeAnswered : Bool) (timeout : Int) (first : First)
  | concludes (second : Second)
  | lost
  | expires

variable (getPhoneNumber : Text → Option PhoneNumber) (record : QueueRecord)

def QueueRecord.time : Int := record.ended.getD record.start

def QueueRecord.timeoutTime (timeout : Int) : Int := record.time + timeout * SECOND

def QueueRecord.caller : Caller :=
  match getPhoneNumber record.fromExten with
  | some phone =>
    ⟨record.tenantId, phone.e164, [phone.national, phone.e164, phone.e164.tail, record.fromExten]⟩
  | none => ⟨record.tenantId, record.fromExten, [record.fromExten]⟩

/-- A start that a search up to a time has gone past. -/
def Passed : AbandonedQueueRecordCalledback → Int → Int → Prop
  | .calledback _ found, _, start => start < found
  | .withinTimeout next, timeoutTime, start => start < next ∧ start ≤ timeoutTime
  | .notCalledback, timeoutTime, start => start ≤ timeoutTime

instance : ∀ calledBack timeoutTime start, Decidable (Passed calledBack timeoutTime start)
  | .calledback _ found, _, start => inferInstanceAs (Decidable (start < found))
  | .withinTimeout next, timeoutTime, start =>
    inferInstanceAs (Decidable (start < next ∧ start ≤ timeoutTime))
  | .notCalledback, timeoutTime, start => inferInstanceAs (Decidable (start ≤ timeoutTime))

/-- A call before the one that is found may go on, but none before the next start. -/
def Settled : AbandonedQueueRecordCalledback → CdrItem → Prop
  | .calledback _ _, _ => True
  | .withinTimeout _, row | .notCalledback, row => row.ended ≠ none

instance : ∀ calledBack row, Decidable (Settled calledBack row)
  | .calledback _ _, _ => isTrue trivial
  | .withinTimeout _, row | .notCalledback, row => inferInstanceAs (Decidable (row.ended ≠ none))

def Overtakes (caller : Caller) (time : Int) (search : Search) (row : CdrItem) : Prop :=
  Candidate caller row ∧ row.disposition ≠ some ANSWERED ∧ time ≤ row.start ∧
    Passed search.calledBack search.timeoutTime row.start ∧ Settled search.calledBack row

instance (caller : Caller) (time : Int) (search : Search) (row : CdrItem) :
    Decidable (Overtakes caller time search row) :=
  inferInstanceAs (Decidable (_ ∧ _ ∧ _ ∧ _ ∧ _))

/-- The flag after a call is answered. -/
def overtakenBy (caller : Caller) (time : Int) (rows : List CdrItem) (uuid : Nat)
    (search : Search) : Bool :=
  search.overtaken || decide (∃ row ∈ rows, row.uuid = uuid ∧ Overtakes caller time search row)

def answerRow (uuid : Nat) (row : CdrItem) : CdrItem :=
  if row.uuid = uuid then { row with disposition := some ANSWERED } else row

def endRow (uuid : Nat) (time : Int) (row : CdrItem) : CdrItem :=
  if row.uuid = uuid then { row with ended := some time } else row

def nextQueryStartTime (checking : Checking) (now : Int) (unfinished : Option CdrItem) : Int :=
  match checking.connected with
  | true =>
    match unfinished with
    | some cdr => cdr.start - 10 * SECOND
    | none => now - 10 * SECOND
  | false => checking.startTime

def calledBack (checking : Checking) (now : Int) (unfinished : Option CdrItem) :
    AbandonedQueueRecordCalledback :=
  match checking.calledBackCdr with
  | some cdr => .calledback cdr.uuid cdr.start
  | none =>
    if nextQueryStartTime checking now unfinished > checking.timeoutTime then .notCalledback
    else .withinTimeout (nextQueryStartTime checking now unfinished)

/-- The first query of a search from a start time. -/
def query (caller : Caller) (startTime : Int) (needsToBeAnswered : Bool) (timeoutTime : Int)
    (first : First) (state : State) : Option State :=
  if Queried (Found caller needsToBeAnswered startTime timeoutTime) state.rows
      (first.connected && first.answered) first.calledBackCdr then
    some { state with
      checking := some ⟨caller, needsToBeAnswered, timeoutTime, startTime, first.connected,
        first.calledBackCdr, false, state.rows⟩ }
  else none

def check (needsToBeAnswered : Bool) (timeout : Int) (first : First) (state : State) :
    Option State :=
  match if first.seen then state.cache else none with
  | some entry =>
    match entry.search.calledBack with
    | .withinTimeout startTime =>
      query entry.caller startTime needsToBeAnswered (record.timeoutTime timeout) first state
    | confirmed => some { state with
        answers := ⟨state.rows, needsToBeAnswered, record.timeoutTime timeout, confirmed⟩ ::
          state.answers }
  | none =>
    if first.known then
      query (record.caller getPhoneNumber) record.time needsToBeAnswered
        (record.timeoutTime timeout) first state
    else some state

def conclude (checking : Checking) (second : Second) (state : State) : Option State :=
  if checking.calledBackCdr = none → checking.connected = true →
      Queried (Unfinished checking.caller checking.startTime checking.timeoutTime) state.rows
        second.answered second.unfinished then
    let result := calledBack checking state.clock second.unfinished
    some { state with
      cache :=
        if second.stored then
          some ⟨checking.caller, { checking.search with calledBack := result }⟩
        else state.cache
      checking := none
      answers := ⟨checking.rows, checking.needsToBeAnswered, checking.timeoutTime, result⟩ ::
        state.answers }
  else none

/-- One call of the function is made after another, once the queue record has ended. -/
def step : Machine State Event
  | state, .starts row =>
    if row.start = state.clock ∧ row.ended = none ∧ ∀ other ∈ state.rows, other.uuid ≠ row.uuid then
      some { state with rows := row :: state.rows }
    else none
  | state, .answers uuid =>
    let overtaken := overtakenBy (record.caller getPhoneNumber) record.time state.rows uuid
    some { state with
      rows := state.rows.map (answerRow uuid)
      cache := state.cache.map fun entry =>
        { entry with search := { entry.search with overtaken := overtaken entry.search } }
      checking := state.checking.map fun checking =>
        { checking with overtaken := overtaken checking.search } }
  | state, .ends uuid time => some { state with rows := state.rows.map (endRow uuid time) }
  | state, .ticks span => some { state with clock := state.clock + span }
  | state, .checks needsToBeAnswered timeout first =>
    if state.checking.isNone ∧ record.time ≤ state.clock then
      check getPhoneNumber record needsToBeAnswered timeout first state
    else none
  | state, .concludes second => state.checking.bind fun checking => conclude checking second state
  | state, .lost => some { state with checking := none }
  | state, .expires => some { state with cache := none }

def begins (clock : Int) : State := ⟨[], clock, none, none, []⟩

end Model

section Specification

/-- What a search of all calls from the end of the record on comes to, in the rows of the first
    query, or of the call if the record was cached with a result. -/
def Answer.Right (caller : Caller) (time : Int) (answer : Answer) : Prop :=
  let full := IsFirst (Found caller answer.needsToBeAnswered time answer.timeoutTime) answer.rows
  match answer.calledBack with
  | .calledback uuid start => ∃ cdr, full (some cdr) ∧ cdr.uuid = uuid ∧ cdr.start = start
  | .notCalledback => full none
  | .withinTimeout _ => True

/-- A first query that fails would have found nothing. -/
def NothingMissed (caller : Caller) (startTime : Int) (rows : List CdrItem)
    (needsToBeAnswered : Bool) (timeoutTime : Int) (first : First) : Prop :=
  first.connected = true → first.answered = false →
    ∀ row ∈ rows, ¬ Found caller needsToBeAnswered startTime timeoutTime row

instance (caller : Caller) (startTime : Int) (rows : List CdrItem) (needs : Bool)
    (timeoutTime : Int) (first : First) :
    Decidable (NothingMissed caller startTime rows needs timeoutTime first) :=
  inferInstanceAs (Decidable (_ → _ → _))

/-- The call that the cached search has found is one that is asked for now; or there is none
    after the time up to which it has found none; or it is taken up where it has stopped, and
    finds no call from before the record has ended. -/
def Applies (caller : Caller) (time : Int) (rows : List CdrItem) (searched : Int)
    (needsToBeAnswered : Bool) (timeoutTime : Int) (first : First) :
    AbandonedQueueRecordCalledback → Prop
  | .calledback uuid start => ∃ row ∈ rows, row.uuid = uuid ∧ row.start = start ∧
      Asked caller needsToBeAnswered row ∧ row.start ≤ timeoutTime
  | .notCalledback => ∀ row ∈ rows, Found caller needsToBeAnswered time timeoutTime row →
      row.start ≤ searched
  | .withinTimeout startTime =>
    NothingMissed caller startTime rows needsToBeAnswered timeoutTime first ∧
      ∀ row ∈ rows, Found caller needsToBeAnswered startTime timeoutTime row → time ≤ row.start

instance (caller : Caller) (time : Int) (rows : List CdrItem) (searched : Int) (needs : Bool)
    (timeoutTime : Int) (first : First) :
    ∀ calledBack, Decidable (Applies caller time rows searched needs timeoutTime first calledBack)
  | .calledback _ _ => inferInstanceAs (Decidable (∃ row ∈ rows, _ ∧ _ ∧ _ ∧ _))
  | .notCalledback => inferInstanceAs (Decidable (∀ row ∈ rows, _ → _))
  | .withinTimeout _ => inferInstanceAs (Decidable (_ ∧ ∀ row ∈ rows, _ → _))

/-- None of the calls that the cached search has passed over has been answered since, or is asked
    for only now, and its result applies. -/
def Agrees (caller : Caller) (time : Int) (rows : List CdrItem) (search : Search)
    (needsToBeAnswered : Bool) (timeoutTime : Int) (first : First) : Prop :=
  search.overtaken = false ∧
    (∀ row ∈ rows, Found caller needsToBeAnswered time timeoutTime row →
      Passed search.calledBack search.timeoutTime row.start →
        Asked caller search.needsToBeAnswered row) ∧
    Applies caller time rows search.timeoutTime needsToBeAnswered timeoutTime first
      search.calledBack

instance (caller : Caller) (time : Int) (rows : List CdrItem) (search : Search) (needs : Bool)
    (timeoutTime : Int) (first : First) :
    Decidable (Agrees caller time rows search needs timeoutTime first) :=
  inferInstanceAs (Decidable (_ ∧ _ ∧ _))

/-- No call that the first query has not found lies before the next start, and no call that has
    not ended, unless the second query finds one that holds the next start back. -/
def NothingSkipped (checking : Checking) (rows : List CdrItem) (clock : Int) (answered : Bool) :
    Prop :=
  (∀ row ∈ rows, Found checking.caller checking.needsToBeAnswered checking.startTime
      checking.timeoutTime row → row.start < clock - 10 * SECOND → answered = true ∧
        ∃ other ∈ rows, Unfinished checking.caller checking.startTime checking.timeoutTime other ∧
          other.start - 10 * SECOND ≤ row.start) ∧
    (answered = false → ∀ row ∈ rows, Candidate checking.caller row →
      Unfinished checking.caller checking.startTime checking.timeoutTime row →
        clock - 10 * SECOND ≤ row.start)

instance (checking : Checking) (rows : List CdrItem) (clock : Int) (answered : Bool) :
    Decidable (NothingSkipped checking rows clock answered) :=
  inferInstanceAs (Decidable (_ ∧ _))

variable (getPhoneNumber : Text → Option PhoneNumber) (record : QueueRecord)

def CheckGuarded (state : State) (needsToBeAnswered : Bool) (timeoutTime : Int) (first : First) :
    Option Entry → Prop
  | some entry =>
    Agrees entry.caller record.time state.rows entry.search needsToBeAnswered timeoutTime first
  | none => first.known = true →
    NothingMissed (record.caller getPhoneNumber) record.time state.rows needsToBeAnswered
      timeoutTime first

instance (state : State) (needs : Bool) (timeoutTime : Int) (first : First) :
    ∀ entry, Decidable (CheckGuarded getPhoneNumber record state needs timeoutTime first entry)
  | some _ => inferInstanceAs (Decidable (Agrees _ _ _ _ _ _ _))
  | none => inferInstanceAs (Decidable (_ → _))

def Guarded : Guard State Event
  | state, .checks needsToBeAnswered timeout first =>
    CheckGuarded getPhoneNumber record state needsToBeAnswered (record.timeoutTime timeout) first
      (if first.seen then state.cache else none)
  | state, .concludes second => ∀ checking ∈ state.checking, checking.calledBackCdr = none →
      checking.connected = true → NothingSkipped checking state.rows state.clock second.answered
  | _, _ => True

instance : ∀ state event, Decidable (Guarded getPhoneNumber record state event)
  | _, .checks _ _ _ => inferInstanceAs (Decidable (CheckGuarded _ _ _ _ _ _ _))
  | state, .concludes _ => inferInstanceAs (Decidable (∀ checking ∈ state.checking, _ → _ → _))
  | _, .starts _ | _, .answers _ | _, .ends _ _ | _, .ticks _ | _, .lost | _, .expires =>
    isTrue trivial

end Specification

section Searches
variable {caller : Caller} {time : Int} {rows : List CdrItem} {clock : Int} {search : Search}

/-- What a search has gone past has started before now and lies behind it. -/
structure Sound (caller : Caller) (time : Int) (rows : List CdrItem) (clock : Int)
    (search : Search) : Prop where
  ahead : ∀ start, clock ≤ start → ¬ Passed search.calledBack search.timeoutTime start
  passedOver : search.overtaken = false → ∀ row ∈ rows, Candidate caller row →
    time ≤ row.start → Passed search.calledBack search.timeoutTime row.start →
      Settled search.calledBack row ∧ ¬ Asked caller search.needsToBeAnswered row
  confirmed : ∀ uuid start, search.calledBack = .calledback uuid start → time ≤ start

theorem answerRow_start (uuid : Nat) (row : CdrItem) : (answerRow uuid row).start = row.start := by
  unfold answerRow
  split <;> rfl

theorem candidate_answerRow {uuid : Nat} {row : CdrItem} :
    Candidate caller (answerRow uuid row) ↔ Candidate caller row := by
  unfold answerRow
  split <;> exact Iff.rfl

theorem answerRow_of_answered {uuid : Nat} {row : CdrItem}
    (answered : row.disposition = some ANSWERED) : answerRow uuid row = row := by
  unfold answerRow
  split
  · rw [← answered]
  · rfl

theorem endRow_start (uuid : Nat) (ended : Int) (row : CdrItem) :
    (endRow uuid ended row).start = row.start := by
  unfold endRow
  split <;> rfl

theorem candidate_endRow {uuid : Nat} {ended : Int} {row : CdrItem} :
    Candidate caller (endRow uuid ended row) ↔ Candidate caller row := by
  unfold endRow
  split <;> exact Iff.rfl

theorem asked_endRow {uuid : Nat} {ended : Int} {row : CdrItem} {needs : Bool} :
    Asked caller needs (endRow uuid ended row) ↔ Asked caller needs row := by
  unfold endRow
  split <;> exact Iff.rfl

theorem settled_endRow {uuid : Nat} {ended : Int} {row : CdrItem}
    {result : AbandonedQueueRecordCalledback} (settled : Settled result row) :
    Settled result (endRow uuid ended row) := by
  unfold endRow
  split
  · cases result with
    | calledback _ _ => trivial
    | notCalledback => exact Option.some_ne_none ended
    | withinTimeout _ => exact Option.some_ne_none ended
  · exact settled

theorem sound_ticks {later : Int} (sound : Sound caller time rows clock search)
    (onward : clock ≤ later) : Sound caller time rows later search where
  ahead start after := sound.ahead start (Int.le_trans onward after)
  passedOver := sound.passedOver
  confirmed := sound.confirmed

theorem sound_starts {row : CdrItem} (sound : Sound caller time rows clock search)
    (fresh : row.start = clock) : Sound caller time (row :: rows) clock search where
  ahead := sound.ahead
  passedOver := by
    intro kept other member candidate later passed
    rcases List.mem_cons.mp member with rfl | older
    · exact absurd passed (sound.ahead _ (Int.le_of_eq fresh.symm))
    · exact sound.passedOver kept other older candidate later passed
  confirmed := sound.confirmed

theorem sound_ends {uuid : Nat} {ended : Int} (sound : Sound caller time rows clock search) :
    Sound caller time (rows.map (endRow uuid ended)) clock search where
  ahead := sound.ahead
  passedOver := by
    intro kept other member candidate later passed
    obtain ⟨row, inside, rfl⟩ := List.mem_map.mp member
    rw [endRow_start] at later passed
    obtain ⟨settled, notAsked⟩ :=
      sound.passedOver kept row inside (candidate_endRow.mp candidate) later passed
    exact ⟨settled_endRow settled, fun asked => notAsked (asked_endRow.mp asked)⟩
  confirmed := sound.confirmed

/-- Where the flag stays down, what is answered is none of the calls that were passed over. -/
theorem sound_answers {uuid : Nat} (sound : Sound caller time rows clock search) :
    Sound caller time (rows.map (answerRow uuid)) clock
      { search with overtaken := overtakenBy caller time rows uuid search } where
  ahead := sound.ahead
  passedOver := by
    intro kept other member candidate later passed
    obtain ⟨row, inside, rfl⟩ := List.mem_map.mp member
    rw [answerRow_start] at later passed
    obtain ⟨before, none⟩ := Bool.or_eq_false_iff.mp kept
    have candidateRow := candidate_answerRow.mp candidate
    obtain ⟨settled, notAsked⟩ := sound.passedOver before row inside candidateRow later passed
    have same : answerRow uuid row = row := by
      by_cases named : row.uuid = uuid
      · refine answerRow_of_answered (Decidable.by_contra fun unanswered => ?_)
        exact of_decide_eq_false none
          ⟨row, inside, named, candidateRow, unanswered, later, passed, settled⟩
      · exact if_neg named
    rw [same]
    exact ⟨settled, notAsked⟩
  confirmed := sound.confirmed

/-- A confirmed result that agrees with the parameters is what the full search comes to. -/
theorem right_of_agrees {needs : Bool} {timeoutTime : Int} {first : First}
    (sound : Sound caller time rows clock search)
    (agrees : Agrees caller time rows search needs timeoutTime first) :
    (Answer.mk rows needs timeoutTime search.calledBack).Right caller time := by
  obtain ⟨kept, same, applies⟩ := agrees
  have none_before : ∀ row ∈ rows, Found caller needs time timeoutTime row →
      ¬ Passed search.calledBack search.timeoutTime row.start := by
    intro row member found passed
    have asked := same row member found passed
    exact (sound.passedOver kept row member asked.1 found.2.1 passed).2 asked
  have confirmed := sound.confirmed
  unfold Answer.Right
  cases result : search.calledBack with
  | withinTimeout next => trivial
  | notCalledback =>
    rw [result] at applies none_before
    exact fun row member found => none_before row member found (applies row member found)
  | calledback uuid start =>
    rw [result] at applies none_before
    obtain ⟨cdr, member, named, begun, asked, inTime⟩ := applies
    have later := confirmed uuid start result
    refine ⟨cdr, ⟨member, ⟨asked, by omega, inTime⟩, fun row other found => ?_⟩, named, begun⟩
    have notBefore : ¬ row.start < start := none_before row other found
    omega

/-- What holds between the two queries of a search. -/
structure Checked (caller : Caller) (time : Int) (rows : List CdrItem) (clock : Int)
    (checking : Checking) : Prop where
  same : checking.caller = caller
  sound : Sound caller time rows clock checking.search
  found : ∀ cdr, checking.calledBackCdr = some cdr → IsFirst
    (Found caller checking.needsToBeAnswered time checking.timeoutTime) checking.rows (some cdr)
  missed : checking.calledBackCdr = none →
    checking.connected = true ∨ checking.timeoutTime < checking.startTime → IsFirst
      (Found caller checking.needsToBeAnswered time checking.timeoutTime) checking.rows none

/-- The start from which a search may be taken up. -/
structure Resumes (caller : Caller) (time : Int) (rows : List CdrItem) (clock : Int)
    (needs : Bool) (startTime timeoutTime : Int) : Prop where
  ahead : ∀ start, clock ≤ start → ¬ (start < startTime ∧ start ≤ timeoutTime)
  behind : ∀ row ∈ rows, Candidate caller row → time ≤ row.start → row.start < startTime →
    row.start ≤ timeoutTime → row.ended ≠ none ∧ ¬ Asked caller needs row
  inside : ∀ row ∈ rows, Found caller needs startTime timeoutTime row → time ≤ row.start

theorem resumes_first {needs : Bool} {timeoutTime : Int} (past : time ≤ clock) :
    Resumes caller time rows clock needs time timeoutTime where
  ahead start later passed := by omega
  behind row _ _ later earlier _ := by omega
  inside row _ found := found.2.1

theorem resumes_cached {needs : Bool} {startTime timeoutTime : Int} {first : First}
    (sound : Sound caller time rows clock search)
    (result : search.calledBack = .withinTimeout startTime)
    (within : startTime ≤ search.timeoutTime)
    (agrees : Agrees caller time rows search needs timeoutTime first) :
    Resumes caller time rows clock needs startTime timeoutTime := by
  obtain ⟨kept, same, applies⟩ := agrees
  obtain ⟨ahead, passedOver, _⟩ := sound
  rw [result] at same applies ahead passedOver
  refine ⟨fun start later both => ahead start later ⟨both.1, by omega⟩, ?_, applies.2⟩
  intro row member candidate later earlier inTime
  have passed : Passed (.withinTimeout startTime) search.timeoutTime row.start :=
    ⟨earlier, by omega⟩
  obtain ⟨settled, notAsked⟩ := passedOver kept row member candidate later passed
  exact ⟨settled, fun asked => notAsked (same row member ⟨asked, later, inTime⟩ passed)⟩

/-- Nothing that the full search finds lies before the start. -/
theorem found_of_full {needs : Bool} {startTime timeoutTime : Int} {row : CdrItem}
    (resumes : Resumes caller time rows clock needs startTime timeoutTime) (member : row ∈ rows)
    (full : Found caller needs time timeoutTime row) :
    Found caller needs startTime timeoutTime row := by
  obtain ⟨asked, later, inTime⟩ := full
  rcases Int.lt_or_le row.start startTime with earlier | after
  · exact absurd asked (resumes.behind row member asked.1 later earlier inTime).2
  · exact ⟨asked, after, inTime⟩

theorem isFirst_full {needs : Bool} {startTime timeoutTime : Int} {first : Option CdrItem}
    (resumes : Resumes caller time rows clock needs startTime timeoutTime)
    (isFirst : IsFirst (Found caller needs startTime timeoutTime) rows first) :
    IsFirst (Found caller needs time timeoutTime) rows first := by
  cases first with
  | none => exact fun row inside full => isFirst row inside (found_of_full resumes inside full)
  | some cdr =>
    obtain ⟨member, found, least⟩ := isFirst
    refine ⟨member, ⟨found.1, resumes.inside cdr member found, found.2.2⟩, ?_⟩
    exact fun row inside full => least row inside (found_of_full resumes inside full)

/-- The first query, from a start that the search may be taken up from, finds what the full
    search does. -/
theorem query_checked {needs connected : Bool} {startTime timeoutTime : Int}
    {first : Option CdrItem} (clocked : ∀ row ∈ rows, row.start ≤ clock)
    (resumes : Resumes caller time rows clock needs startTime timeoutTime)
    (queried : connected = true →
      IsFirst (Found caller needs startTime timeoutTime) rows first)
    (unconnected : connected = false → first = none) :
    Checked caller time rows clock
      ⟨caller, needs, timeoutTime, startTime, connected, first, false, rows⟩ := by
  cases first with
  | some cdr =>
    have connected : connected = true := by
      cases connected with
      | true => rfl
      | false => cases unconnected rfl
    obtain ⟨member, ⟨_, later, inTime⟩, least⟩ := isFirst_full resumes (queried connected)
    have started := clocked cdr member
    refine ⟨rfl, ⟨?_, ?_, ?_⟩, ?_, nofun⟩
    · intro start after passed
      have : start < cdr.start := passed
      omega
    · intro _ row inside candidate after passed
      have earlier : row.start < cdr.start := passed
      refine ⟨trivial, fun asked => ?_⟩
      have := least row inside ⟨asked, after, by omega⟩
      omega
    · rintro uuid start ⟨⟩
      exact later
    · rintro other ⟨⟩
      exact isFirst_full resumes (queried connected)
  | none =>
    refine ⟨rfl, ⟨resumes.ahead, ?_, nofun⟩, nofun, ?_⟩
    · intro _ row inside candidate after passed
      exact resumes.behind row inside candidate after passed.1 passed.2
    · rintro _ (reached | beyond)
      · exact isFirst_full resumes (queried reached)
      · intro row inside full
        have := (found_of_full resumes inside full).2
        simp only at beyond
        omega

theorem sound_next {next : Int}
    (ahead : ∀ start, clock ≤ start → ¬ (start < next ∧ start ≤ search.timeoutTime))
    (behind : search.overtaken = false → ∀ row ∈ rows, Candidate caller row →
      time ≤ row.start → row.start < next → row.start ≤ search.timeoutTime →
        row.ended ≠ none ∧ ¬ Asked caller search.needsToBeAnswered row) :
    Sound caller time rows clock { search with
      calledBack :=
        if next > search.timeoutTime then .notCalledback else .withinTimeout next } := by
  split
  · refine ⟨fun start after passed => ?_, ?_, nofun⟩
    · have inTime : start ≤ search.timeoutTime := passed
      exact ahead start after ⟨by omega, inTime⟩
    · intro kept row member candidate later passed
      have inTime : row.start ≤ search.timeoutTime := passed
      exact behind kept row member candidate later (by omega) inTime
  · refine ⟨ahead, ?_, nofun⟩
    intro kept row member candidate later passed
    exact behind kept row member candidate later passed.1 passed.2

/-- The next start lies ten seconds before now, and before every call that an answered query
    finds not to have ended. -/
theorem next_le {checking : Checking} {unfinished : Option CdrItem} {answered : Bool}
    (clocked : ∀ row ∈ rows, row.start ≤ clock)
    (connected : checking.connected = true)
    (queried : Queried (Unfinished checking.caller checking.startTime checking.timeoutTime) rows
      answered unfinished) :
    nextQueryStartTime checking clock unfinished ≤ clock - 10 * SECOND ∧
      (answered = true → ∀ row ∈ rows,
        Unfinished checking.caller checking.startTime checking.timeoutTime row →
          nextQueryStartTime checking clock unfinished ≤ row.start - 10 * SECOND) := by
  unfold nextQueryStartTime
  rw [connected]
  cases answered with
  | false =>
    have nothing : unfinished = none := queried
    subst nothing
    exact ⟨Int.le_refl _, nofun⟩
  | true =>
    have first : IsFirst (Unfinished checking.caller checking.startTime checking.timeoutTime) rows
        unfinished := queried
    cases unfinished with
    | none => exact ⟨Int.le_refl _, fun _ row member goesOn => absurd goesOn (first row member)⟩
    | some cdr =>
      obtain ⟨known, _, least⟩ := first
      have started := clocked cdr known
      refine ⟨Int.sub_le_sub_right started _, fun _ row member goesOn => ?_⟩
      exact Int.sub_le_sub_right (least row member goesOn) _

theorem behind_next {checking : Checking} {unfinished : Option CdrItem} {answered : Bool}
    (clocked : ∀ row ∈ rows, row.start ≤ clock)
    (connected : checking.connected = true)
    (queried : Queried (Unfinished checking.caller checking.startTime checking.timeoutTime) rows
      answered unfinished)
    (skipped : NothingSkipped checking rows clock answered) {row : CdrItem} (member : row ∈ rows)
    (candidate : Candidate checking.caller row) (later : checking.startTime ≤ row.start)
    (earlier : row.start < nextQueryStartTime checking clock unfinished)
    (inTime : row.start ≤ checking.timeoutTime) :
    row.ended ≠ none ∧ ¬ Asked checking.caller checking.needsToBeAnswered row := by
  obtain ⟨held, ended⟩ := skipped
  obtain ⟨past, before⟩ := next_le clocked connected queried
  have span : SECOND = 1000000 := rfl
  constructor
  · intro goesOn
    have unended : Unfinished checking.caller checking.startTime checking.timeoutTime row :=
      ⟨candidate.1, goesOn, later, inTime⟩
    cases answered with
    | true =>
      have := before rfl row member unended
      omega
    | false =>
      have := ended rfl row member candidate unended
      omega
  · intro asked
    obtain ⟨heard, other, inside, unended, holds⟩ :=
      held row member ⟨asked, later, inTime⟩ (by omega)
    have := before heard other inside unended
    omega

theorem concluded_sound {checking : Checking} {second : Second}
    (clocked : ∀ row ∈ rows, row.start ≤ clock)
    (checked : Checked caller time rows clock checking)
    (queried : checking.calledBackCdr = none → checking.connected = true →
      Queried (Unfinished checking.caller checking.startTime checking.timeoutTime) rows
        second.answered second.unfinished)
    (skipped : checking.calledBackCdr = none → checking.connected = true →
      NothingSkipped checking rows clock second.answered) :
    Sound caller time rows clock
      { checking.search with calledBack := calledBack checking clock second.unfinished } := by
  obtain ⟨same, sound, _, _⟩ := checked
  unfold calledBack
  cases found : checking.calledBackCdr with
  | some cdr =>
    unfold Checking.search at sound ⊢
    rw [found] at sound
    exact sound
  | none =>
    have result : checking.search.calledBack = .withinTimeout checking.startTime := by
      unfold Checking.search
      rw [found]
    obtain ⟨ahead, behind, _⟩ := sound
    rw [result] at ahead behind
    have passedOver : checking.search.overtaken = false → ∀ row ∈ rows, Candidate caller row →
        time ≤ row.start → row.start < checking.startTime → row.start ≤ checking.timeoutTime →
          row.ended ≠ none ∧ ¬ Asked caller checking.needsToBeAnswered row :=
      fun kept row member candidate later earlier inTime =>
        behind kept row member candidate later ⟨earlier, inTime⟩
    cases connected : checking.connected with
    | false =>
      have next : nextQueryStartTime checking clock second.unfinished = checking.startTime := by
        unfold nextQueryStartTime
        rw [connected]
      rw [next]
      exact sound_next ahead passedOver
    | true =>
      have seen := queried found connected
      have nothing := skipped found connected
      have past := (next_le clocked connected seen).1
      have span : SECOND = 1000000 := rfl
      refine @sound_next caller time rows clock checking.search _ ?_ ?_
      · intro start after both
        omega
      · intro kept row member candidate later earlier inTime
        rcases Int.lt_or_le row.start checking.startTime with old | fresh
        · exact passedOver kept row member candidate later old inTime
        · rw [← same] at candidate ⊢
          exact behind_next clocked connected seen nothing member candidate fresh earlier inTime

theorem concluded_within {checking : Checking} {unfinished : Option CdrItem} {next : Int}
    (result : calledBack checking clock unfinished = .withinTimeout next) :
    next ≤ checking.timeoutTime := by
  unfold calledBack at result
  split at result
  · cases result
  · split at result
    · cases result
    · cases result
      omega

theorem concluded_right {checking : Checking} (unfinished : Option CdrItem)
    (checked : Checked caller time rows clock checking) :
    (Answer.mk checking.rows checking.needsToBeAnswered checking.timeoutTime
      (calledBack checking clock unfinished)).Right caller time := by
  obtain ⟨_, _, found, missed⟩ := checked
  unfold Answer.Right calledBack
  cases first : checking.calledBackCdr with
  | some cdr => exact ⟨cdr, found cdr first, rfl, rfl⟩
  | none =>
    by_cases beyond : nextQueryStartTime checking clock unfinished > checking.timeoutTime
    · simp only [if_pos beyond]
      refine missed first ?_
      unfold nextQueryStartTime at beyond
      cases connected : checking.connected with
      | true => exact Or.inl rfl
      | false =>
        rw [connected] at beyond
        exact Or.inr beyond
    · simp only [if_neg beyond]

end Searches

section Steps
variable {caller : Caller} {time : Int} {state after : State}

structure Kept (caller : Caller) (time : Int) (state : State) : Prop where
  clocked : ∀ row ∈ state.rows, row.start ≤ state.clock
  same : ∀ entry, state.cache = some entry → entry.caller = caller
  sound : ∀ entry, state.cache = some entry →
    Sound caller time state.rows state.clock entry.search
  within : ∀ entry next, state.cache = some entry →
    entry.search.calledBack = .withinTimeout next → next ≤ entry.search.timeoutTime
  checked : ∀ checking, state.checking = some checking →
    Checked caller time state.rows state.clock checking
  right : ∀ answer ∈ state.answers, answer.Right caller time

theorem kept_begins (clock : Int) : Kept caller time (begins clock) where
  clocked := nofun
  same := nofun
  sound := nofun
  within := nofun
  checked _ going := nomatch going
  right := nofun

/-- Rows and time change so that every search stays sound. -/
theorem kept_moves {rows : List CdrItem} {clock : Int} (kept : Kept caller time state)
    (clocked : ∀ row ∈ rows, row.start ≤ clock)
    (each : ∀ search, Sound caller time state.rows state.clock search →
      Sound caller time rows clock search) :
    Kept caller time { state with rows, clock } where
  clocked := clocked
  same := kept.same
  sound entry cached := each _ (kept.sound entry cached)
  within := kept.within
  checked checking going :=
    have checked := kept.checked checking going
    ⟨checked.same, each _ checked.sound, checked.found, checked.missed⟩
  right := kept.right

theorem kept_answers (kept : Kept caller time state) (uuid : Nat) :
    Kept caller time { state with
      rows := state.rows.map (answerRow uuid)
      cache := state.cache.map fun entry => { entry with
        search := { entry.search with
          overtaken := overtakenBy caller time state.rows uuid entry.search } }
      checking := state.checking.map fun checking => { checking with
        overtaken := overtakenBy caller time state.rows uuid checking.search } } where
  clocked row member := by
    obtain ⟨old, inside, rfl⟩ := List.mem_map.mp member
    rw [answerRow_start]
    exact kept.clocked old inside
  same entry cached := by
    obtain ⟨old, before, rfl⟩ := Option.map_eq_some_iff.mp cached
    exact kept.same old before
  sound entry cached := by
    obtain ⟨old, before, rfl⟩ := Option.map_eq_some_iff.mp cached
    exact sound_answers (kept.sound old before)
  within entry next cached := by
    obtain ⟨old, before, rfl⟩ := Option.map_eq_some_iff.mp cached
    exact kept.within old next before
  checked checking going := by
    obtain ⟨old, before, rfl⟩ := Option.map_eq_some_iff.mp going
    have checked := kept.checked old before
    exact ⟨checked.same, sound_answers checked.sound, checked.found, checked.missed⟩
  right := kept.right

theorem kept_query {needs : Bool} {startTime timeoutTime : Int} {first : First}
    (kept : Kept caller time state)
    (resumes : Resumes caller time state.rows state.clock needs startTime timeoutTime)
    (missed : NothingMissed caller startTime state.rows needs timeoutTime first)
    (queried : query caller startTime needs timeoutTime first state = some after) :
    Kept caller time after := by
  unfold query at queried
  split at queried
  · rename_i finds
    cases queried
    have checked : Checked caller time state.rows state.clock ⟨caller, needs, timeoutTime,
        startTime, first.connected, first.calledBackCdr, false, state.rows⟩ := by
      refine query_checked kept.clocked resumes (fun connected => ?_) (fun unconnected => ?_)
      · rw [connected, Bool.true_and] at finds
        cases answered : first.answered with
        | true => rwa [answered] at finds
        | false =>
          rw [answered] at finds
          have nothing : first.calledBackCdr = none := finds
          rw [nothing]
          exact missed connected answered
      · rw [unconnected, Bool.false_and] at finds
        exact finds
    refine ⟨kept.clocked, kept.same, kept.sound, kept.within, ?_, kept.right⟩
    rintro checking ⟨⟩
    exact checked
  · cases queried

theorem kept_conclude {checking : Checking} {second : Second} (kept : Kept caller time state)
    (checked : Checked caller time state.rows state.clock checking)
    (skipped : checking.calledBackCdr = none → checking.connected = true →
      NothingSkipped checking state.rows state.clock second.answered)
    (concluded : conclude checking second state = some after) : Kept caller time after := by
  unfold conclude at concluded
  split at concluded
  · rename_i queried
    cases concluded
    have sound := concluded_sound kept.clocked checked queried skipped
    have cachedOr : ∀ {entry : Entry},
        (if second.stored = true then some (Entry.mk checking.caller { checking.search with
          calledBack := calledBack checking state.clock second.unfinished }) else state.cache) =
            some entry →
          entry = ⟨checking.caller, { checking.search with
            calledBack := calledBack checking state.clock second.unfinished }⟩ ∨
          state.cache = some entry := by
      intro entry cached
      split at cached
      · cases cached
        exact Or.inl rfl
      · exact Or.inr cached
    refine ⟨kept.clocked, ?_, ?_, ?_, (fun _ going => nomatch going), ?_⟩
    · intro entry cached
      rcases cachedOr cached with rfl | old
      · exact checked.same
      · exact kept.same entry old
    · intro entry cached
      rcases cachedOr cached with rfl | old
      · exact sound
      · exact kept.sound entry old
    · intro entry next cached result
      rcases cachedOr cached with rfl | old
      · exact concluded_within result
      · exact kept.within entry next old result
    · intro answer member
      rcases List.mem_cons.mp member with rfl | old
      · exact concluded_right second.unfinished checked
      · exact kept.right answer old
  · cases concluded

end Steps

section Histories
variable {getPhoneNumber : Text → Option PhoneNumber} {record : QueueRecord}

theorem kept_check {needs : Bool} {timeout : Int} {first : First} {state after : State}
    (kept : Kept (record.caller getPhoneNumber) record.time state)
    (past : record.time ≤ state.clock)
    (guarded : Guarded getPhoneNumber record state (.checks needs timeout first))
    (checked : check getPhoneNumber record needs timeout first state = some after) :
    Kept (record.caller getPhoneNumber) record.time after := by
  simp only [Guarded] at guarded
  unfold check at checked
  cases seen : (if first.seen then state.cache else none) with
  | none =>
    rw [seen] at guarded checked
    simp only at checked
    split at checked
    · rename_i known
      exact kept_query kept (resumes_first past) (guarded known) checked
    · cases checked
      exact kept
  | some entry =>
    rw [seen] at guarded checked
    have cached : state.cache = some entry := by
      split at seen
      · exact seen
      · cases seen
    have same := kept.same entry cached
    have sound := kept.sound entry cached
    have agrees : Agrees entry.caller record.time state.rows entry.search needs
        (record.timeoutTime timeout) first := guarded
    rw [same] at agrees
    simp only at checked
    split at checked
    · rename_i startTime result
      have applies := agrees.2.2
      rw [result] at applies
      rw [same] at checked
      exact kept_query kept
        (resumes_cached sound result (kept.within entry startTime cached result) agrees)
        applies.1 checked
    · cases checked
      refine ⟨kept.clocked, kept.same, kept.sound, kept.within, kept.checked, ?_⟩
      intro answer member
      rcases List.mem_cons.mp member with rfl | old
      · exact right_of_agrees sound agrees
      · exact kept.right answer old

theorem kept_step {state after : State} {event : Event}
    (kept : Kept (record.caller getPhoneNumber) record.time state)
    (guarded : Guarded getPhoneNumber record state event)
    (stepped : step getPhoneNumber record state event = some after) :
    Kept (record.caller getPhoneNumber) record.time after := by
  cases event with
  | starts row =>
    simp only [step] at stepped
    split at stepped
    · rename_i fresh
      cases stepped
      refine kept_moves kept (fun other member => ?_) (fun search sound => ?_)
      · rcases List.mem_cons.mp member with rfl | old
        · exact Int.le_of_eq fresh.1
        · exact kept.clocked other old
      · exact sound_starts sound fresh.1
    · cases stepped
  | answers uuid =>
    cases stepped
    exact kept_answers kept uuid
  | ends uuid ended =>
    cases stepped
    refine kept_moves kept (fun row member => ?_) (fun search sound => sound_ends sound)
    obtain ⟨old, inside, rfl⟩ := List.mem_map.mp member
    rw [endRow_start]
    exact kept.clocked old inside
  | ticks span =>
    cases stepped
    refine kept_moves kept (fun row member => ?_) (fun search sound => sound_ticks sound (by omega))
    have := kept.clocked row member
    omega
  | checks needs timeout first =>
    simp only [step] at stepped
    split at stepped
    · rename_i idle
      exact kept_check kept idle.2 guarded stepped
    · cases stepped
  | concludes second =>
    simp only [step] at stepped
    obtain ⟨checking, going, concluded⟩ := Option.bind_eq_some_iff.mp stepped
    exact kept_conclude kept (kept.checked checking going) (guarded checking going) concluded
  | lost =>
    cases stepped
    exact ⟨kept.clocked, kept.same, kept.sound, kept.within, (fun _ going => nomatch going),
      kept.right⟩
  | expires =>
    cases stepped
    exact ⟨kept.clocked, nofun, nofun, nofun, kept.checked, kept.right⟩

theorem search_agrees {clock : Int} {last : State}
    (run : Run (step getPhoneNumber record) (Guarded getPhoneNumber record) (begins clock) last) :
    ∀ answer ∈ last.answers, answer.Right (record.caller getPhoneNumber) record.time := by
  have kept := run_keeps (Kept (record.caller getPhoneNumber) record.time) (kept_begins clock)
    (fun _ _ _ kept guarded stepped => kept_step kept guarded stepped) run
  exact kept.right

/-- A queue record of a caller whose number is written in one way. -/
def hungUp : QueueRecord := ⟨0, some 0, ['a'], ['0', '1']⟩

def unread (_ : Text) : Option PhoneNumber := none

def ringing : CdrItem := ⟨1, ['a'], 100 * SECOND, none, none, some OUTBOUND, some ['0', '1']⟩

def answered : CdrItem :=
  { ringing with ended := some (300 * SECOND), disposition := some ANSWERED }

def heldBack : List Event :=
  [.ticks 100000000, .starts ringing, .ticks 100000000,
    .checks true 3600 ⟨true, true, true, true, none⟩, .concludes ⟨true, some ringing, true⟩,
    .answers 1, .ticks 100000000, .ends 1 (300 * SECOND),
    .checks true 3600 ⟨true, true, true, true, some answered⟩, .concludes ⟨true, none, true⟩,
    .checks true 3600 ⟨true, true, true, true, none⟩]

/-- The call that rang at the first search is found by the second. -/
theorem heldBack_agrees : ∃ last,
    Run (step unread hungUp) (Guarded unread hungUp) (begins 0) last ∧
      last.answers.map Answer.calledBack = [.calledback 1 (100 * SECOND),
        .calledback 1 (100 * SECOND), .withinTimeout (90 * SECOND)] ∧
      ∀ answer ∈ last.answers, answer.Right (hungUp.caller unread) hungUp.time := by
  obtain ⟨last, ran, results⟩ : ∃ last,
      runWhere (step unread hungUp) (fun state event => decide (Guarded unread hungUp state event))
        (begins 0) heldBack = some last ∧
      last.answers.map Answer.calledBack = [.calledback 1 (100 * SECOND),
        .calledback 1 (100 * SECOND), .withinTimeout (90 * SECOND)] :=
    Option.map_eq_some_iff.mp (by decide)
  have run : Run (step unread hungUp) (Guarded unread hungUp) (begins 0) last :=
    run_of_runWhere (fun _ _ => of_decide_eq_true) heldBack ran
  exact ⟨last, run, results, search_agrees run⟩

def asksTwice : List Event :=
  [.ticks 100000000, .starts ringing, .ticks 100000000,
    .checks false 60 ⟨true, true, true, true, none⟩, .concludes ⟨true, none, true⟩,
    .checks false 3600 ⟨true, true, true, true, none⟩]

/-- No call within a minute is cached as none at all, and is what is answered for an hour. -/
theorem short_timeout_confirmed : ¬ ∀ getPhoneNumber record clock last,
    Reaches (step getPhoneNumber record) (begins clock) last →
      ∀ answer ∈ last.answers, answer.Right (record.caller getPhoneNumber) record.time := by
  intro agrees
  obtain ⟨last, ran, answers⟩ : ∃ last,
      runAll (step unread hungUp) (begins 0) asksTwice = some last ∧ last.answers =
        [⟨[ringing], false, 3600 * SECOND, .notCalledback⟩,
          ⟨[ringing], false, 60 * SECOND, .notCalledback⟩] :=
    Option.map_eq_some_iff.mp (by decide)
  have right := agrees unread hungUp 0 last (reaches_of_runAll asksTwice ran)
    ⟨[ringing], false, 3600 * SECOND, .notCalledback⟩ (by rw [answers]; exact List.mem_cons_self)
  exact right ringing List.mem_cons_self (by decide)

end Histories
end CallbackSearch
