import Mathlib.Data.Prod.Lex
import Mathlib.Logic.Function.Basic
import Nebula.Lib.EntryStream
import Nebula.Lib.Runs

/- Digits that are collected while a sound is played: three listeners on one stream of events, of
   which the first that hears what it waits for stops the others. -/
namespace DtmfCollection
open EntryStream

section Model

/-- Milliseconds and a counter. -/
abbrev Id := ℕ ×ₗ ℕ

def Id.of (millis counter : ℕ) : Id := toLex (millis, counter)

/-- The events that are listened for; the others are told from them. -/
inductive ChannelEvent where
  | dtmf
  | soundEnd
  | hangup
  | other
  deriving DecidableEq

structure Entry where
  id : Id
  event : ChannelEvent
  value : String
  deriving DecidableEq

/-- The id that Redis gives to a new entry. -/
def nextId (now : ℕ) (stream : List Entry) : Id :=
  match stream.getLast? with
  | none => Id.of now 0
  | some last =>
    if (ofLex last.id).1 < now then Id.of now 0
    else Id.of (ofLex last.id).1 ((ofLex last.id).2 + 1)

/-- A branch of the select that listens: not at all, before the next read, or reading the entries
    after an id. No key stands for "$". -/
inductive Listener where
  | off
  | idle (key : Option Id)
  | reading (key : Option Id) (last : Id)
  deriving DecidableEq

inductive Branch where
  | dtmf
  | soundEnd
  | hangup
  deriving DecidableEq

def Branch.event : Branch → ChannelEvent
  | .dtmf => .dtmf
  | .soundEnd => .soundEnd
  | .hangup => .hangup

inductive Reason where
  | hash
  | full
  | timeout
  | hangup
  deriving DecidableEq

/-- The two loops, and why the digits were returned. -/
inductive Phase where
  | first
  | second
  | returned (reason : Reason)
  deriving DecidableEq

/-- How long the stream was as the digits were listened for first is no part of the code. -/
structure State where
  now : ℕ
  stream : List Entry
  isHangup : Bool
  eventKey : Option Id
  digits : List String
  soundEnded : Bool
  phase : Phase
  listeners : Branch → Listener
  begun : Option ℕ

variable (max : ℕ) (soundId : String) (state : State)

/-- The select begins anew with what is listened for. -/
def State.select : State :=
  { state with
    listeners := fun
      | .dtmf => .idle state.eventKey
      | .soundEnd => if state.phase = .first ∧ ¬state.soundEnded then .idle none else .off
      | .hangup => .idle (some (Id.of 0 0)) }

def State.finish (reason : Reason) : State :=
  { state with phase := .returned reason, listeners := fun _ => .off }

def State.setListener (branch : Branch) (listener : Listener) : State :=
  { state with listeners := Function.update state.listeners branch listener }

def State.start (now : ℕ) (soundEnded : Bool) : State :=
  State.select
    { now, stream := [], isHangup := false, eventKey := none, digits := [], soundEnded
      phase := .first, listeners := fun _ => .off, begun := none }

/-- Both loops do the same with a digit. -/
def takeDigit (entry : Entry) : State :=
  let state := { state with eventKey := some entry.id }
  if entry.value = "#" then state.finish .hash
  else
    let state := { state with digits := state.digits ++ [entry.value] }
    if state.digits.length ≥ max then state.finish .full
    else ({ state with phase := .second } : State).select

/-- receive_event has found its event. -/
def completed (branch : Branch) (entry : Entry) : State :=
  match branch with
  | .dtmf => takeDigit max state entry
  | .soundEnd =>
    ({ state with soundEnded := state.soundEnded || entry.value = soundId } : State).select
  | .hangup => state.finish .hangup

/-- receive_event has failed: a branch that waits for success is off until the select begins
    anew. -/
def failed (branch : Branch) : State :=
  match branch with
  | .dtmf => if state.phase = .second then state.select else state.setListener .dtmf .off
  | .soundEnd => state.setListener .soundEnd .off
  | .hangup => state.finish .hangup

inductive Event where
  | passed (millis : ℕ)
  | arrived (event : ChannelEvent) (value : String)
  | hungUp
  | listen (branch : Branch)
  | entry (branch : Branch)
  | noEntry (branch : Branch)
  | elapsed

/-- Reads of the entries after the key; "$" stands for the time as the read begins. -/
def listen (branch : Branch) : Option State :=
  match state.listeners branch with
  | .idle key =>
    some { state.setListener branch (.reading key (key.getD (Id.of state.now 0))) with
      begun := if branch = .dtmf then some (state.begun.getD state.stream.length)
        else state.begun }
  | _ => none

def readEntry (branch : Branch) : Option State :=
  match state.listeners branch with
  | .reading _ last =>
    match firstAfter Entry.id state.stream last with
    | none => none
    | some entry =>
      if entry.event = branch.event then some (completed max soundId state branch entry)
      else some (state.setListener branch (.idle (some entry.id)))
  | _ => none

/-- A read that finds no entry in time is begun anew with the same key. -/
def readNothing (branch : Branch) : Option State :=
  match state.listeners branch with
  | .reading key last =>
    if (firstAfter Entry.id state.stream last).isSome then none
    else if state.isHangup then some (failed state branch)
    else some (state.setListener branch (.idle key))
  | _ => none

def elapse : Option State :=
  match state.phase with
  | .first => if state.soundEnded then some (state.finish .timeout) else none
  | .second => some (state.finish .timeout)
  | .returned _ => none

def machine : Runs.Machine State Event := fun state event =>
  match event with
  | .passed millis => some { state with now := state.now + millis }
  | .arrived event value =>
    some { state with stream := state.stream ++ [⟨nextId state.now state.stream, event, value⟩] }
  | .hungUp => some { state with isHangup := true }
  | .listen branch => listen state branch
  | .entry branch => readEntry max soundId state branch
  | .noEntry branch => readNothing state branch
  | .elapsed => elapse state

end Model

section Claimed

def dtmfs (entries : List Entry) : List Entry := entries.filter fun entry => entry.event = .dtmf

/-- The digits that have arrived since they are listened for. -/
def arrived (state : State) : List Entry :=
  dtmfs (state.stream.drop (state.begun.getD state.stream.length))

/-- The digits that a read of the entries after an id would find. -/
def ahead (state : State) (last : Id) : List Entry := dtmfs (after Entry.id state.stream last)

structure Collected (max : ℕ) (state : State) : Prop where
  inOrder : state.digits <+: ((arrived state).map Entry.value).takeWhile (· ≠ "#")
  full : state.phase = .returned .full → state.digits.length = max

/-- A read from the time finds the digits that have arrived since they are listened for, and a
    digit that arrives during a read has an id after its. -/
def Heard : Runs.Guard State Event := fun state event =>
  match event with
  | .listen .dtmf => state.listeners .dtmf = .idle none →
    ahead state (Id.of state.now 0) = arrived state
  | .arrived .dtmf _ => ∀ key last, state.listeners .dtmf = .reading key last →
    last < nextId state.now state.stream
  | _ => True

end Claimed

section Ids
variable {now : ℕ} {stream : List Entry}

theorem of_lt_of {millis counter later second : ℕ} :
    Id.of millis counter < Id.of later second ↔
      millis < later ∨ millis = later ∧ counter < second :=
  Prod.Lex.toLex_lt_toLex

theorem last_lt_nextId {last : Entry} (found : stream.getLast? = some last) :
    last.id < nextId now stream := by
  have own : last.id = Id.of (ofLex last.id).1 (ofLex last.id).2 := rfl
  unfold nextId
  rw [found, own]
  simp only
  split
  · exact of_lt_of.mpr (Or.inl ‹_›)
  · exact of_lt_of.mpr (Or.inr ⟨rfl, Nat.lt_succ_self _⟩)

/-- A new entry is the newest. -/
theorem lt_nextId (ascending : Ascending Entry.id stream) :
    ∀ entry ∈ stream, entry.id < nextId now stream := by
  intro entry member
  cases found : stream.getLast? with
  | none =>
    rw [List.getLast?_eq_none_iff.mp found] at member
    cases member
  | some last =>
    obtain ⟨earlier, shape⟩ := List.getLast?_eq_some_iff.mp found
    have newest := @last_lt_nextId now stream last found
    rw [shape] at member ascending
    rcases List.mem_append.mp member with before | own
    · have order := (List.pairwise_append.mp ascending).2.2 entry before last
        (List.mem_singleton_self last)
      exact lt_trans order newest
    · rw [List.mem_singleton.mp own]
      exact newest

end Ids

section Listening
variable {max : ℕ} {soundId : String} {state after : State} {taken : List Entry}

/-- What has arrived is what was taken and what lies after an id. -/
structure Left (state : State) (taken : List Entry) (last : Id) : Prop where
  begun : state.begun.isSome
  split : arrived state = taken ++ ahead state last

/-- A key is that of the last entry that was read, if any was. -/
def Place (state : State) (taken : List Entry) : Option Id → Prop
  | none => taken = []
  | some key => Known Entry.id state.stream key ∧ Left state taken key

def Hearing (state : State) (taken : List Entry) : Listener → Prop
  | .off => True
  | .idle key => Place state taken key
  | .reading key last => Place state taken key ∧ Left state taken last

theorem Left.same {other : State} {last : Id} (left : Left state taken last)
    (stream : other.stream = state.stream) (begun : other.begun = state.begun) :
    Left other taken last := by
  refine ⟨begun ▸ left.begun, ?_⟩
  have split := left.split
  unfold arrived ahead at split ⊢
  rw [stream, begun]
  exact split

theorem Place.same {other : State} {key : Option Id} (place : Place state taken key)
    (stream : other.stream = state.stream) (begun : other.begun = state.begun) :
    Place other taken key := by
  cases key with
  | none => exact place
  | some key => exact ⟨stream ▸ place.1, place.2.same stream begun⟩

theorem Hearing.same {other : State} {listener : Listener} (hearing : Hearing state taken listener)
    (stream : other.stream = state.stream) (begun : other.begun = state.begun) :
    Hearing other taken listener := by
  cases listener with
  | off => trivial
  | idle key => exact Place.same hearing stream begun
  | reading key last => exact ⟨hearing.1.same stream begun, hearing.2.same stream begun⟩

/-- The digits are those of the entries that were taken. -/
structure Told (state : State) (taken : List Entry) : Prop where
  digits : state.digits = taken.map Entry.value
  plain : ∀ entry ∈ taken, entry.value ≠ "#"

structure Working (max : ℕ) (state : State) (taken : List Entry) : Prop where
  told : Told state taken
  short : state.digits.length < max
  place : Place state taken state.eventKey
  hearing : Hearing state taken (state.listeners .dtmf)

structure Ended (max : ℕ) (state : State) (taken : List Entry) : Prop where
  told : Told state taken
  inOrder : taken <+: arrived state
  full : state.phase = .returned .full → state.digits.length = max
  silent : ∀ branch, state.listeners branch = .off

structure Stored (state : State) : Prop where
  ascending : Ascending Entry.id state.stream
  begun : ∀ length ∈ state.begun, length ≤ state.stream.length

structure Sync (max : ℕ) (state : State) : Prop where
  stored : Stored state
  course : ∃ taken, (∀ reason, state.phase ≠ .returned reason) ∧ Working max state taken ∨
    (∃ reason, state.phase = .returned reason) ∧ Ended max state taken

theorem place_inOrder {key : Option Id} (place : Place state taken key) :
    taken <+: arrived state := by
  cases key with
  | none =>
    rw [show taken = [] from place]
    exact List.nil_prefix
  | some key => exact ⟨_, place.2.split.symm⟩

theorem collected_of_told (told : Told state taken) (inOrder : taken <+: arrived state) :
    state.digits <+: ((arrived state).map Entry.value).takeWhile (· ≠ "#") := by
  obtain ⟨rest, whole⟩ := inOrder
  rw [← whole, List.map_append, told.digits, List.takeWhile_append_of_pos]
  · exact List.prefix_append _ _
  · intro value member
    obtain ⟨entry, inside, rfl⟩ := List.mem_map.mp member
    simpa using told.plain entry inside

theorem Sync.collected (sync : Sync max state) : Collected max state := by
  obtain ⟨taken, ⟨running, working⟩ | ⟨_, ended⟩⟩ := sync.course
  · exact ⟨collected_of_told working.told (place_inOrder working.place),
      fun returned => absurd returned (running _)⟩
  · exact ⟨collected_of_told ended.told ended.inOrder, ended.full⟩

theorem finish_sync (stored : Stored state) {reason : Reason} (told : Told state taken)
    (inOrder : taken <+: arrived state) (full : reason = .full → state.digits.length = max) :
    Sync max (state.finish reason) := by
  refine ⟨⟨stored.ascending, stored.begun⟩, taken, Or.inr ⟨⟨reason, rfl⟩, ?_⟩⟩
  refine ⟨⟨told.digits, told.plain⟩, inOrder, fun returned => ?_, fun _ => rfl⟩
  exact full (Phase.returned.inj returned)

theorem select_sync (stored : Stored state) (running : ∀ reason, state.phase ≠ .returned reason)
    (told : Told state taken) (short : state.digits.length < max)
    (place : Place state taken state.eventKey) : Sync max state.select :=
  ⟨⟨stored.ascending, stored.begun⟩, taken, Or.inl ⟨running,
    ⟨told.digits, told.plain⟩, short, place.same rfl rfl, place.same rfl rfl⟩⟩

/-- A digit that is read is the next of those that have arrived. -/
theorem left_digit {last : Id} {entry : Entry} (ascending : Ascending Entry.id state.stream)
    (left : Left state taken last)
    (found : firstAfter Entry.id state.stream last = some entry) (digit : entry.event = .dtmf) :
    Left state (taken ++ [entry]) entry.id := by
  refine ⟨left.begun, ?_⟩
  rw [left.split, List.append_assoc, ahead, after_firstAfter ascending found, dtmfs,
    List.filter_cons_of_pos (by simpa using digit)]
  rfl

theorem left_other {last : Id} {entry : Entry} (ascending : Ascending Entry.id state.stream)
    (left : Left state taken last)
    (found : firstAfter Entry.id state.stream last = some entry) (other : entry.event ≠ .dtmf) :
    Left state taken entry.id := by
  refine ⟨left.begun, ?_⟩
  rw [left.split, ahead, after_firstAfter ascending found, dtmfs,
    List.filter_cons_of_neg (by simpa using other)]
  rfl

theorem takeDigit_sync {entry : Entry} (stored : Stored state) (told : Told state taken)
    (short : state.digits.length < max) (member : entry ∈ state.stream)
    (left : Left state (taken ++ [entry]) entry.id) : Sync max (takeDigit max state entry) := by
  have before : taken <+: arrived state := by
    refine ⟨entry :: ahead state entry.id, ?_⟩
    rw [left.split, List.append_assoc]
    rfl
  unfold takeDigit
  by_cases hash : entry.value = "#"
  · simp only [if_pos hash]
    refine @finish_sync max { state with eventKey := some entry.id } taken
      ⟨stored.ascending, stored.begun⟩ .hash ⟨told.digits, told.plain⟩ before ?_
    rintro ⟨⟩
  · simp only [if_neg hash]
    have toldMore : (state.digits ++ [entry.value]) = (taken ++ [entry]).map Entry.value := by
      rw [told.digits, List.map_append]
      rfl
    have plainMore : ∀ other ∈ taken ++ [entry], other.value ≠ "#" := by
      intro other inside
      rcases List.mem_append.mp inside with earlier | own
      · exact told.plain other earlier
      · rw [List.mem_singleton.mp own]
        exact hash
    let next : State :=
      { state with eventKey := some entry.id, digits := state.digits ++ [entry.value] }
    by_cases full : (state.digits ++ [entry.value]).length ≥ max
    · rw [if_pos full]
      refine @finish_sync max next _ ⟨stored.ascending, stored.begun⟩ .full
        ⟨toldMore, plainMore⟩ ⟨_, left.split.symm⟩ fun _ => ?_
      refine Nat.le_antisymm ?_ full
      rw [List.length_append]
      exact short
    · rw [if_neg full]
      exact @select_sync max { next with phase := .second } _
        ⟨stored.ascending, stored.begun⟩ nofun ⟨toldMore, plainMore⟩
        (Nat.lt_of_not_le full) ⟨⟨entry, member, rfl⟩, ⟨left.begun, left.split⟩⟩

/-- A listener of another branch goes on. -/
theorem aside_sync (sync : Sync max state) {branch : Branch} (other : branch ≠ .dtmf)
    {listener : Listener} (on : state.listeners branch ≠ .off) :
    Sync max (state.setListener branch listener) := by
  refine ⟨⟨sync.stored.ascending, sync.stored.begun⟩, ?_⟩
  obtain ⟨taken, ⟨running, working⟩ | ⟨_, ended⟩⟩ := sync.course
  · refine ⟨taken, Or.inl ⟨running, ⟨working.told.digits, working.told.plain⟩, working.short,
      working.place.same rfl rfl, ?_⟩⟩
    have same : (state.setListener branch listener).listeners .dtmf = state.listeners .dtmf :=
      Function.update_of_ne other.symm _ _
    rw [same]
    exact working.hearing.same rfl rfl
  · exact absurd (ended.silent branch) on

theorem Sync.working (sync : Sync max state) {branch : Branch}
    (on : state.listeners branch ≠ .off) :
    ∃ taken, (∀ reason, state.phase ≠ .returned reason) ∧ Working max state taken := by
  obtain ⟨taken, ⟨running, working⟩ | ⟨_, ended⟩⟩ := sync.course
  · exact ⟨taken, running, working⟩
  · exact absurd (ended.silent branch) on

/-- The listener for digits goes on. -/
theorem digit_sync (stored : Stored state) (running : ∀ reason, state.phase ≠ .returned reason)
    (working : Working max state taken) {listener : Listener}
    (hearing : Hearing state taken listener) : Sync max (state.setListener .dtmf listener) := by
  refine ⟨⟨stored.ascending, stored.begun⟩, taken, Or.inl ⟨running,
    ⟨working.told.digits, working.told.plain⟩, working.short, working.place.same rfl rfl, ?_⟩⟩
  have own : (state.setListener .dtmf listener).listeners .dtmf = listener := by
    simp [State.setListener]
  rw [own]
  exact hearing.same rfl rfl

theorem Sync.same (sync : Sync max state) {other : State} (stream : other.stream = state.stream)
    (begun : other.begun = state.begun) (digits : other.digits = state.digits)
    (key : other.eventKey = state.eventKey) (phase : other.phase = state.phase)
    (listeners : other.listeners = state.listeners) : Sync max other := by
  refine ⟨⟨stream ▸ sync.stored.ascending, ?_⟩, ?_⟩
  · rw [stream, begun]
    exact sync.stored.begun
  · obtain ⟨taken, ⟨running, working⟩ | ⟨returned, ended⟩⟩ := sync.course
    · refine ⟨taken, Or.inl ⟨fun reason => phase ▸ running reason,
        ⟨digits ▸ working.told.digits, working.told.plain⟩, digits ▸ working.short, ?_, ?_⟩⟩
      · rw [key]
        exact working.place.same stream begun
      · rw [listeners]
        exact working.hearing.same stream begun
    · refine ⟨taken, Or.inr ⟨phase ▸ returned, ⟨digits ▸ ended.told.digits, ended.told.plain⟩, ?_,
        ?_, listeners ▸ ended.silent⟩⟩
      · have inOrder := ended.inOrder
        unfold arrived at inOrder ⊢
        rw [stream, begun]
        exact inOrder
      · rw [phase, digits]
        exact ended.full

/-- One entry more. -/
def State.arrive (state : State) (event : ChannelEvent) (value : String) : State :=
  { state with stream := state.stream ++ [⟨nextId state.now state.stream, event, value⟩] }

theorem arrive_stream (event : ChannelEvent) (value : String) :
    (state.arrive event value).stream =
      state.stream ++ [⟨nextId state.now state.stream, event, value⟩] := rfl

theorem dtmfs_append (first second : List Entry) :
    dtmfs (first ++ second) = dtmfs first ++ dtmfs second := List.filter_append _ _

theorem arrived_arrive (stored : Stored state) (begun : state.begun.isSome)
    (event : ChannelEvent) (value : String) : arrived (state.arrive event value) =
      arrived state ++ dtmfs [⟨nextId state.now state.stream, event, value⟩] := by
  obtain ⟨length, shape⟩ := Option.isSome_iff_exists.mp begun
  have inside := stored.begun length shape
  unfold arrived State.arrive
  simp only [shape, Option.getD_some]
  rw [List.drop_append_of_le_length inside, dtmfs, List.filter_append]
  rfl

theorem arrived_grows (stored : Stored state) (event : ChannelEvent) (value : String) :
    arrived state <+: arrived (state.arrive event value) := by
  cases shape : state.begun with
  | none =>
    have nothing : arrived state = [] := by simp [arrived, shape, dtmfs]
    rw [nothing]
    exact List.nil_prefix
  | some length =>
    rw [arrived_arrive stored (by rw [shape]; rfl)]
    exact List.prefix_append _ _

theorem left_arrives {last : Id} (stored : Stored state) (left : Left state taken last)
    {event : ChannelEvent} (value : String)
    (newer : event = .dtmf → last < nextId state.now state.stream) :
    Left (state.arrive event value) taken last := by
  refine ⟨left.begun, ?_⟩
  rw [arrived_arrive stored left.begun, left.split, List.append_assoc]
  congr 1
  unfold ahead
  rw [arrive_stream, after_append, dtmfs_append]
  congr 1
  by_cases digit : event = .dtmf
  · have ahead_ := @after_cons_of_lt _ _ _ Entry.id
      ⟨nextId state.now state.stream, event, value⟩ last (newer digit) []
    rw [ahead_]
    rfl
  · rw [after, List.filter_cons]
    split <;> simp [dtmfs, digit]

theorem place_arrives {key : Option Id} (stored : Stored state) (place : Place state taken key)
    (event : ChannelEvent) (value : String) : Place (state.arrive event value) taken key := by
  cases key with
  | none => exact place
  | some key =>
    refine ⟨known_append place.1 _, left_arrives stored place.2 value fun _ => ?_⟩
    obtain ⟨entry, member, rfl⟩ := place.1
    exact lt_nextId stored.ascending entry member

theorem arrive_stored (stored : Stored state) (event : ChannelEvent) (value : String) :
    Stored (state.arrive event value) := by
  refine ⟨ascending_append_one stored.ascending (lt_nextId stored.ascending), ?_⟩
  intro length shape
  refine Nat.le_trans (stored.begun length shape) ?_
  rw [State.arrive, List.length_append]
  exact Nat.le_add_right _ _

theorem arrive_sync (sync : Sync max state) (event : ChannelEvent) (value : String)
    (heard : Heard state (.arrived event value)) : Sync max (state.arrive event value) := by
  refine ⟨arrive_stored sync.stored event value, ?_⟩
  obtain ⟨taken, ⟨running, working⟩ | ⟨returned, ended⟩⟩ := sync.course
  · refine ⟨taken, Or.inl ⟨running, ⟨working.told.digits, working.told.plain⟩, working.short,
      place_arrives sync.stored working.place event value, ?_⟩⟩
    have hearing := working.hearing
    cases listener : state.listeners .dtmf with
    | off =>
      rw [State.arrive, listener]
      trivial
    | idle key =>
      rw [listener] at hearing
      rw [State.arrive, listener]
      exact place_arrives sync.stored hearing event value
    | reading key last =>
      rw [listener] at hearing
      rw [State.arrive, listener]
      refine ⟨place_arrives sync.stored hearing.1 event value,
        left_arrives sync.stored hearing.2 value ?_⟩
      rintro rfl
      exact heard key last listener
  · exact ⟨taken, Or.inr ⟨returned, ⟨ended.told.digits, ended.told.plain⟩,
      ended.inOrder.trans (arrived_grows sync.stored event value), ended.full, ended.silent⟩⟩

/-- The first read for digits marks the time from which they count. -/
theorem listen_sync (sync : Sync max state) {branch : Branch}
    (heard : Heard state (.listen branch)) (stepped : listen state branch = some after) :
    Sync max after := by
  unfold listen at stepped
  split at stepped
  · rename_i key listener
    cases stepped
    have on : state.listeners branch ≠ .off := by
      rw [listener]
      nofun
    by_cases digit : branch = .dtmf
    · subst digit
      obtain ⟨taken, running, working⟩ := sync.working on
      have hearing := working.hearing
      rw [listener] at hearing
      let marked : State := { state with begun := some (state.begun.getD state.stream.length) }
      have stored : Stored marked := by
        refine ⟨sync.stored.ascending, ?_⟩
        rintro length ⟨⟩
        cases shape : state.begun with
        | none => exact Nat.le_refl _
        | some length => exact sync.stored.begun length shape
      have moved (key : Option Id) (place : Place state taken key) : Place marked taken key := by
        cases key with
        | none => exact place
        | some key => exact ⟨place.1, rfl, place.2.split⟩
      have left : Left marked taken (key.getD (Id.of state.now 0)) := by
        cases key with
        | none =>
          refine ⟨rfl, ?_⟩
          rw [show taken = [] from hearing]
          exact (heard listener).symm
        | some key => exact ⟨rfl, hearing.2.split⟩
      refine (@digit_sync max marked taken stored running
        ⟨⟨working.told.digits, working.told.plain⟩, working.short, moved _ working.place, ?_⟩
        (.reading key (key.getD (Id.of state.now 0))) ⟨moved _ hearing, left⟩).same
        rfl rfl rfl rfl rfl rfl
      change Hearing marked taken (state.listeners .dtmf)
      rw [listener]
      exact moved _ hearing
    · refine (aside_sync sync digit on).same rfl ?_ rfl rfl rfl rfl
      exact if_neg digit
  · cases stepped

theorem entry_sync (sync : Sync max state) {branch : Branch}
    (stepped : readEntry max soundId state branch = some after) : Sync max after := by
  unfold readEntry at stepped
  split at stepped
  · rename_i key last listener
    have on : state.listeners branch ≠ .off := by
      rw [listener]
      nofun
    obtain ⟨taken, running, working⟩ := sync.working on
    split at stepped
    · cases stepped
    · rename_i entry found
      have member := (firstAfter_mem found).1
      split at stepped
      · rename_i awaited
        cases stepped
        cases branch with
        | dtmf =>
          have hearing := working.hearing
          rw [listener] at hearing
          exact takeDigit_sync sync.stored working.told working.short member
            (left_digit sync.stored.ascending hearing.2 found awaited)
        | soundEnd =>
          exact @select_sync max { state with soundEnded := _ } taken
            ⟨sync.stored.ascending, sync.stored.begun⟩ running
            ⟨working.told.digits, working.told.plain⟩ working.short (working.place.same rfl rfl)
        | hangup =>
          refine finish_sync sync.stored working.told (place_inOrder working.place) ?_
          rintro ⟨⟩
      · rename_i other
        cases stepped
        cases branch with
        | dtmf =>
          have hearing := working.hearing
          rw [listener] at hearing
          exact digit_sync sync.stored running working
            ⟨⟨entry, member, rfl⟩, left_other sync.stored.ascending hearing.2 found other⟩
        | soundEnd => exact aside_sync sync (by decide) on
        | hangup => exact aside_sync sync (by decide) on
  · cases stepped

theorem noEntry_sync (sync : Sync max state) {branch : Branch}
    (stepped : readNothing state branch = some after) : Sync max after := by
  unfold readNothing at stepped
  split at stepped
  · rename_i key last listener
    have on : state.listeners branch ≠ .off := by
      rw [listener]
      nofun
    obtain ⟨taken, running, working⟩ := sync.working on
    split at stepped
    · cases stepped
    · split at stepped
      · cases stepped
        cases branch with
        | dtmf =>
          rw [failed]
          by_cases second : state.phase = .second
          · rw [if_pos second]
            exact select_sync sync.stored running working.told working.short working.place
          · rw [if_neg second]
            exact @digit_sync _ _ taken sync.stored running working .off trivial
        | soundEnd => exact aside_sync sync (by decide) on
        | hangup =>
          refine finish_sync sync.stored working.told (place_inOrder working.place) ?_
          rintro ⟨⟩
      · cases stepped
        cases branch with
        | dtmf =>
          have hearing := working.hearing
          rw [listener] at hearing
          exact digit_sync sync.stored running working hearing.1
        | soundEnd => exact aside_sync sync (by decide) on
        | hangup => exact aside_sync sync (by decide) on
  · cases stepped

theorem elapsed_sync (sync : Sync max state) (stepped : elapse state = some after) :
    Sync max after := by
  obtain ⟨taken, ⟨running, working⟩ | ⟨⟨reason, returned⟩, _⟩⟩ := sync.course
  · have ended : Sync max (state.finish .timeout) := by
      refine finish_sync sync.stored working.told (place_inOrder working.place) ?_
      rintro ⟨⟩
    unfold elapse at stepped
    split at stepped
    · split at stepped <;> cases stepped
      exact ended
    · cases stepped
      exact ended
    · cases stepped
  · rw [elapse, returned] at stepped
    cases stepped

theorem step_sync {event : Event} (sync : Sync max state) (heard : Heard state event)
    (stepped : machine max soundId state event = some after) : Sync max after := by
  cases event with
  | passed millis =>
    cases stepped
    exact sync.same rfl rfl rfl rfl rfl rfl
  | arrived event value =>
    cases stepped
    exact arrive_sync sync event value heard
  | hungUp =>
    cases stepped
    exact sync.same rfl rfl rfl rfl rfl rfl
  | listen branch => exact listen_sync sync heard stepped
  | entry branch => exact entry_sync sync stepped
  | noEntry branch => exact noEntry_sync sync stepped
  | elapsed => exact elapsed_sync sync stepped

theorem start_sync (positive : 0 < max) (now : ℕ) (soundEnded : Bool) :
    Sync max (State.start now soundEnded) :=
  ⟨⟨List.Pairwise.nil, nofun⟩, [], Or.inl ⟨nofun, ⟨rfl, nofun⟩, positive, rfl, rfl⟩⟩

end Listening

section Runs

/-- Where at least one digit is asked for and no read from the time passes one over, the digits are
    the first that have arrived. -/
theorem digits_collected (max : ℕ) (positive : 0 < max) (soundId : String) (now : ℕ)
    (soundEnded : Bool) (state : State)
    (run : Runs.Run (machine max soundId) Heard (State.start now soundEnded) state) :
    Collected max state := by
  have sync : Sync max state := Runs.run_keeps (Sync max) (start_sync positive now soundEnded)
    (fun _ _ _ before heard stepped => step_sync before heard stepped) run
  exact sync.collected

theorem digits_collected_one : ∃ state, Collected 2 state ∧ state.digits = ["1"] := by
  have listened : Runs.Run (machine 2 "sound") Heard (State.start 1000 false) _ :=
    Runs.Run.next Runs.Run.start (show Heard _ (.listen .dtmf) from fun _ => rfl) rfl
  have waited := Runs.Run.next listened (show Heard _ (.passed 500) from trivial) rfl
  have pressed := Runs.Run.next waited (show Heard _ (.arrived .dtmf "1") by
    rintro key last ⟨⟩
    decide) rfl
  have taken := Runs.Run.next pressed (show Heard _ (.entry .dtmf) from trivial) rfl
  exact ⟨_, digits_collected 2 (by decide) "sound" 1000 false _ taken, rfl⟩

/-- The sound ends as a digit arrives, and the select begins anew after both. -/
def soundEnds : List Event :=
  [.listen .dtmf, .listen .soundEnd, .listen .hangup, .passed 500, .arrived .soundEnd "sound",
    .arrived .dtmf "1", .entry .soundEnd, .passed 1, .listen .dtmf, .passed 500,
    .arrived .dtmf "2", .entry .dtmf]

theorem digit_missed : ¬∀ (max : ℕ) (soundId : String) (now : ℕ) (soundEnded : Bool)
    (state : State), Runs.Reaches (machine max soundId) (State.start now soundEnded) state →
    Collected max state := by
  intro always
  have outcome : (Runs.runAll (machine 2 "sound") (State.start 1000 false) soundEnds).any
      fun state => state.digits = ["2"] ∧ (arrived state).map Entry.value = ["1", "2"] := by
    decide
  cases ran : Runs.runAll (machine 2 "sound") (State.start 1000 false) soundEnds with
  | none =>
    rw [ran] at outcome
    cases outcome
  | some state =>
    rw [ran] at outcome
    obtain ⟨digits, values⟩ := of_decide_eq_true outcome
    have inOrder := (always 2 "sound" 1000 false state
      (Runs.reaches_of_runAll soundEnds ran)).inOrder
    rw [digits, values] at inOrder
    exact absurd inOrder (by decide)

end Runs

end DtmfCollection
