import Mathlib.Logic.Function.Basic
import Mathlib.Data.List.Basic

/- Call flows that are switched to from one another, and what they leave in the stored call
   context. The parent's values are put back into a copy of the context that is read after
   the modules have run, and that copy is not stored. -/
namespace NestedFlows

/-- What of a call flow is written into the context. -/
structure CallFlow where
  uuid : String
  name : String
  shown_in_callerid : Bool
  show_original_callerid : Bool
  custom_callerid : Option String
  deriving DecidableEq

/-- The fields of a call context that call flows write. -/
structure CallContext where
  call_flow_id : Option String
  call_flow_name : Option String
  call_flow_show_original_callerid : Option Bool
  call_flow_custom_callerid : Option String
  call_flow_moh : Option String
  parent_call_flow_name : Option String
  parent_call_flow_show_original_callerid : Option Bool
  parent_call_flow_custom_callerid : Option String
  parent_call_flow_moh : Option String
  deriving DecidableEq

abbrev Counters := String → Nat

/-- The hash of a channel: its context, and how often each call flow was switched to. -/
structure Channel where
  context : Option CallContext
  counters : Counters

/-- Which of the calls that a switch waits for succeed: the counter, the recording, the
    context read and written, the flow parsed and stored, the context read again. -/
structure Fates where
  counter : Bool
  recording : Bool
  get : Bool
  set : Bool
  parse : Bool
  hset : Bool
  again : Bool
  deriving DecidableEq

/-- What the modules of a flow do, in the order in which they run: music on hold, another
    call flow, in the end a result. Modules that write none of the fields are left out. -/
inductive Modules where
  | ends (ok : Bool)
  | musiconhold (moh_class : String) (next : Modules)
  | callflow (callflow : CallFlow) (fates : Fates) (inner next : Modules)

/-- What a switch comes to. The copy with the parent's values is dropped. -/
structure Returned where
  channel : Channel
  dropped : Option CallContext
  ok : Bool

def get_call_context (works : Bool) (channel : Channel) : Option CallContext :=
  if works then channel.context else none

/-- The context that a flow stores: the values of before become the parent's. -/
def entered (callflow : CallFlow) (context : CallContext) : CallContext where
  call_flow_id := some callflow.uuid
  call_flow_name := if callflow.shown_in_callerid then some callflow.name else none
  call_flow_show_original_callerid := some callflow.show_original_callerid
  call_flow_custom_callerid := callflow.custom_callerid
  call_flow_moh := context.call_flow_moh
  parent_call_flow_name := context.call_flow_name
  parent_call_flow_show_original_callerid := context.call_flow_show_original_callerid
  parent_call_flow_custom_callerid := context.call_flow_custom_callerid
  parent_call_flow_moh := context.call_flow_moh

def restored (context : CallContext) : CallContext :=
  { context with
    call_flow_name := context.parent_call_flow_name
    call_flow_show_original_callerid := context.parent_call_flow_show_original_callerid
    call_flow_moh := context.parent_call_flow_moh
    call_flow_custom_callerid := context.parent_call_flow_custom_callerid }

def hincrby (uuid : String) (counters : Counters) : Counters :=
  Function.update counters uuid (counters uuid + 1)

/-- `run` is what the modules of the flow do. -/
def switch_callflow (callflow : CallFlow) (fates : Fates) (run : Channel → Channel × Bool)
    (channel : Channel) : Returned :=
  if !fates.counter then ⟨channel, none, false⟩
  else
    let counted := { channel with counters := hincrby callflow.uuid channel.counters }
    -- a call flow loop ends here
    if 100 < counted.counters callflow.uuid then ⟨counted, none, true⟩
    else if !fates.recording then ⟨counted, none, false⟩
    else match get_call_context fates.get counted with
      | none => ⟨counted, none, false⟩
      | some context =>
        if !fates.set then ⟨counted, none, false⟩
        else
          let stored := { counted with context := some (entered callflow context) }
          if !(fates.parse && fates.hset) then ⟨stored, none, false⟩
          else
            let ran := run stored
            if !ran.2 then ⟨ran.1, none, false⟩
            else match get_call_context fates.again ran.1 with
              | none => ⟨ran.1, none, false⟩
              | some context => ⟨ran.1, some (restored context), true⟩

/-- The modules of a flow; what a nested call flow comes to is ignored. -/
def Modules.run : Modules → Channel → Channel × Bool
  | .ends ok, channel => (channel, ok)
  | .musiconhold moh_class next, channel =>
    match channel.context with
    | none => (channel, false)
    | some context =>
      next.run { channel with context := some { context with call_flow_moh := some moh_class } }
  | .callflow flow fates inner next, channel =>
    next.run (switch_callflow flow fates inner.run channel).channel

/-- The four values stay as they were. -/
def Kept (before after : CallContext) : Prop :=
  after.call_flow_name = before.call_flow_name ∧
    after.call_flow_show_original_callerid = before.call_flow_show_original_callerid ∧
    after.call_flow_custom_callerid = before.call_flow_custom_callerid ∧
    after.call_flow_moh = before.call_flow_moh

/-- A stored context keeps the four values, and where none is stored none is afterwards. -/
def Unchanged (before after : Option CallContext) : Prop :=
  (∀ context ∈ before, ∃ left ∈ after, Kept context left) ∧ (before = none → after = none)

section Writes

/-- A write of the context: by a flow that is entered, or by music on hold. -/
inductive Write where
  | flow (callflow : CallFlow)
  | moh (moh_class : String)

def Write.apply (context : CallContext) : Write → CallContext
  | .flow callflow => entered callflow context
  | .moh moh_class => { context with call_flow_moh := some moh_class }

/-- The writes of a switch, by those of its modules. -/
def switchWrites (callflow : CallFlow) (fates : Fates) (inner : Counters → List Write × Counters)
    (counters : Counters) : List Write × Counters :=
  if !fates.counter then ([], counters)
  else
    let counted := hincrby callflow.uuid counters
    if 100 < counted callflow.uuid then ([], counted)
    else if !(fates.recording && fates.get && fates.set) then ([], counted)
    else if !(fates.parse && fates.hset) then ([.flow callflow], counted)
    else (.flow callflow :: (inner counted).1, (inner counted).2)

def Modules.writes : Modules → Counters → List Write × Counters
  | .ends _, counters => ([], counters)
  | .musiconhold moh_class next, counters =>
    (.moh moh_class :: (next.writes counters).1, (next.writes counters).2)
  | .callflow flow fates inner next, counters =>
    let nested := switchWrites flow fates inner.writes counters
    (nested.1 ++ (next.writes nested.2).1, (next.writes nested.2).2)

/-- The last flow that was entered. -/
def lastFlow : List Write → Option CallFlow
  | [] => none
  | .flow callflow :: rest => (lastFlow rest).or (some callflow)
  | .moh _ :: rest => lastFlow rest

/-- The last class of music on hold that was set. -/
def lastMoh : List Write → Option String
  | [] => none
  | .flow _ :: rest => lastMoh rest
  | .moh moh_class :: rest => (lastMoh rest).or (some moh_class)

end Writes

section Runs

/-- What a run leaves is what the writes leave, and the counters are theirs. -/
def Follows (run : Channel → Channel × Bool) (writes : Counters → List Write × Counters) : Prop :=
  ∀ context counters,
    (run ⟨some context, counters⟩).1 =
      ⟨some ((writes counters).1.foldl Write.apply context), (writes counters).2⟩

theorem switch_follows {run : Channel → Channel × Bool}
    {writes : Counters → List Write × Counters} (follows : Follows run writes)
    (callflow : CallFlow) (fates : Fates) (context : CallContext) (counters : Counters) :
    (switch_callflow callflow fates run ⟨some context, counters⟩).channel =
      ⟨some ((switchWrites callflow fates writes counters).1.foldl Write.apply context),
        (switchWrites callflow fates writes counters).2⟩ := by
  obtain ⟨counter, recording, get, set, parse, hset, again⟩ := fates
  have inner := follows (entered callflow context) (hincrby callflow.uuid counters)
  unfold switch_callflow switchWrites get_call_context
  dsimp only
  cases counter with
  | false => rfl
  | true =>
    by_cases loop : 100 < hincrby callflow.uuid counters callflow.uuid
    · simp only [Bool.not_true, Bool.false_eq_true, if_false, if_pos loop]
      rfl
    · cases recording with
      | false => simp [loop]
      | true =>
        cases get with
        | false => simp [loop]
        | true =>
          cases set with
          | false => simp [loop]
          | true =>
            cases stored : parse && hset with
            | false => simp [loop, Write.apply]
            | true =>
              simp only [loop, Bool.not_true, Bool.false_eq_true, if_false, if_true,
                Bool.and_self, List.foldl_cons, Write.apply, ← inner]
              split
              · rfl
              · split <;> rfl

theorem modules_follow (modules : Modules) : Follows modules.run modules.writes := by
  induction modules with
  | ends ok => exact fun _ _ => rfl
  | musiconhold moh_class next ih =>
    intro context counters
    exact ih { context with call_flow_moh := some moh_class } counters
  | callflow flow fates inner next ihInner ihNext =>
    intro context counters
    have nested := switch_follows ihInner flow fates context counters
    unfold Modules.run Modules.writes
    dsimp only
    rw [nested, List.foldl_append]
    exact ihNext _ _

/-- Where no context is stored a switch leaves none. -/
theorem switch_without (callflow : CallFlow) (fates : Fates) (run : Channel → Channel × Bool)
    (counters : Counters) :
    (switch_callflow callflow fates run ⟨none, counters⟩).channel.context = none := by
  have unread : ∀ counted : Counters, get_call_context fates.get ⟨none, counted⟩ = none := by
    intro counted
    unfold get_call_context
    split <;> rfl
  unfold switch_callflow
  dsimp only
  rw [unread]
  split
  · rfl
  · split
    · rfl
    · split <;> rfl

end Runs

section Fields

/-- The values that a flow leaves in the context when it is entered. -/
def CallFlow.values (callflow : CallFlow) : Option String × Option Bool × Option String :=
  (if callflow.shown_in_callerid then some callflow.name else none,
    some callflow.show_original_callerid, callflow.custom_callerid)

def CallContext.values (context : CallContext) : Option String × Option Bool × Option String :=
  (context.call_flow_name, context.call_flow_show_original_callerid,
    context.call_flow_custom_callerid)

theorem kept_iff (before after : CallContext) :
    Kept before after ↔
      after.values = before.values ∧ after.call_flow_moh = before.call_flow_moh := by
  unfold Kept CallContext.values
  rw [Prod.mk.injEq, Prod.mk.injEq]
  constructor
  · rintro ⟨name, original, custom, moh⟩
    exact ⟨⟨name, original, custom⟩, moh⟩
  · rintro ⟨⟨name, original, custom⟩, moh⟩
    exact ⟨name, original, custom, moh⟩

/-- The values are those of the last flow that was entered. -/
theorem values_of_writes (writes : List Write) (context : CallContext) :
    (writes.foldl Write.apply context).values =
      ((lastFlow writes).map CallFlow.values).getD context.values := by
  induction writes generalizing context with
  | nil => rfl
  | cons write rest ih =>
    rw [List.foldl_cons, ih]
    cases write with
    | flow callflow =>
      rw [lastFlow]
      cases lastFlow rest <;> rfl
    | moh moh_class => rfl

/-- The music on hold is the last that was set. -/
theorem moh_of_writes (writes : List Write) (context : CallContext) :
    (writes.foldl Write.apply context).call_flow_moh =
      (lastMoh writes).or context.call_flow_moh := by
  induction writes generalizing context with
  | nil => rfl
  | cons write rest ih =>
    rw [List.foldl_cons, ih]
    cases write with
    | flow callflow => rfl
    | moh moh_class =>
      rw [lastMoh]
      cases lastMoh rest <;> rfl

theorem kept_of_writes (writes : List Write) (context : CallContext) :
    Kept context (writes.foldl Write.apply context) ↔
      (∀ last ∈ lastFlow writes, last.values = context.values) ∧
        ∀ moh_class ∈ lastMoh writes, context.call_flow_moh = some moh_class := by
  rw [kept_iff, values_of_writes, moh_of_writes]
  refine and_congr ?_ ?_
  · cases lastFlow writes with
    | none => exact iff_of_true rfl fun _ absent => nomatch absent
    | some last =>
      constructor
      · rintro same _ ⟨⟩
        exact same
      · exact fun same => same last rfl
  · cases lastMoh writes with
    | none => exact iff_of_true rfl fun _ absent => nomatch absent
    | some moh_class =>
      constructor
      · rintro same _ ⟨⟩
        exact same.symm
      · exact fun same => (same moh_class rfl).symm

/-- A switch leaves the values of the context as they were exactly when the last flow that it
    entered has the same values and the last music on hold that was set was on before: so it
    does where it enters no flow and sets no music on hold. -/
theorem switch_callflow_restores_iff (callflow : CallFlow) (fates : Fates) (modules : Modules)
    (channel : Channel) :
    Unchanged channel.context (switch_callflow callflow fates modules.run channel).channel.context ↔
      ∀ context ∈ channel.context,
        (∀ last ∈ lastFlow (switchWrites callflow fates modules.writes channel.counters).1,
          last.values = context.values) ∧
        ∀ moh_class ∈ lastMoh (switchWrites callflow fates modules.writes channel.counters).1,
          context.call_flow_moh = some moh_class := by
  obtain ⟨stored, counters⟩ := channel
  cases stored with
  | none =>
    have without := switch_without callflow fates modules.run counters
    refine iff_of_true ⟨fun _ absent => (nomatch absent), fun _ => without⟩ ?_
    exact fun _ absent => nomatch absent
  | some context =>
    rw [switch_follows (modules_follow modules)]
    dsimp only
    generalize (switchWrites callflow fates modules.writes counters).1 = writes
    constructor
    · rintro ⟨kept, _⟩ _ ⟨⟩
      obtain ⟨_, ⟨⟩, same⟩ := kept context rfl
      exact (kept_of_writes writes context).mp same
    · intro last
      refine ⟨?_, fun absent => nomatch absent⟩
      rintro _ ⟨⟩
      exact ⟨_, rfl, (kept_of_writes writes context).mpr (last context rfl)⟩

end Fields

section Sales

def sales : CallFlow := ⟨"f-1", "Sales", true, false, none⟩

def fine : Fates := ⟨true, true, true, true, true, true, true⟩

def fresh : CallContext := ⟨none, none, none, none, none, none, none, none, none⟩

/-- After a flow without a module the context still has the flow's name. -/
theorem name_stays : ¬ ∀ (callflow : CallFlow) (fates : Fates) (modules : Modules)
    (channel : Channel), Unchanged channel.context
      (switch_callflow callflow fates modules.run channel).channel.context := by
  intro claimed
  obtain ⟨left, shape, name, _⟩ :=
    (claimed sales fine (.ends true) ⟨some fresh, fun _ => 0⟩).1 fresh rfl
  have own : left = entered sales fresh := (Option.some.inj shape).symm
  rw [own] at name
  cases name

end Sales

end NestedFlows
