import Nebula.Switchboard.BridgeChannels

/- One winner and one end. Calls that answer or hang up read whether the bridge is
   decided and mark it several commands later; everything holds of runs in which
   no two of them are between the two at the same time. -/
namespace BridgeWinner
open Interleaving Bridge BridgeSteps BridgeChannels

/-- Each mark at most once, and no answer on top of a hangup. -/
def OnceEach (marks : List Mark) : Prop :=
  marks = [] ∨ (∃ channel, marks = [.answerChannel channel]) ∨ marks = [.hangup] ∨
    ∃ channel, marks = [.hangup, .answerChannel channel]

def answers : Ender → Bool
  | .answer _ => true
  | .hangup _ => false

/-- The events that report an answer of the bridge, or its hangup. -/
def reports (answer : Bool) : ChannelEvent → Bool
  | .BridgeAnswer _ => answer
  | .BridgeHangup _ => !answer
  | .Hangup _ => false

structure Whole (bridge : Shared) : Prop where
  marks : OnceEach bridge.marks
  once : ∀ answer, (ends bridge).countP (reports answer) ≤ 1
  marked : ∀ ender : Ender, ender.event ∈ ends bridge → ender.mark ∈ bridge.marks
  endsOk : ∀ result, .BridgeHangup result ∈ ends bridge → result ≠ .Ok → answered bridge = false

/-- What a call knows from its mark to its report. -/
structure Finishing (bridge : Shared) (ender : Ender) : Prop where
  marked : ender.mark ∈ bridge.marks
  unreported : (ends bridge).countP (reports (answers ender)) = 0
  unanswered : ∀ result, ender = .hangup result → result ≠ .Ok → answered bridge = false

structure Known (bridge : Shared) (proc : Proc) : Prop where
  deciding : deciding proc = true → hungUp bridge = false
  saw : sawUnanswered proc = true → answered bridge = false
  finishing : ∀ ender, finishing proc = some ender → Finishing bridge ender

/-- No two calls decide at once, and no two report the same thing. -/
structure Apart (proc other : Proc) : Prop where
  deciding : deciding proc = true → deciding other = false
  finishing : ∀ ender ender', finishing proc = some ender → finishing other = some ender' →
    answers ender ≠ answers ender'

def outline : Outline Shared Proc := ⟨Whole, Known, Apart⟩

theorem apart_symmetric (proc other : Proc) (apart : Apart proc other) : Apart other proc := by
  constructor
  · intro decides
    by_contra both
    have clash := apart.deciding (by simpa using both)
    rw [decides] at clash
    cases clash
  · intro ender ender' left right
    exact Ne.symm (apart.finishing ender' ender right left)

theorem sawUnanswered_deciding {proc : Proc} (saw : sawUnanswered proc = true) :
    deciding proc = true := by
  cases proc <;> simp_all

theorem latestAnswer_of_mem {marks : List Mark} {channel : Channel}
    (marked : .answerChannel channel ∈ marks) : latestAnswer marks ≠ "" := by
  induction marks with
  | nil => cases marked
  | cons newest older ih =>
    cases newest with
    | answerChannel latest => exact latest.named
    | hangup => exact ih (by simpa using marked)

theorem not_answered_mem {bridge : Shared} (unanswered : answered bridge = false)
    (channel : Channel) : Mark.answerChannel channel ∉ bridge.marks := by
  intro marked
  have named := latestAnswer_of_mem marked
  simp [answered, answerChannel, named] at unanswered

theorem hungUp_eq_false {bridge : Shared} (stillOpen : hungUp bridge = false) :
    Mark.hangup ∉ bridge.marks := by
  simpa [hungUp] using stillOpen

/-- An undecided bridge has no mark at all, or an answer that is going to end. -/
theorem marks_of_open {bridge : Shared} (once : OnceEach bridge.marks)
    (stillOpen : hungUp bridge = false) :
    bridge.marks = [] ∨ ∃ channel, bridge.marks = [.answerChannel channel] := by
  have absent := hungUp_eq_false stillOpen
  rcases once with none | answer | hangup | ⟨channel, both⟩
  · exact Or.inl none
  · exact Or.inr answer
  · simp [hangup] at absent
  · simp [both] at absent

theorem reports_event (answer : Bool) (ender : Ender) :
    reports answer ender.event = (answers ender == answer) := by
  cases ender <;> cases answer <;> rfl

theorem event_of_reports {answer : Bool} {event : ChannelEvent}
    (reported : reports answer event = true) :
    ∃ ender : Ender, ender.event = event ∧ answers ender = answer := by
  cases event with
  | Hangup channel => cases reported
  | BridgeAnswer channel => exact ⟨.answer channel, rfl, reported.symm⟩
  | BridgeHangup result =>
    refine ⟨.hangup result, rfl, ?_⟩
    cases answer with
    | true => cases reported
    | false => rfl

/-- A command that changes neither marks nor reports, taken by a call that knows
    afterwards no more than it knew or has just read. -/
theorem keeps_quiet {world : World Shared Proc} {pid : Nat} {after : Shared} {arrived : Proc}
    (holds : outline.Holds world) (marks : after.marks = world.shared.marks)
    (sameEnds : ends after = ends world.shared)
    (decides : deciding arrived = true → deciding (world.procs pid) = true ∨
      hungUp world.shared = false ∧ ∀ other, other ≠ pid → deciding (world.procs other) = false)
    (saw : sawUnanswered arrived = true →
      sawUnanswered (world.procs pid) = true ∨ answered world.shared = false)
    (finishes : ∀ ender, finishing arrived = some ender →
      finishing (world.procs pid) = some ender) : outline.Keeps world pid after arrived := by
  have sameHungUp : hungUp after = hungUp world.shared := by simp [hungUp, marks]
  have sameAnswered : answered after = answered world.shared := by
    simp [answered, answerChannel, marks]
  have finishing_same : ∀ ender, Finishing world.shared ender → Finishing after ender := by
    intro ender known
    exact ⟨marks ▸ known.marked, by rw [sameEnds]; exact known.unreported, by
      rw [sameAnswered]; exact known.unanswered⟩
  have own : Known world.shared (world.procs pid) := holds.known pid
  constructor
  · have whole : Whole world.shared := holds.whole
    exact ⟨by rw [marks]; exact whole.marks, by rw [sameEnds]; exact whole.once, by
      rw [sameEnds, marks]; exact whole.marked, by
      rw [sameEnds, sameAnswered]; exact whole.endsOk⟩
  · constructor
    · intro decided
      rw [sameHungUp]
      rcases decides decided with before | ⟨stillOpen, _⟩
      · exact own.deciding before
      · exact stillOpen
    · intro seen
      rw [sameAnswered]
      rcases saw seen with before | unanswered
      · exact own.saw before
      · exact unanswered
    · intro ender reached
      exact finishing_same ender (own.finishing ender (finishes ender reached))
  · intro other _
    have known : Known world.shared (world.procs other) := holds.known other
    constructor
    · intro decided
      rw [sameHungUp]
      exact known.deciding decided
    · intro seen
      rw [sameAnswered]
      exact known.saw seen
    · intro ender reached
      exact finishing_same ender (known.finishing ender reached)
  · intro other different
    have apart : Apart (world.procs pid) (world.procs other) :=
      holds.apart pid other (Ne.symm different)
    constructor
    · intro decided
      rcases decides decided with before | ⟨_, alone⟩
      · exact apart.deciding before
      · exact alone other different
    · intro ender ender' reached
      exact apart.finishing ender ender' (finishes ender reached)

/-- What a call knows where it is about to mark the bridge. -/
structure MayMark (bridge : Shared) (ender : Ender) : Prop where
  stillOpen : hungUp bridge = false
  unanswered : ender ≠ .hangup .Ok → answered bridge = false

def marked (bridge : Shared) (ender : Ender) : Shared :=
  { bridge with present := true, marks := ender.mark :: bridge.marks }

theorem mayMark_of_known {bridge : Shared} {ender : Ender} (known : Known bridge (.mark ender)) :
    MayMark bridge ender := by
  constructor
  · exact known.deciding rfl
  · intro notOk
    apply known.saw
    cases ender with
    | answer channel => rfl
    | hangup result => simpa using notOk

/-- Nothing of the ender's kind has been marked before it. -/
theorem kind_unmarked {bridge : Shared} {ender : Ender} (may : MayMark bridge ender)
    (other : Ender) (sameKind : answers ender = answers other) : other.mark ∉ bridge.marks := by
  cases other with
  | answer channel =>
    cases ender with
    | answer own => exact not_answered_mem (may.unanswered (by simp)) channel
    | hangup result => cases sameKind
  | hangup result => exact hungUp_eq_false may.stillOpen

theorem whole_marked {bridge : Shared} {ender : Ender} (whole : Whole bridge)
    (may : MayMark bridge ender) : Whole (marked bridge ender) := by
  constructor
  · rcases marks_of_open whole.marks may.stillOpen with none | ⟨channel, answer⟩
    · simp only [marked, none]
      cases ender with
      | answer channel => exact Or.inr (Or.inl ⟨channel, rfl⟩)
      | hangup result => exact Or.inr (Or.inr (Or.inl rfl))
    · cases ender with
      | answer own =>
        have absent := kind_unmarked may (.answer channel) rfl
        simp [answer, Ender.mark] at absent
      | hangup result =>
        simp only [marked, answer]
        exact Or.inr (Or.inr (Or.inr ⟨channel, rfl⟩))
  · exact whole.once
  · intro other reported
    exact List.mem_cons_of_mem _ (whole.marked other reported)
  · intro result reported
    exact absurd (whole.marked (.hangup result) reported) (hungUp_eq_false may.stillOpen)

theorem finishing_marked {bridge : Shared} {ender : Ender} (whole : Whole bridge)
    (may : MayMark bridge ender) : Finishing (marked bridge ender) ender := by
  constructor
  · exact List.mem_cons_self
  · rw [List.countP_eq_zero]
    intro event member reported
    obtain ⟨other, rfl, kind⟩ := event_of_reports reported
    exact kind_unmarked may other kind.symm (whole.marked other member)
  · intro result isHangup notOk
    subst isHangup
    have before := may.unanswered (by simpa using notOk)
    simpa [marked, answered, answerChannel, latestAnswer, Ender.mark] using before

/-- A call that is not deciding is not disturbed by the mark of another one. -/
theorem known_marked {bridge : Shared} {ender : Ender} (may : MayMark bridge ender) {proc : Proc}
    (known : Known bridge proc) (idle : deciding proc = false) :
    Known (marked bridge ender) proc := by
  constructor
  · intro decides
    rw [idle] at decides
    cases decides
  · intro saw
    rw [sawUnanswered_deciding saw] at idle
    cases idle
  · intro other reached
    have finished := known.finishing other reached
    refine ⟨List.mem_cons_of_mem _ finished.marked, finished.unreported, ?_⟩
    intro result isHangup _
    subst isHangup
    exact absurd finished.marked (hungUp_eq_false may.stillOpen)

/-- A deciding call that knows enough sets its mark. -/
theorem keeps_mark {world : World Shared Proc} {pid : Nat} {ender : Ender}
    (holds : outline.Holds world) (stands : world.procs pid = .mark ender) :
    outline.Keeps world pid (marked world.shared ender) (.members ender) := by
  have own : Known world.shared (world.procs pid) := holds.known pid
  rw [stands] at own
  have may := mayMark_of_known own
  constructor
  · exact whole_marked holds.whole may
  · constructor
    · intro decides
      cases decides
    · intro saw
      cases saw
    · intro other reached
      cases reached
      exact finishing_marked holds.whole may
  · intro other different
    have apart : Apart (world.procs pid) (world.procs other) :=
      holds.apart pid other (Ne.symm different)
    exact known_marked may (holds.known other) (apart.deciding (by rw [stands]; rfl))
  · intro other different
    have known : Known world.shared (world.procs other) := holds.known other
    constructor
    · intro decides
      cases decides
    · intro ender' other' mine theirs sameKind
      cases mine
      exact kind_unmarked may other' sameKind (known.finishing other' theirs).marked

def reported (bridge : Shared) (ender : Ender) : Shared :=
  { bridge with stream := ender.event :: bridge.stream }

theorem ends_reported (bridge : Shared) (ender : Ender) :
    ends (reported bridge ender) = ender.event :: ends bridge := by
  cases ender <;> rfl

theorem mark_of_event {ender other : Ender} (same : ender.event = other.event) :
    ender.mark = other.mark := by
  cases ender <;> cases other <;> simp_all [Ender.event, Ender.mark]

theorem whole_reported {bridge : Shared} {ender : Ender} (whole : Whole bridge)
    (own : Finishing bridge ender) : Whole (reported bridge ender) := by
  constructor
  · exact whole.marks
  · intro answer
    rw [ends_reported, List.countP_cons, reports_event]
    by_cases sameKind : answers ender = answer
    · subst sameKind
      simp [own.unreported]
    · simpa [sameKind] using whole.once answer
  · intro other member
    rw [ends_reported] at member
    rcases List.mem_cons.1 member with first | later
    · rw [mark_of_event first]
      exact own.marked
    · exact whole.marked other later
  · intro result member notOk
    rw [ends_reported] at member
    rcases List.mem_cons.1 member with first | later
    · cases ender with
      | answer channel => cases first
      | hangup other =>
        cases first
        exact own.unanswered result rfl notOk
    · exact whole.endsOk result later notOk

/-- A call that has another kind of thing to report is not disturbed. -/
theorem known_reported {bridge : Shared} {ender : Ender} {proc : Proc} (known : Known bridge proc)
    (kinds : ∀ other, finishing proc = some other → answers ender ≠ answers other) :
    Known (reported bridge ender) proc := by
  refine ⟨known.deciding, known.saw, ?_⟩
  intro other reached
  have finished := known.finishing other reached
  refine ⟨finished.marked, ?_, finished.unanswered⟩
  rw [ends_reported, List.countP_cons, reports_event, finished.unreported]
  simp [kinds other reached]

/-- A call that has marked the bridge reports it. -/
theorem keeps_bridgeEvent {world : World Shared Proc} {pid : Nat} {ender : Ender}
    (holds : outline.Holds world) (stands : world.procs pid = .bridgeEvent ender) :
    outline.Keeps world pid (reported world.shared ender) .returned := by
  have own : Finishing world.shared ender := by
    have known : Known world.shared (world.procs pid) := holds.known pid
    exact known.finishing ender (by rw [stands]; rfl)
  constructor
  · exact whole_reported holds.whole own
  · constructor
    · intro decides
      cases decides
    · intro saw
      cases saw
    · intro other reached
      cases reached
  · intro other different
    have apart : Apart (world.procs pid) (world.procs other) :=
      holds.apart pid other (Ne.symm different)
    apply known_reported (holds.known other)
    intro other' reached
    exact apart.finishing ender other' (by rw [stands]; rfl) reached
  · intro other _
    constructor
    · intro decides
      cases decides
    · intro ender' other' mine
      cases mine

/-- A call goes past its check only while no other call is deciding. -/
def DecidesAlone (world : World Shared Proc) (action : Action Choice Nat) : Prop :=
  ∀ pid choice ender, action = .proc pid choice → world.procs pid = .isHangup (.ender ender) →
    hungUp world.shared = false → ∀ other, other ≠ pid → deciding (world.procs other) = false

theorem goOn_plain (mover : Mover) (rest : List Channel) :
    deciding (mover.goOn rest) = false ∧ sawUnanswered (mover.goOn rest) = false := by
  cases rest with
  | nil => cases mover <;> exact ⟨rfl, rfl⟩
  | cons first rest => exact ⟨rfl, rfl⟩

theorem goOn_finishing (mover : Mover) (first : Channel) (rest : List Channel) :
    finishing (mover.goOn rest) = finishing (.srem mover first []) := by
  cases rest with
  | nil => cases mover <;> rfl
  | cons next rest => cases mover <;> rfl

/-- A command on the sets of channels is quiet. -/
theorem keeps_moving {world : World Shared Proc} {pid : Nat} {after : Shared} {arrived : Proc}
    (holds : outline.Holds world) (marks : after.marks = world.shared.marks)
    (sameEnds : ends after = ends world.shared)
    (plain : deciding arrived = false ∧ sawUnanswered arrived = false)
    (finishes : finishing arrived = finishing (world.procs pid)) :
    outline.Keeps world pid after arrived := by
  apply keeps_quiet holds marks sameEnds
  · intro decides
    rw [plain.1] at decides
    cases decides
  · intro saw
    rw [plain.2] at saw
    cases saw
  · intro ender reached
    rw [← finishes]
    exact reached

theorem keeps_step {world : World Shared Proc} {pid : Nat} {choice : Choice} {after : Shared}
    {arrived : Proc} (holds : outline.Holds world)
    (alone : DecidesAlone world (.proc pid choice))
    (stepped : step pid choice world.shared (world.procs pid) = some (after, arrived)) :
    outline.Keeps world pid after arrived := by
  have effect := step_effect stepped
  generalize stands : world.procs pid = proc at effect
  cases effect with
  | looks looks =>
    apply keeps_quiet holds looks.marks looks.ends
    · intro decides
      rw [stands]
      rcases looks.decides decides with before | ⟨⟨ender, checks⟩, stillOpen⟩
      · exact Or.inl before
      · exact Or.inr ⟨stillOpen, alone pid choice ender rfl (stands.trans checks) stillOpen⟩
    · rw [stands]
      exact looks.saw
    · intro ender reached
      rw [looks.starts.1] at reached
      cases reached
  | mark ender => exact keeps_mark holds stands
  | bridgeEvent ender => exact keeps_bridgeEvent holds stands
  | members ender order _ =>
    apply keeps_moving holds
    · rfl
    · rfl
    · exact goOn_plain _ _
    · rw [stands]
      exact goOn_finishing (.ender ender) ⟨"c", by decide⟩ _
  | srem mover first rest =>
    apply keeps_moving holds
    · rfl
    · rfl
    · exact ⟨rfl, rfl⟩
    · rw [stands]
      cases mover <;> rfl
  | sadd mover first rest =>
    apply keeps_moving holds
    · rfl
    · rfl
    · exact ⟨rfl, rfl⟩
    · rw [stands]
      cases mover <;> rfl
  | hangupEvent mover first rest =>
    apply keeps_moving holds
    · rfl
    · rfl
    · exact goOn_plain _ _
    · rw [stands, goOn_finishing mover first rest]
      cases mover <;> rfl

theorem holds_fresh {world : World Shared Proc} (fresh : Fresh world) : outline.Holds world := by
  have noEnds : ends world.shared = [] := by
    unfold ends
    rw [List.filter_eq_nil_iff]
    intro event member
    rw [fresh.stream event member]
    simp
  have starting : ∀ pid, deciding (world.procs pid) = false ∧
      sawUnanswered (world.procs pid) = false ∧ finishing (world.procs pid) = none := by
    intro pid
    have starts := fresh.procs pid
    cases stands : world.procs pid <;> simp_all [Proc.starting]
  constructor
  · constructor
    · exact Or.inl fresh.marks
    · intro answer
      simp [noEnds]
    · intro ender reported
      rw [noEnds] at reported
      cases reported
    · intro result reported
      rw [noEnds] at reported
      cases reported
  · intro pid
    obtain ⟨idle, blind, apart⟩ := starting pid
    constructor
    · intro decides
      rw [idle] at decides
      cases decides
    · intro saw
      rw [blind] at saw
      cases saw
    · intro ender reached
      rw [apart] at reached
      cases reached
  · intro pid other _
    constructor
    · intro decides
      rw [(starting pid).1] at decides
      cases decides
    · intro ender ender' reached
      rw [(starting pid).2.2] at reached
      cases reached

theorem outline_of_run {first world : World Shared Proc} (fresh : Fresh first)
    (run : Run system DecidesAlone first world) : outline.Holds world := by
  apply Outline.run_holds apart_symmetric (holds_fresh fresh) _ _ run
  · intro world pid choice after arrived holds alone stepped
    exact keeps_step holds alone stepped
  · intro world pid after holds _ unlocked
    obtain ⟨lock, unlocking, rfl⟩ := unlock_same unlocked
    exact ⟨⟨holds.whole.marks, holds.whole.once, holds.whole.marked, holds.whole.endsOk⟩,
      fun other => ⟨(holds.known other).deciding, (holds.known other).saw,
        fun ender reached => ⟨((holds.known other).finishing ender reached).marked,
          ((holds.known other).finishing ender reached).unreported,
          ((holds.known other).finishing ender reached).unanswered⟩⟩,
      holds.apart⟩

def isAnswerMark : Mark → Bool
  | .answerChannel _ => true
  | .hangup => false

/-- The law of a bridge, in a state that calls have led to from the first one. -/
structure OneWinnerOneEnd (first world : World Shared Proc) : Prop where
  oneAnswer : world.shared.marks.countP isAnswerMark ≤ 1
  oneBridgeAnswer : world.shared.stream.countP (reports true) ≤ 1
  oneBridgeHangup : world.shared.stream.countP (reports false) ≤ 1
  noAnswerAfterHangup : ∀ newer older channel,
    world.shared.marks = newer ++ .answerChannel channel :: older → Mark.hangup ∉ older
  answeredEndsOk : answered world.shared = true →
    ∀ result, .BridgeHangup result ∈ world.shared.stream → result = .Ok
  allHungUp : (∀ pid, world.procs pid = .returned) →
    answered world.shared = true ∨ hungUp world.shared = true →
      ∀ channel, channel ∈ first.shared.channels → channel.id ≠ answerChannel world.shared →
        channel ∈ world.shared.hangupChannels ∧ channel ∉ world.shared.channels

theorem onceEach_laws {marks : List Mark} (once : OnceEach marks) :
    marks.countP isAnswerMark ≤ 1 ∧ ∀ newer older channel,
      marks = newer ++ .answerChannel channel :: older → Mark.hangup ∉ older := by
  constructor
  · rcases once with rfl | ⟨channel, rfl⟩ | rfl | ⟨channel, rfl⟩ <;> simp [isAnswerMark]
  · intro newer older channel same
    have short : older = [] := by
      rcases once with rfl | ⟨own, rfl⟩ | rfl | ⟨own, rfl⟩
      · simp at same
      · have lengths := congrArg List.length same
        simp at lengths
        exact List.eq_nil_of_length_eq_zero (by omega)
      · cases newer with
        | nil => simp at same
        | cons newest newer => simp at same
      · cases newer with
        | nil => simp at same
        | cons newest newer =>
          have lengths := congrArg List.length same
          simp at lengths
          exact List.eq_nil_of_length_eq_zero (by omega)
    rw [short]
    exact List.not_mem_nil

theorem count_ends (bridge : Shared) (answer : Bool) :
    bridge.stream.countP (reports answer) = (ends bridge).countP (reports answer) := by
  unfold ends
  rw [List.countP_filter]
  congr 1
  funext event
  cases event <;> simp [reports, isBridgeEnd]

/- In every run in which calls decide one after the other, however their other
   commands interleave, the law holds in every state. -/
theorem one_winner_one_end {first world : World Shared Proc} (fresh : Fresh first)
    (run : Run system DecidesAlone first world) : OneWinnerOneEnd first world := by
  have whole : Whole world.shared := (outline_of_run fresh run).whole
  constructor
  · exact (onceEach_laws whole.marks).1
  · rw [count_ends]
    exact whole.once true
  · rw [count_ends]
    exact whole.once false
  · exact (onceEach_laws whole.marks).2
  · intro isAnswered result reported
    by_contra notOk
    have unanswered := whole.endsOk result (List.mem_filter.2 ⟨reported, rfl⟩) notOk
    rw [isAnswered] at unanswered
    cases unanswered
  · intro returned decided channel isAdded notAnswer
    apply all_hung_up fresh run returned _ isAdded notAnswer
    intro none
    rcases decided with isAnswered | isHungUp
    · simp [answered, answerChannel, none, latestAnswer] at isAnswered
    · simp [hungUp, none] at isHungUp

/-- A call whose fellows have all returned decides alone. -/
theorem run_single {pid : Nat} (actions : List (Action Choice Nat)) :
    ∀ {first last : World Shared Proc},
      (∀ other, other ≠ pid → first.procs other = .returned) →
      runAll system first actions = some last → Run system DecidesAlone first last := by
  induction actions with
  | nil =>
    intro first last _ same
    cases same
    exact Run.start
  | cons action rest ih =>
    intro first last alone ran
    unfold runAll at ran
    split at ran
    · rename_i after acted
      have allowed : DecidesAlone first action := by
        intro mover choice ender moves stands _ other different
        have same : mover = pid := by
          by_contra elsewhere
          rw [alone mover elsewhere] at stands
          cases stands
        rw [alone other (same ▸ different)]
        rfl
      have stillAlone : ∀ other, other ≠ pid → after.procs other = .returned := by
        intro other different
        rcases act_cases acted with ⟨mover, choice, shared, arrived, _, stepped, rfl⟩ |
          ⟨event, shared, _, _, rfl⟩
        · by_cases same : other = mover
          · subst same
            rw [alone other different] at stepped
            cases stepped
          · rw [moved_other _ _ _ same]
            exact alone other different
        · exact alone other different
      exact run_trans (Run.next Run.start allowed acted) (ih stillAlone ran)
    · cases ran

def phoneA : Channel := ⟨"a", by decide⟩

def phoneB : Channel := ⟨"b", by decide⟩

def ringingBoth : Shared where
  present := true
  inbound := some ⟨"caller", by decide⟩
  tenantId := ""
  incoming := false
  marks := []
  ringing := 180
  channels := [phoneA, phoneB]
  hangupChannels := []
  stream := []
  lock := none
  unlocking := []

def moves (pid count : Nat) : List (Action Choice Nat) := List.replicate count (.proc pid {})

def onePhone : World Shared Proc :=
  ⟨ringingBoth, fun pid => if pid = 0 then .answer phoneA else .returned⟩

def twoPhones : World Shared Proc :=
  ⟨ringingBoth, fun pid =>
    if pid = 0 then .answer phoneA else if pid = 1 then .answer phoneB else .returned⟩

theorem one_winner_one_end_answered :
    ∃ world, runAll system onePhone
        (moves 0 7 ++ [.proc 0 { order := [phoneB, phoneA] }] ++ moves 0 4 ++ [.outside 0]) =
          some world ∧
      world.shared.stream = [.BridgeAnswer phoneA, .Hangup phoneB] ∧
      OneWinnerOneEnd onePhone world := by
  refine ⟨_, rfl, rfl, ?_⟩
  apply one_winner_one_end
  · constructor
    · rfl
    · intro event member
      cases member
    · intro pid
      by_cases first : pid = 0 <;> simp [onePhone, first, Proc.starting]
  · refine @run_single 0
      (moves 0 7 ++ [.proc 0 { order := [phoneB, phoneA] }] ++ moves 0 4 ++ [.outside 0]) _ _ ?_ rfl
    intro other different
    simp [onePhone, different]

/- Two phones pick up: the unlocks arrive before either call has marked the bridge,
   both calls pass the check, and each hangs the other phone up. -/
theorem two_winners :
    (∃ world, runAll system twoPhones
        (moves 0 2 ++ [.outside 0] ++ moves 1 2 ++ [.outside 1] ++ moves 0 4 ++ moves 1 4 ++
          moves 0 1 ++ [.proc 0 { order := [phoneA, phoneB] }] ++ moves 0 4 ++
          moves 1 1 ++ [.proc 1 { order := [phoneA] }] ++ moves 1 4) = some world ∧
      world.shared.marks = [.answerChannel phoneB, .answerChannel phoneA] ∧
      world.shared.stream =
        [.BridgeAnswer phoneB, .Hangup phoneA, .BridgeAnswer phoneA, .Hangup phoneB]) ∧
      ¬ ∀ first world, Fresh first → Run system (fun _ _ => True) first world →
        OneWinnerOneEnd first world := by
  have both : ∃ world, runAll system twoPhones
      (moves 0 2 ++ [.outside 0] ++ moves 1 2 ++ [.outside 1] ++ moves 0 4 ++ moves 1 4 ++
        moves 0 1 ++ [.proc 0 { order := [phoneA, phoneB] }] ++ moves 0 4 ++
        moves 1 1 ++ [.proc 1 { order := [phoneA] }] ++ moves 1 4) = some world ∧
      world.shared.marks = [.answerChannel phoneB, .answerChannel phoneA] ∧
      world.shared.stream =
        [.BridgeAnswer phoneB, .Hangup phoneA, .BridgeAnswer phoneA, .Hangup phoneB] :=
    ⟨_, rfl, rfl, rfl⟩
  refine ⟨both, ?_⟩
  intro always
  obtain ⟨world, ran, marks, _⟩ := both
  have fresh : Fresh twoPhones := by
    constructor
    · rfl
    · intro event member
      cases member
    · intro pid
      by_cases first : pid = 0
      · simp [twoPhones, first, Proc.starting]
      · by_cases second : pid = 1 <;> simp [twoPhones, first, second, Proc.starting]
  have law := (always twoPhones world fresh (run_of_runAll _ ran)).oneAnswer
  rw [marks] at law
  exact absurd law (by decide)

end BridgeWinner
