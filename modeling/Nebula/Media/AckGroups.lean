import Mathlib.Order.Bounds.Basic
import Mathlib.Tactic.Linarith
import Nebula.Media.AckedRates

/- The delay signal of the congestion controller. Acks that left close together are gathered
   into groups, and from one group to a later one it is measured how much later the packets
   left and arrived. Times are nanoseconds; a `TimeDelta` is a difference of two of them. -/
namespace AckGroups
open AckedRates Transducer

/-- The seconds that a `TimeDelta` holds as a float, which keeps the order of the differences. -/
structure Seconds (Secs : Type) [LinearOrder Secs] where
  asSecs : ℤ → Secs
  mono : ∀ x y, x ≤ y → asSecs x ≤ asSecs y

structure AckGroupSummary where
  latestDeparture : ℕ
  latestArrival : ℕ
  latestFeedbackArrival : ℕ
  deriving DecidableEq

namespace AckGroupSummary

def add (group : AckGroupSummary) (ack : Ack) : AckGroupSummary where
  latestDeparture := max group.latestDeparture ack.departure
  latestArrival := max group.latestArrival ack.arrival
  latestFeedbackArrival := max group.latestFeedbackArrival ack.feedbackArrival

def ofAck (ack : Ack) : AckGroupSummary := ⟨ack.departure, ack.arrival, ack.feedbackArrival⟩

end AckGroupSummary

def ACK_GROUP_MIN_DURATION : ℤ := 5000000
def ACK_GROUP_MAX_DURATION : ℤ := 100000000
def MAX_ARRIVAL_CHANGE : ℕ := 3000000000
def MAX_CONSECUTIVE_REORDERINGS : ℕ := 3

def timeDeltaSince (later earlier : ℕ) : ℤ := (later : ℤ) - earlier

/-- A measure from one group to a later one. -/
structure Delta where
  ack : Ack
  departureDelta : ℕ
  arrivalDelta : ℤ
  deriving DecidableEq

section
variable {Secs : Type} [LinearOrder Secs] (seconds : Seconds Secs)

/-- Whether an ack that left after the first one of a group is one more of the group. -/
def joins (first : Ack) (group : AckGroupSummary) (next : Ack) : Bool :=
  let departedAtSameTime := next.departure == group.latestDeparture
  let departureGap := seconds.asSecs (timeDeltaSince next.departure group.latestDeparture)
  let arrivalGap := seconds.asSecs (timeDeltaSince next.arrival group.latestArrival)
  let departureDurationWouldBeSmall :=
    decide (seconds.asSecs (timeDeltaSince next.departure first.departure) ≤
      seconds.asSecs ACK_GROUP_MIN_DURATION)
  let arrivalGapIsSmall := decide (arrivalGap < departureGap) &&
    decide (arrivalGap ≤ seconds.asSecs ACK_GROUP_MIN_DURATION)
  let arrivalDurationWouldntBeBig :=
    decide (seconds.asSecs (timeDeltaSince next.arrival first.arrival) <
      seconds.asSecs ACK_GROUP_MAX_DURATION)
  departedAtSameTime || (departureDurationWouldBeSmall ||
    (arrivalGapIsSmall && arrivalDurationWouldntBeBig))

/-- The inner loop: what it yields and the acks that it leaves. The ack that ends a group has
    been peeked at only, so it is left. -/
def fillGroup (first : Ack) (group : AckGroupSummary) :
    List Ack → List (AckGroupSummary × Ack) × List Ack
  | [] => ([], [])
  | next :: rest =>
    if first.departure ≤ next.departure then
      if joins seconds first group next then fillGroup first (group.add next) rest
      else ([(group, next)], next :: rest)
    else fillGroup first group rest

theorem fillGroup_length (first : Ack) (acks : List Ack) : ∀ group,
    (fillGroup seconds first group acks).2.length ≤ acks.length := by
  induction acks with
  | nil => exact fun _ => Nat.le_refl _
  | cons next rest ih =>
    intro group
    unfold fillGroup
    split
    · split
      · exact Nat.le_succ_of_le (ih _)
      · exact Nat.le_refl _
    · exact Nat.le_succ_of_le (ih _)

def accumulateAckGroups : List Ack → List (AckGroupSummary × Ack)
  | [] => []
  | first :: rest =>
    let filled := fillGroup seconds first (AckGroupSummary.ofAck first) rest
    filled.1 ++ accumulateAckGroups filled.2
  termination_by acks => acks.length
  decreasing_by exact Nat.lt_succ_of_le (fillGroup_length seconds first rest _)

/-- The inner loop over groups: what it yields and the groups that it leaves. A break throws
    the group away that it came at. -/
def followGroup (group1 : AckGroupSummary) (consecutiveReorderings : ℕ) :
    List (AckGroupSummary × Ack) → List Delta × List (AckGroupSummary × Ack)
  | [] => ([], [])
  | (group2, latestAck) :: rest =>
    if group1.latestDeparture < group2.latestDeparture then
      let departureDelta := group2.latestDeparture - group1.latestDeparture
      let arrivalDelta := timeDeltaSince group2.latestArrival group1.latestArrival
      let feedbackDelta := group2.latestFeedbackArrival - group1.latestFeedbackArrival
      if group2.latestArrival < group1.latestArrival then
        if MAX_CONSECUTIVE_REORDERINGS ≤ consecutiveReorderings + 1 then ([], rest)
        else followGroup group1 (consecutiveReorderings + 1) rest
      else if seconds.asSecs (feedbackDelta + MAX_ARRIVAL_CHANGE : ℕ) ≤
          seconds.asSecs arrivalDelta then ([], rest)
      else
        let followed := followGroup group2 0 rest
        (⟨latestAck, departureDelta, arrivalDelta⟩ :: followed.1, followed.2)
    else followGroup group1 consecutiveReorderings rest

theorem followGroup_length (groups : List (AckGroupSummary × Ack)) : ∀ group1 reorderings,
    (followGroup seconds group1 reorderings groups).2.length ≤ groups.length := by
  induction groups with
  | nil => exact fun _ _ => Nat.le_refl _
  | cons group rest ih =>
    intro group1 reorderings
    unfold followGroup
    dsimp only
    split_ifs
    · exact Nat.le_succ _
    · exact Nat.le_succ_of_le (ih _ _)
    · exact Nat.le_succ _
    · exact Nat.le_succ_of_le (ih _ _)
    · exact Nat.le_succ_of_le (ih _ _)

def calculateAckDeltas : List (AckGroupSummary × Ack) → List Delta
  | [] => []
  | (group1, _) :: rest =>
    let followed := followGroup seconds group1 0 rest
    followed.1 ++ calculateAckDeltas followed.2
  termination_by groups => groups.length
  decreasing_by exact Nat.lt_succ_of_le (followGroup_length seconds rest _ _)

/-- The loops over acks as one machine, which has the first ack and the summary of its group. -/
def groupStep : Step (Option (Ack × AckGroupSummary)) Ack (AckGroupSummary × Ack)
  | none, ack => (some (ack, AckGroupSummary.ofAck ack), none)
  | some (first, group), next =>
    if first.departure ≤ next.departure then
      if joins seconds first group next then (some (first, group.add next), none)
      else (some (next, AckGroupSummary.ofAck next), some (group, next))
    else (some (first, group), none)

/-- The loops over groups as one machine, which has no group at first and after a restart. -/
def deltaStep : Step (Option (AckGroupSummary × ℕ)) (AckGroupSummary × Ack) Delta
  | none, (group1, _) => (some (group1, 0), none)
  | some (group1, reorderings), (group2, latestAck) =>
    if group1.latestDeparture < group2.latestDeparture then
      if group2.latestArrival < group1.latestArrival then
        if MAX_CONSECUTIVE_REORDERINGS ≤ reorderings + 1 then (none, none)
        else (some (group1, reorderings + 1), none)
      else if seconds.asSecs (group2.latestFeedbackArrival - group1.latestFeedbackArrival +
            MAX_ARRIVAL_CHANGE : ℕ) ≤
          seconds.asSecs (timeDeltaSince group2.latestArrival group1.latestArrival) then
        (none, none)
      else (some (group2, 0), some ⟨latestAck, group2.latestDeparture - group1.latestDeparture,
        timeDeltaSince group2.latestArrival group1.latestArrival⟩)
    else (some (group1, reorderings), none)

theorem groupStep_some (first : Ack) (group : AckGroupSummary) (next : Ack) :
    groupStep seconds (some (first, group)) next =
      if first.departure ≤ next.departure then
        if joins seconds first group next then (some (first, group.add next), none)
        else (some (next, AckGroupSummary.ofAck next), some (group, next))
      else (some (first, group), none) := rfl

theorem deltaStep_some (group1 group2 : AckGroupSummary) (reorderings : ℕ) (latestAck : Ack) :
    deltaStep seconds (some (group1, reorderings)) (group2, latestAck) =
      if group1.latestDeparture < group2.latestDeparture then
        if group2.latestArrival < group1.latestArrival then
          if MAX_CONSECUTIVE_REORDERINGS ≤ reorderings + 1 then (none, none)
          else (some (group1, reorderings + 1), none)
        else if seconds.asSecs (group2.latestFeedbackArrival - group1.latestFeedbackArrival +
              MAX_ARRIVAL_CHANGE : ℕ) ≤
            seconds.asSecs (timeDeltaSince group2.latestArrival group1.latestArrival) then
          (none, none)
        else (some (group2, 0), some ⟨latestAck, group2.latestDeparture - group1.latestDeparture,
          timeDeltaSince group2.latestArrival group1.latestArrival⟩)
      else (some (group1, reorderings), none) := rfl

theorem fillGroup_outputs (first : Ack) (acks : List Ack) : ∀ group,
    outputs (groupStep seconds) (some (first, group)) acks =
      (fillGroup seconds first group acks).1 ++
        outputs (groupStep seconds) none (fillGroup seconds first group acks).2 := by
  induction acks with
  | nil => exact fun _ => rfl
  | cons next rest ih =>
    intro group
    rw [outputs_cons, groupStep_some]
    unfold fillGroup
    split_ifs
    · exact ih _
    · rfl
    · exact ih _

/-- The loops over acks are the machine that regards each ack once. -/
theorem accumulateAckGroups_eq (acks : List Ack) :
    accumulateAckGroups seconds acks = outputs (groupStep seconds) none acks := by
  induction acks using accumulateAckGroups.induct seconds with
  | case1 =>
    unfold accumulateAckGroups
    rfl
  | case2 first rest filled ih =>
    unfold accumulateAckGroups
    dsimp only
    rw [ih]
    exact (fillGroup_outputs seconds first rest _).symm

theorem followGroup_outputs (groups : List (AckGroupSummary × Ack)) : ∀ group1 reorderings,
    outputs (deltaStep seconds) (some (group1, reorderings)) groups =
      (followGroup seconds group1 reorderings groups).1 ++
        outputs (deltaStep seconds) none (followGroup seconds group1 reorderings groups).2 := by
  induction groups with
  | nil => exact fun _ _ => rfl
  | cons group rest ih =>
    intro group1 reorderings
    rw [outputs_cons, deltaStep_some]
    unfold followGroup
    dsimp only
    split_ifs
    · rfl
    · exact ih _ _
    · rfl
    · exact congrArg (List.cons _) (ih _ _)
    · exact ih _ _

theorem calculateAckDeltas_eq (groups : List (AckGroupSummary × Ack)) :
    calculateAckDeltas seconds groups = outputs (deltaStep seconds) none groups := by
  induction groups using calculateAckDeltas.induct seconds with
  | case1 =>
    unfold calculateAckDeltas
    rfl
  | case2 group1 ack rest followed ih =>
    unfold calculateAckDeltas
    dsimp only
    rw [ih]
    exact (followGroup_outputs seconds rest group1 0).symm

end

/-- A group by the acks that were looked at while it was the current one. -/
structure Segment where
  first : Ack
  rest : List Ack

namespace Segment

def acks (segment : Segment) : List Ack := segment.first :: segment.rest

/-- The acks that left before the first one are dropped. -/
def joined (segment : Segment) : List Ack :=
  segment.rest.filter fun ack => segment.first.departure ≤ ack.departure

def members (segment : Segment) : List Ack := segment.first :: segment.joined

def summary (segment : Segment) : AckGroupSummary :=
  segment.joined.foldl AckGroupSummary.add (AckGroupSummary.ofAck segment.first)

end Segment

/-- Each group that is ended is yielded with the first ack of the next one. -/
def yieldsOf : List Segment → List (AckGroupSummary × Ack)
  | segment :: next :: rest => (segment.summary, next.first) :: yieldsOf (next :: rest)
  | _ => []

/-- The greatest that some acks have of a quantity, of which a summary keeps the latest. -/
def Latest (value : Ack → ℕ) (acks : List Ack) (latest : ℕ) : Prop :=
  IsGreatest {moment | ∃ ack ∈ acks, value ack = moment} latest

section
variable {Secs : Type} [LinearOrder Secs] (seconds : Seconds Secs)

/-- The acks fall into groups, one after another, and each group's summary has the latest
    moments of its members. -/
structure Grouping (acks : List Ack) (segments : List Segment) : Prop where
  covers : segments.flatMap Segment.acks = acks
  yielded : accumulateAckGroups seconds acks = yieldsOf segments
  latest : ∀ segment ∈ segments,
    Latest Ack.departure segment.members segment.summary.latestDeparture ∧
      Latest Ack.arrival segment.members segment.summary.latestArrival ∧
      Latest Ack.feedbackArrival segment.members segment.summary.latestFeedbackArrival

end

theorem summary_snoc {segment : Segment} {next : Ack}
    (after : segment.first.departure ≤ next.departure) :
    (⟨segment.first, segment.rest ++ [next]⟩ : Segment).summary = segment.summary.add next := by
  unfold Segment.summary Segment.joined
  rw [List.filter_append, List.filter_singleton, decide_eq_true after, List.foldl_append]
  rfl

theorem summary_dropped {segment : Segment} {next : Ack}
    (before : ¬ segment.first.departure ≤ next.departure) :
    (⟨segment.first, segment.rest ++ [next]⟩ : Segment).summary = segment.summary := by
  unfold Segment.summary Segment.joined
  rw [List.filter_append, List.filter_singleton, decide_eq_false before]
  exact congrArg (List.foldl _ _) (List.append_nil _)

section
variable {Secs : Type} [LinearOrder Secs] (seconds : Seconds Secs)

/-- From a group under way: the rest of its acks and the groups that come after it. -/
theorem groups_from (acks : List Ack) : ∀ segment : Segment, ∃ more later,
    (⟨segment.first, segment.rest ++ more⟩ :: later : List Segment).flatMap Segment.acks =
        segment.acks ++ acks ∧
      outputs (groupStep seconds) (some (segment.first, segment.summary)) acks =
        yieldsOf (⟨segment.first, segment.rest ++ more⟩ :: later) := by
  induction acks with
  | nil =>
    intro segment
    refine ⟨[], [], ?_, rfl⟩
    rw [List.append_nil, List.append_nil, List.flatMap_singleton]
  | cons next rest ih =>
    intro segment
    rw [outputs_cons, groupStep_some]
    by_cases after : segment.first.departure ≤ next.departure
    · rw [if_pos after]
      by_cases one : joins seconds segment.first segment.summary next = true
      · rw [if_pos one, ← summary_snoc after]
        obtain ⟨more, later, covers, yields⟩ := ih ⟨segment.first, segment.rest ++ [next]⟩
        refine ⟨next :: more, later, ?_, ?_⟩
        · rw [List.append_assoc] at covers
          rw [List.singleton_append] at covers
          rw [covers]
          simp [Segment.acks]
        · rw [List.append_assoc, List.singleton_append] at yields
          exact yields
      · rw [if_neg one]
        obtain ⟨more, later, covers, yields⟩ := ih ⟨next, []⟩
        refine ⟨[], ⟨next, [] ++ more⟩ :: later, ?_, ?_⟩
        · rw [List.append_nil, List.flatMap_cons, covers]
          rfl
        · rw [List.append_nil]
          exact congrArg (List.cons _) yields
    · rw [if_neg after]
      obtain ⟨more, later, covers, yields⟩ := ih ⟨segment.first, segment.rest ++ [next]⟩
      rw [summary_dropped after] at yields
      refine ⟨next :: more, later, ?_, ?_⟩
      · rw [List.append_assoc, List.singleton_append] at covers
        rw [covers]
        simp [Segment.acks]
      · rw [List.append_assoc, List.singleton_append] at yields
        exact yields

end

/-- The latest of what a summary has and of the acks that are added to it. -/
theorem foldl_add_latest {value : Ack → ℕ} {field : AckGroupSummary → ℕ}
    (added : ∀ group ack, field (group.add ack) = max (field group) (value ack))
    (acks : List Ack) : ∀ group,
      field group ≤ field (acks.foldl AckGroupSummary.add group) ∧
      (∀ ack ∈ acks, value ack ≤ field (acks.foldl AckGroupSummary.add group)) ∧
      (field (acks.foldl AckGroupSummary.add group) = field group ∨
        ∃ ack ∈ acks, value ack = field (acks.foldl AckGroupSummary.add group)) := by
  induction acks with
  | nil => exact fun group => ⟨Nat.le_refl _, fun _ member => absurd member List.not_mem_nil,
      Or.inl rfl⟩
  | cons ack rest ih =>
    intro group
    obtain ⟨low, each, which⟩ := ih (group.add ack)
    rw [added] at low which
    rw [List.foldl_cons]
    refine ⟨Nat.le_trans (Nat.le_max_left _ _) low, ?_, ?_⟩
    · intro other member
      rcases List.mem_cons.mp member with rfl | later
      · exact Nat.le_trans (Nat.le_max_right _ _) low
      · exact each other later
    · rcases which with same | ⟨other, later, same⟩
      · rcases Nat.le_total (field group) (value ack) with less | more
        · rw [Nat.max_eq_right less] at same
          exact Or.inr ⟨ack, List.mem_cons_self, same.symm⟩
        · rw [Nat.max_eq_left more] at same
          exact Or.inl same
      · exact Or.inr ⟨other, List.mem_cons_of_mem _ later, same⟩

theorem summary_latest {value : Ack → ℕ} {field : AckGroupSummary → ℕ}
    (added : ∀ group ack, field (group.add ack) = max (field group) (value ack))
    (own : ∀ ack, field (AckGroupSummary.ofAck ack) = value ack) (segment : Segment) :
    Latest value segment.members (field segment.summary) := by
  obtain ⟨low, each, which⟩ :=
    foldl_add_latest added segment.joined (AckGroupSummary.ofAck segment.first)
  rw [own] at low which
  constructor
  · rcases which with same | ⟨ack, member, same⟩
    · exact ⟨segment.first, List.mem_cons_self, same.symm⟩
    · exact ⟨ack, List.mem_cons_of_mem _ member, same⟩
  · rintro moment ⟨ack, member, rfl⟩
    rcases List.mem_cons.mp member with rfl | joined
    · exact low
    · exact each ack joined

section
variable {Secs : Type} [LinearOrder Secs] (seconds : Seconds Secs)

theorem accumulateAckGroups_grouping (acks : List Ack) :
    ∃ segments, Grouping seconds acks segments := by
  have latest : ∀ segments : List Segment, ∀ segment ∈ segments,
      Latest Ack.departure segment.members segment.summary.latestDeparture ∧
        Latest Ack.arrival segment.members segment.summary.latestArrival ∧
        Latest Ack.feedbackArrival segment.members segment.summary.latestFeedbackArrival :=
    fun _ segment _ =>
      ⟨@summary_latest Ack.departure AckGroupSummary.latestDeparture (fun _ _ => rfl)
        (fun _ => rfl) segment,
      @summary_latest Ack.arrival AckGroupSummary.latestArrival (fun _ _ => rfl)
        (fun _ => rfl) segment,
      @summary_latest Ack.feedbackArrival AckGroupSummary.latestFeedbackArrival (fun _ _ => rfl)
        (fun _ => rfl) segment⟩
  cases acks with
  | nil =>
    refine ⟨[], rfl, ?_, latest []⟩
    rw [accumulateAckGroups_eq]
    rfl
  | cons first rest =>
    obtain ⟨more, later, covers, yields⟩ := groups_from seconds rest ⟨first, []⟩
    refine ⟨⟨first, [] ++ more⟩ :: later, covers, ?_, latest _⟩
    rw [accumulateAckGroups_eq]
    exact yields

/-- The groups that deltas are measured to. -/
def used (state : Option (AckGroupSummary × ℕ)) :
    List (AckGroupSummary × Ack) → List AckGroupSummary
  | [] => []
  | input :: rest =>
    (if (deltaStep seconds state input).2.isSome then [input.1] else []) ++
      used (deltaStep seconds state input).1 rest

/-- A group is ignored or counted as reordered, leads to a restart, or is used. -/
inductive Followed (group1 : AckGroupSummary) (reorderings : ℕ) (group2 : AckGroupSummary)
    (latestAck : Ack) : Option (AckGroupSummary × ℕ) × Option Delta → Prop where
  | waits {count : ℕ} : Followed group1 reorderings group2 latestAck (some (group1, count), none)
  | restarts : Followed group1 reorderings group2 latestAck (none, none)
  | uses : group1.latestDeparture < group2.latestDeparture →
      group1.latestArrival ≤ group2.latestArrival →
      timeDeltaSince group2.latestArrival group1.latestArrival <
        (group2.latestFeedbackArrival - group1.latestFeedbackArrival + MAX_ARRIVAL_CHANGE : ℕ) →
      Followed group1 reorderings group2 latestAck
        (some (group2, 0), some ⟨latestAck, group2.latestDeparture - group1.latestDeparture,
          timeDeltaSince group2.latestArrival group1.latestArrival⟩)

theorem followed (group1 : AckGroupSummary) (reorderings : ℕ) (group2 : AckGroupSummary)
    (latestAck : Ack) : Followed group1 reorderings group2 latestAck
      (deltaStep seconds (some (group1, reorderings)) (group2, latestAck)) := by
  rw [deltaStep_some]
  by_cases later : group1.latestDeparture < group2.latestDeparture
  · rw [if_pos later]
    by_cases reordered : group2.latestArrival < group1.latestArrival
    · rw [if_pos reordered]
      split
      · exact Followed.restarts
      · exact Followed.waits
    · rw [if_neg reordered]
      split
      · exact Followed.restarts
      · rename_i small
        refine Followed.uses later (Nat.le_of_not_lt reordered) ?_
        by_contra large
        exact small (seconds.mono _ _ (not_lt.mp large))
  · rw [if_neg later]
    exact Followed.waits

/-- Without a restart, the deltas add up to the way from the first group to the last used. -/
theorem deltas_add_up (stretch : List (AckGroupSummary × Ack)) :
    ∀ (first : AckGroupSummary) (reorderings : ℕ),
      (∀ part, part <+: stretch →
        final (deltaStep seconds) (some (first, reorderings)) part ≠ none) →
      ∃ last count,
        final (deltaStep seconds) (some (first, reorderings)) stretch = some (last, count) ∧
        (first :: used seconds (some (first, reorderings)) stretch).getLast? = some last ∧
        first.latestDeparture + ((outputs (deltaStep seconds) (some (first, reorderings))
          stretch).map Delta.departureDelta).sum = last.latestDeparture ∧
        (first.latestArrival : ℤ) + ((outputs (deltaStep seconds) (some (first, reorderings))
          stretch).map Delta.arrivalDelta).sum = last.latestArrival := by
  induction stretch with
  | nil => exact fun first reorderings _ => ⟨first, reorderings, rfl, rfl, rfl, by simp [outputs]⟩
  | cons input rest ih =>
    intro first reorderings unbroken
    have onward : ∀ part, part <+: rest → final (deltaStep seconds)
        (deltaStep seconds (some (first, reorderings)) input).1 part ≠ none :=
      fun part within => unbroken (input :: part) (List.prefix_cons_inj input |>.mpr within)
    have spec := followed seconds first reorderings input.1 input.2
    rw [outputs_cons]
    unfold final used
    generalize deltaStep seconds (some (first, reorderings)) input = result at spec onward ⊢
    cases spec with
    | @waits count => exact ih first count onward
    | restarts => exact absurd rfl (onward [] (List.nil_prefix))
    | uses later inOrder _ =>
      obtain ⟨last, count, ends, lastUsed, departures, arrivals⟩ := ih input.1 0 onward
      refine ⟨last, count, ends, ?_, ?_, ?_⟩
      · exact lastUsed
      · simp only [Option.toList_some, List.singleton_append, List.map_cons, List.sum_cons]
        omega
      · simp only [Option.toList_some, List.singleton_append, List.map_cons, List.sum_cons]
        unfold timeDeltaSince
        linarith

/-- Each delta is measured from the group at hand to one that left later and did not arrive
    earlier, and between two restarts the deltas add up. -/
structure Measured (groups : List (AckGroupSummary × Ack)) : Prop where
  bounds : ∀ delta ∈ calculateAckDeltas seconds groups, ∃ before group1 reorderings group2 after,
    groups = before ++ (group2, delta.ack) :: after ∧
    final (deltaStep seconds) none before = some (group1, reorderings) ∧
    delta.departureDelta = group2.latestDeparture - group1.latestDeparture ∧
    0 < delta.departureDelta ∧
    delta.arrivalDelta = timeDeltaSince group2.latestArrival group1.latestArrival ∧
    0 ≤ delta.arrivalDelta ∧ delta.arrivalDelta <
      (group2.latestFeedbackArrival - group1.latestFeedbackArrival + MAX_ARRIVAL_CHANGE : ℕ)
  addUp : ∀ before first ack stretch after, groups = before ++ (first, ack) :: (stretch ++ after) →
    final (deltaStep seconds) none before = none →
    (∀ part, part <+: stretch →
      final (deltaStep seconds) none (before ++ (first, ack) :: part) ≠ none) →
    ∃ last count deltas,
      final (deltaStep seconds) none (before ++ (first, ack) :: stretch) = some (last, count) ∧
      (first :: used seconds (some (first, 0)) stretch).getLast? = some last ∧
      calculateAckDeltas seconds (before ++ (first, ack) :: stretch) =
        calculateAckDeltas seconds before ++ deltas ∧
      first.latestDeparture + (deltas.map Delta.departureDelta).sum = last.latestDeparture ∧
      (first.latestArrival : ℤ) + (deltas.map Delta.arrivalDelta).sum = last.latestArrival

theorem calculateAckDeltas_measured (groups : List (AckGroupSummary × Ack)) :
    Measured seconds groups where
  bounds := by
    intro delta member
    rw [calculateAckDeltas_eq] at member
    obtain ⟨before, input, after, same, yields⟩ := mem_outputs groups member
    cases held : final (deltaStep seconds) none before with
    | none =>
      rw [held] at yields
      cases yields
    | some state =>
      have spec := followed seconds state.1 state.2 input.1 input.2
      rw [held] at yields
      generalize deltaStep seconds (some state) input = result at spec yields
      cases spec with
      | waits => cases yields
      | restarts => cases yields
      | uses later inOrder small =>
        cases yields
        refine ⟨before, state.1, state.2, input.1, after, same, held, rfl, ?_, rfl, ?_, small⟩
        · exact Nat.sub_pos_of_lt later
        · exact Int.sub_nonneg_of_le (Int.ofNat_le.mpr inOrder)
  addUp := by
    intro before first ack stretch after _ fresh unbroken
    have onward : ∀ part, final (deltaStep seconds) none (before ++ (first, ack) :: part) =
        final (deltaStep seconds) (some (first, 0)) part := by
      intro part
      rw [final_append, fresh]
      rfl
    obtain ⟨last, count, ends, lastUsed, departures, arrivals⟩ :=
      deltas_add_up seconds stretch first 0 (fun part within => onward part ▸ unbroken part within)
    refine ⟨last, count, outputs (deltaStep seconds) (some (first, 0)) stretch, ?_, lastUsed, ?_,
      departures, arrivals⟩
    · rw [onward, ends]
    · rw [calculateAckDeltas_eq, calculateAckDeltas_eq, outputs_append, fresh]
      rfl

/-- No ack is lost in the grouping, and the deltas are consistent. -/
theorem grouping_and_deltas :
    (∀ acks, ∃ segments, Grouping seconds acks segments) ∧ ∀ groups, Measured seconds groups :=
  ⟨accumulateAckGroups_grouping seconds, calculateAckDeltas_measured seconds⟩

end

end AckGroups
