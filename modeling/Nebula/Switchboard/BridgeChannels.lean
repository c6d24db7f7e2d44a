import Nebula.Switchboard.BridgeSteps

/- Where the channels of a bridge are. A call that marks a bridge takes over every
   channel it has to hang up, and no channel gets lost between the two sets. -/
namespace BridgeChannels
open Interleaving Bridge BridgeSteps

theorem goOn_carries (mover : Mover) (rest : List Channel) (channel : Channel) :
    channel ∈ rest → carries (mover.goOn rest) channel := by
  intro member
  cases rest with
  | nil => cases member
  | cons first rest => exact List.mem_cons.1 member

theorem goOn_not_midway (mover : Mover) (rest : List Channel) (channel : Channel) :
    ¬ midway (mover.goOn rest) channel := by
  cases rest with
  | nil => cases mover <;> exact not_false
  | cons first rest => exact not_false

theorem midway_carries {proc : Proc} {channel : Channel} (mid : midway proc channel) :
    carries proc channel := by
  cases proc with
  | sadd mover first rest => exact Or.inl mid
  | _ => cases mid

theorem effect_shrinks {bridge after : Shared} {proc arrived : Proc}
    (effect : Effect bridge after proc arrived) :
    (∀ channel, channel ∈ after.channels → channel ∈ bridge.channels) ∧
      ∀ channel, channel ∈ bridge.hangupChannels → channel ∈ after.hangupChannels := by
  cases effect with
  | looks looks =>
    rw [looks.channels, looks.hangupChannels]
    exact ⟨fun _ member => member, fun _ member => member⟩
  | srem mover first rest =>
    exact ⟨fun channel member => (List.mem_filter.1 member).1, fun _ member => member⟩
  | sadd mover first rest =>
    exact ⟨fun _ member => member, fun channel member => List.mem_insert_of_mem member⟩
  | _ => exact ⟨fun _ member => member, fun _ member => member⟩

/-- A channel is taken out of the set by the command that makes its call carry it. -/
theorem effect_takes {bridge after : Shared} {proc arrived : Proc}
    (effect : Effect bridge after proc arrived) (channel : Channel) :
    (midway arrived channel → channel ∉ after.channels) ∧
      (channel ∈ bridge.channels → channel ∉ after.channels → midway arrived channel) := by
  cases effect with
  | looks looks =>
    refine ⟨fun mid => absurd mid (looks.starts.2 channel), fun member gone => ?_⟩
    rw [looks.channels] at gone
    exact absurd member gone
  | srem mover first rest =>
    constructor
    · intro mid member
      have kept := (List.mem_filter.1 member).2
      simp only [midway] at mid
      simp [mid] at kept
    · intro member gone
      by_contra other
      apply gone
      exact List.mem_filter.2 ⟨member, by simpa using other⟩
  | sadd mover first rest => exact ⟨fun mid => absurd mid not_false, fun member gone => absurd member gone⟩
  | mark ender => exact ⟨fun mid => absurd mid not_false, fun member gone => absurd member gone⟩
  | bridgeEvent ender =>
    exact ⟨fun mid => absurd mid not_false, fun member gone => absurd member gone⟩
  | members ender order _ =>
    exact ⟨fun mid => absurd mid (goOn_not_midway _ _ _), fun member gone => absurd member gone⟩
  | hangupEvent mover first rest =>
    exact ⟨fun mid => absurd mid (goOn_not_midway _ _ _), fun member gone => absurd member gone⟩

theorem effect_puts {bridge after : Shared} {proc arrived : Proc}
    (effect : Effect bridge after proc arrived) {channel : Channel} (mid : midway proc channel) :
    channel ∈ after.hangupChannels := by
  cases effect with
  | looks looks => exact absurd (midway_carries mid) (looks.idle channel)
  | sadd mover first rest =>
    simp only [midway] at mid
    subst mid
    exact List.mem_insert_self
  | _ => cases mid

/-- A call goes on carrying a channel, puts it into the other set, or finds it gone
    when it lists the set. -/
theorem effect_carries {bridge after : Shared} {proc arrived : Proc}
    (effect : Effect bridge after proc arrived) {channel : Channel}
    (carried : carries proc channel) :
    carries arrived channel ∨ midway proc channel ∨
      channel ∉ bridge.channels ∧ ¬ midway proc channel := by
  cases effect with
  | looks looks => exact absurd carried (looks.idle channel)
  | mark ender => cases carried
  | bridgeEvent ender => cases carried
  | srem mover first rest => exact Or.inl carried
  | sadd mover first rest =>
    rcases carried with first | later
    · exact Or.inr (Or.inl first)
    · exact Or.inl later
  | hangupEvent mover first rest => exact Or.inl (goOn_carries mover rest channel carried)
  | members ender order listed =>
    by_cases present : channel ∈ bridge.channels
    · left
      apply goOn_carries
      have member : channel ∈ order := listed.mem_iff.2 present
      cases ender with
      | answer own => exact List.mem_filter.2 ⟨member, by simpa using carried⟩
      | hangup result => exact member
    · exact Or.inr (Or.inr ⟨present, not_false⟩)

theorem effect_marks {bridge after : Shared} {proc arrived : Proc}
    (effect : Effect bridge after proc arrived) :
    after.marks = bridge.marks ∨ ∃ ender : Ender, arrived = .members ender ∧
      after.marks = ender.mark :: bridge.marks := by
  cases effect with
  | looks looks => exact Or.inl looks.marks
  | mark ender => exact Or.inr ⟨ender, rfl, rfl⟩
  | _ => exact Or.inl rfl

/- The channels that were added are in one of the sets or on the way between them,
   and those a marked bridge has to hang up are done or in the hands of a call. -/
structure Moving (added : List Channel) (world : World Shared Proc) : Prop where
  removed : ∀ pid channel, midway (world.procs pid) channel → channel ∉ world.shared.channels
  accounted : ∀ channel, channel ∈ added → channel ∈ world.shared.channels ∨
    channel ∈ world.shared.hangupChannels ∨ Pending midway world channel
  swept : world.shared.marks ≠ [] → ∀ channel, channel ∈ added →
    channel.id ≠ answerChannel world.shared →
      channel ∈ world.shared.hangupChannels ∧ channel ∉ world.shared.channels ∨
        Pending carries world channel

theorem removed_step {added : List Channel} {world : World Shared Proc} {pid : Nat}
    {after : Shared} {arrived : Proc} (moving : Moving added world)
    (effect : Effect world.shared after (world.procs pid) arrived) (other : Nat)
    (channel : Channel) (mid : midway ((world.moved pid after arrived).procs other) channel) :
    channel ∉ after.channels := by
  by_cases same : other = pid
  · subst same
    rw [moved_same] at mid
    exact (effect_takes effect channel).1 mid
  · rw [moved_other _ _ _ same] at mid
    intro member
    exact moving.removed other channel mid ((effect_shrinks effect).1 channel member)

theorem accounted_step {added : List Channel} {world : World Shared Proc} {pid : Nat}
    {after : Shared} {arrived : Proc} (moving : Moving added world)
    (effect : Effect world.shared after (world.procs pid) arrived) {channel : Channel}
    (isAdded : channel ∈ added) : channel ∈ after.channels ∨ channel ∈ after.hangupChannels ∨
      Pending midway (world.moved pid after arrived) channel := by
  rcases moving.accounted channel isAdded with member | done | pending
  · by_cases still : channel ∈ after.channels
    · exact Or.inl still
    · exact Or.inr (Or.inr (pending_moved ((effect_takes effect channel).2 member still)))
  · exact Or.inr (Or.inl ((effect_shrinks effect).2 channel done))
  · rcases pending_cases pid after arrived pending with own | kept
    · exact Or.inr (Or.inl (effect_puts effect own))
    · exact Or.inr (Or.inr kept)

/-- What a call carries stays carried or ends among the hung up channels. -/
theorem carried_step {added : List Channel} {world : World Shared Proc} {pid : Nat}
    {after : Shared} {arrived : Proc} (moving : Moving added world)
    (effect : Effect world.shared after (world.procs pid) arrived) {channel : Channel}
    (isAdded : channel ∈ added) (own : carries (world.procs pid) channel) :
    channel ∈ after.hangupChannels ∧ channel ∉ after.channels ∨
      Pending carries (world.moved pid after arrived) channel := by
  obtain ⟨shrinks, grows⟩ := effect_shrinks effect
  rcases effect_carries effect own with still | mid | ⟨gone, notMid⟩
  · exact Or.inr (pending_moved still)
  · left
    refine ⟨effect_puts effect mid, fun member => ?_⟩
    exact moving.removed pid channel mid (shrinks channel member)
  -- the listing has missed it, so somebody else has it or has put it away
  · rcases moving.accounted channel isAdded with member | done | elsewhere
    · exact absurd member gone
    · exact Or.inl ⟨grows channel done, fun member => gone (shrinks channel member)⟩
    · rcases pending_cases pid after arrived elsewhere with mid | ⟨other, mid⟩
      · exact absurd mid notMid
      · exact Or.inr ⟨other, midway_carries mid⟩

/-- The call that marks the bridge takes every other channel over. -/
theorem members_carries {after : Shared} {ender : Ender} {older : List Mark} {channel : Channel}
    (marks : after.marks = ender.mark :: older) (notAnswer : channel.id ≠ answerChannel after) :
    carries (.members ender) channel := by
  cases ender with
  | answer own =>
    intro same
    subst same
    simp [answerChannel, marks, Ender.mark, latestAnswer] at notAnswer
  | hangup result => trivial

theorem moving_step {added : List Channel} {world : World Shared Proc} {pid : Nat}
    {after : Shared} {arrived : Proc} (moving : Moving added world)
    (effect : Effect world.shared after (world.procs pid) arrived) :
    Moving added (world.moved pid after arrived) := by
  obtain ⟨shrinks, grows⟩ := effect_shrinks effect
  constructor
  · exact removed_step moving effect
  · intro channel isAdded
    exact accounted_step moving effect isAdded
  · intro marked channel isAdded notAnswer
    rcases effect_marks effect with same | ⟨ender, reached, marks⟩
    · simp only [moved_shared, answerChannel, same] at marked notAnswer
      rcases moving.swept marked channel isAdded notAnswer with ⟨done, gone⟩ | pending
      · exact Or.inl ⟨grows channel done, fun member => gone (shrinks channel member)⟩
      · rcases pending_cases pid after arrived pending with own | kept
        · exact carried_step moving effect isAdded own
        · exact Or.inr kept
    · right
      apply pending_moved
      rw [reached]
      exact members_carries marks notAnswer

theorem moving_of_run {guard : Guard Shared Proc Choice Nat} {first world : World Shared Proc}
    (fresh : Fresh first) (run : Run system guard first world) :
    Moving first.shared.channels world := by
  apply run_keeps (Moving first.shared.channels) _ _ run
  · constructor
    · intro pid channel mid
      have starts := fresh.procs pid
      cases stands : first.procs pid <;> simp_all [Proc.starting]
    · intro channel member
      exact Or.inl member
    · intro marked
      exact absurd fresh.marks marked
  · intro before action after moving _ acted
    rcases act_cases acted with ⟨pid, choice, shared, arrived, rfl, stepped, rfl⟩ |
      ⟨pid, shared, rfl, unlocked, rfl⟩
    · exact moving_step moving (step_effect stepped)
    · obtain ⟨lock, unlocking, rfl⟩ := unlock_same unlocked
      exact ⟨moving.removed, moving.accounted, moving.swept⟩

/-- When all calls have returned, a marked bridge has hung up what it had to. -/
theorem all_hung_up {guard : Guard Shared Proc Choice Nat} {first world : World Shared Proc}
    (fresh : Fresh first) (run : Run system guard first world)
    (returned : ∀ pid, world.procs pid = .returned) (marked : world.shared.marks ≠ [])
    {channel : Channel} (isAdded : channel ∈ first.shared.channels)
    (notAnswer : channel.id ≠ answerChannel world.shared) :
    channel ∈ world.shared.hangupChannels ∧ channel ∉ world.shared.channels := by
  rcases (moving_of_run fresh run).swept marked channel isAdded notAnswer with done | ⟨pid, carried⟩
  · exact done
  · rw [returned pid] at carried
    cases carried

end BridgeChannels
