import Nebula.Switchboard.ConferenceLinks

/- A call of a channel that has hung up ends: each of its steps lowers what remains, and a step of
   another channel raises that by a constant. -/
namespace Conferences
open Interleaving

section Remaining
variable (conference : Conference) (channel : ℕ) (shared : Shared)

/-- The chairmans that are there or still to be asked. Each that is passed over is taken out, so
    that asking them again does not count them again. -/
def asked : Stage → ℕ
  | .chairman_joined _ (some chairmans) => (shared.chairmans ∪ chairmans.toFinset).card
  | _ => shared.chairmans.card

/-- How many more steps there are at most, chairmans apart. -/
def stepsLeft (found : List ℕ) : Stage → ℕ
  | .idle | .left | .no_chairman _ _ => 0
  | .unbridge_media tasks => tasks.length + 1
  | .leave_members => 5 * shared.members.card + 2
  | .leave_event => 5 * shared.members.card + 3
  | .leave => 5 * shared.members.card + 4
  | .wait start => 5 * shared.members.card + if start < shared.leaves then 11 else 5
  | .play_moh _ _ => 5 * shared.members.card + 6
  | .play_sound _ _ => 5 * shared.members.card + 7
  | .play_alone => 5 * shared.members.card + 8
  | .bridge_media links => 5 * shared.members.card + links.length + 9
  | .chairman_joined site chairmans => 5 * shared.members.card + (match site with
      | .wait => 9
      | .wait_again => 6
      | _ => (bridges conference channel found).length + 10) + if chairmans.isSome then 0 else 1
  | .join_members => 13 * shared.members.card + 12
  | .join_event => 13 * shared.members.card + 13
  | .join_chairman => 13 * shared.members.card + 15

def remaining (proc : Proc) : ℕ :=
  stepsLeft conference channel shared proc.found proc.stage + asked shared proc.stage

end Remaining

section Lowers
variable {conference : Conference} {world : World Shared Proc} {channel : ℕ} {shared : Shared}
  {proc : Proc}

theorem lists_length {order : List ℕ} {set : Finset ℕ} (lists : Lists order set) :
    order.length = set.card := by
  rw [← lists.2, List.toFinset_card_of_nodup lists.1]

theorem bridges_length (members : List ℕ) :
    (bridges conference channel members).length ≤ 8 * members.length := by
  have each : ∀ src dst, (bridge_media conference src dst).length ≤ 4 := by
    intro src dst
    unfold bridge_media
    split <;> simp
  induction members with
  | nil => exact Nat.le_refl _
  | cons member rest ih =>
    have first := each channel member
    have second := each member channel
    by_cases own : member = channel
    · have same :
          bridges conference channel (member :: rest) = bridges conference channel rest := by
        simp [bridges, own]
      rw [same, List.length_cons]
      omega
    · have more : bridges conference channel (member :: rest) =
          (bridge_media conference channel member ++ bridge_media conference member channel) ++
            bridges conference channel rest := by
        simp [bridges, own]
      rw [more, List.length_append, List.length_append, List.length_cons]
      omega

theorem unbridges_length (members : List ℕ) :
    (unbridges channel members).length ≤ 5 * members.length := by
  induction members with
  | nil => exact Nat.le_refl _
  | cons member rest ih =>
    by_cases own : member = channel
    · have same : unbridges channel (member :: rest) = unbridges channel rest := by
        simp [unbridges, own]
      rw [same, List.length_cons]
      omega
    · have more : (unbridges channel (member :: rest)).length =
          5 + (unbridges channel rest).length := by
        simp [unbridges, unbridge_media, own]
        omega
      rw [more, List.length_cons]
      omega

/-- A chairman that is passed over is no longer there nor still to be asked. -/
theorem asked_fewer {chairmans : Finset ℕ} {chairman : ℕ} {rest : List ℕ}
    (nodup : (chairman :: rest).Nodup) :
    (chairmans.erase chairman ∪ rest.toFinset).card + 1 ≤
      (chairmans ∪ (chairman :: rest).toFinset).card := by
  have new : chairman ∉ rest.toFinset := by
    rw [List.mem_toFinset]
    exact (List.nodup_cons.mp nodup).1
  have same : chairmans.erase chairman ∪ rest.toFinset =
      (chairmans ∪ (chairman :: rest).toFinset).erase chairman := by
    ext other
    simp only [Finset.mem_union, Finset.mem_erase, List.mem_toFinset, List.mem_cons]
    constructor
    · rintro (⟨apart, there⟩ | listed)
      · exact ⟨apart, Or.inl there⟩
      · refine ⟨?_, Or.inr (Or.inr listed)⟩
        rintro rfl
        exact new (List.mem_toFinset.mpr listed)
    · rintro ⟨apart, there | rfl | listed⟩
      · exact Or.inl ⟨apart, there⟩
      · exact absurd rfl apart
      · exact Or.inr listed
  have member : chairman ∈ chairmans ∪ (chairman :: rest).toFinset :=
    Finset.mem_union_right _ (List.mem_toFinset.mpr List.mem_cons_self)
  rw [same, Finset.card_erase_of_mem member]
  have some := Finset.card_pos.mpr ⟨chairman, member⟩
  omega

/-- With a chairman the place goes on, and none of the chairmans is to be asked any more. -/
theorem answered_lowers {site : Site} {chairmans : Option (List ℕ)} {joined : Bool}
    (answered : joined = true ∨ site = .join ∧ conference.needs_chairman = false)
    (rest : List ℕ) (listed : chairmans = some rest) (found : List ℕ) :
    remaining conference channel shared
      ⟨site.answered conference channel shared found joined, found⟩ <
    remaining conference channel shared ⟨.chairman_joined site chairmans, found⟩ := by
  subst listed
  have fewer : shared.chairmans.card ≤ (shared.chairmans ∪ rest.toFinset).card :=
    Finset.card_le_card Finset.subset_union_left
  have goesOn : site.answered conference channel shared found joined =
      site.answered conference channel shared found true := by
    rcases answered with rfl | ⟨rfl, free⟩
    · rfl
    · simp [Site.answered, free]
  rw [goesOn]
  cases site <;> simp [Site.answered, remaining, stepsLeft, asked] <;> omega

theorem carryOut_chairmans (task : Task) : (shared.carryOut task).chairmans = shared.chairmans := by
  cases task with
  | check_hangup member =>
    simp only [Shared.carryOut]
    split <;> rfl
  | unlink link => rfl

theorem step_lowers (kept : Kept conference world) {choice : Choice}
    (hung : channel ∈ world.shared.hungUp) (begun : (world.procs channel).stage.begun)
    (attended : Attended conference world (.proc channel choice))
    (stepped : step conference channel world.shared choice (world.procs channel) =
      some (shared, proc)) :
    remaining conference channel shared proc <
      remaining conference channel world.shared (world.procs channel) := by
  have known := kept.known channel
  simp only [Attended] at attended
  cases at_proc : world.procs channel with
  | mk stage found =>
    rw [at_proc] at known attended stepped begun
    unfold step at stepped
    dsimp only at known attended stepped begun
    split at stepped
    -- join, which a call that is under way has begun
    · exact begun.elim
    · cases stepped
      simp only [remaining, stepsLeft, asked]
      split
      · have more := Finset.card_insert_le channel world.shared.chairmans
        simp only
        omega
      · omega
    · cases stepped
      simp only [remaining, stepsLeft, asked]
      omega
    · split at stepped <;> cases stepped
      rename_i members lists
      have links := @bridges_length conference channel members
      rw [lists_length lists] at links
      simp only [remaining, stepsLeft, asked, Option.isSome_none]
      simp
      omega
    -- chairman_joined, which passes over one chairman after the other
    · split at stepped <;> cases stepped
      rename_i site chairmans lists
      have same : world.shared.chairmans ∪ chairmans.toFinset = world.shared.chairmans := by
        rw [lists.2, Finset.union_idempotent]
      simp [remaining, stepsLeft, asked, same]
    · split at stepped <;> cases stepped
      · have fewer := @asked_fewer world.shared.chairmans _ _ known
        simp only [remaining, stepsLeft, asked, Option.isSome_some]
        omega
      · exact answered_lowers (Or.inl rfl) _ rfl found
    · cases stepped
      exact answered_lowers (Or.inr (attended hung)) _ rfl found
    -- the loops without a chairman
    · exact absurd hung known
    · exact absurd hung known
    -- bridge_media and play_alone
    · cases stepped
      simp [remaining, stepsLeft, asked]
    · cases stepped
      simp [remaining, stepsLeft, asked]
    · split at stepped <;> cases stepped
      split <;> simp [remaining, stepsLeft, asked]
    · cases stepped
      split <;> simp [remaining, stepsLeft, asked]
    iterate 4
      · split at stepped <;> cases stepped
        simp [remaining, stepsLeft, asked]
    -- wait, where an event that has not been seen yet may come first
    · rw [if_pos hung] at stepped
      cases stepped
      simp only [remaining, stepsLeft, asked]
      split <;> omega
    · split at stepped <;> cases stepped
      rename_i unseen
      split <;> simp [remaining, stepsLeft, asked, unseen]
    -- leave
    · cases stepped
      have fewer := Finset.card_le_card (Finset.erase_subset channel world.shared.members)
      simp only [remaining, stepsLeft, asked]
      omega
    · cases stepped
      simp only [remaining, stepsLeft, asked]
      omega
    · split at stepped <;> cases stepped
      rename_i members lists
      have tasks := @unbridges_length channel members
      rw [lists_length lists] at tasks
      simp only [remaining, stepsLeft, asked]
      omega
    · cases stepped
      simp only [remaining, stepsLeft, asked, carryOut_chairmans, List.length_cons]
      omega
    · cases stepped
      simp [remaining, stepsLeft, asked]
    · cases stepped

end Lowers

section Raises
variable {conference : Conference} {world : World Shared Proc} {channel other : ℕ}
  {before shared : Shared} {proc after : Proc}

/-- What a step may add, and by whom. -/
structure Grows (channel : ℕ) (before after : Shared) : Prop where
  members : after.members ⊆ insert channel before.members
  chairmans : after.chairmans ⊆ insert channel before.chairmans
  hungUp : after.hungUp = before.hungUp

theorem grows_same (members : shared.members = before.members)
    (chairmans : shared.chairmans = before.chairmans) (hungUp : shared.hungUp = before.hungUp) :
    Grows channel before shared := by
  refine ⟨?_, ?_, hungUp⟩
  · rw [members]
    exact Finset.subset_insert _ _
  · rw [chairmans]
    exact Finset.subset_insert _ _

theorem carryOut_grows (task : Task) : Grows channel before (before.carryOut task) := by
  cases task with
  | check_hangup member =>
    simp only [Shared.carryOut]
    split
    · exact ⟨(Finset.erase_subset _ _).trans (Finset.subset_insert _ _),
        Finset.subset_insert _ _, rfl⟩
    · exact grows_same rfl rfl rfl
  | unlink link => exact grows_same rfl rfl rfl

theorem step_grows {choice : Choice}
    (stepped : step conference channel before choice proc = some (shared, after)) :
    Grows channel before shared := by
  unfold step at stepped
  split at stepped
  -- join adds itself to the members and to the chairmans
  · cases stepped
    exact ⟨Finset.Subset.refl _, Finset.subset_insert _ _, rfl⟩
  · cases stepped
    split
    · exact ⟨Finset.subset_insert _ _, Finset.Subset.refl _, rfl⟩
    · exact grows_same rfl rfl rfl
  · cases stepped
    exact grows_same rfl rfl rfl
  iterate 2
    · split at stepped <;> cases stepped
      exact grows_same rfl rfl rfl
  -- chairman_joined takes out the chairmans that have hung up
  · split at stepped <;> cases stepped
    · exact ⟨Finset.subset_insert _ _,
        (Finset.erase_subset _ _).trans (Finset.subset_insert _ _), rfl⟩
    · exact grows_same rfl rfl rfl
  · cases stepped
    exact grows_same rfl rfl rfl
  iterate 2
    · split at stepped <;> cases stepped
      exact grows_same rfl rfl rfl
  -- bridge_media, play_alone and wait
  iterate 2
    · cases stepped
      exact grows_same rfl rfl rfl
  · split at stepped <;> cases stepped
    exact grows_same rfl rfl rfl
  · cases stepped
    exact grows_same rfl rfl rfl
  iterate 6
    · split at stepped <;> cases stepped
      exact grows_same rfl rfl rfl
  -- leave
  · cases stepped
    exact ⟨(Finset.erase_subset _ _).trans (Finset.subset_insert _ _), Finset.subset_insert _ _,
      rfl⟩
  · cases stepped
    exact grows_same rfl rfl rfl
  · split at stepped <;> cases stepped
    exact grows_same rfl rfl rfl
  · cases stepped
    exact carryOut_grows _
  · cases stepped
    exact grows_same rfl rfl rfl
  · cases stepped

theorem step_begun {choice : Choice}
    (stepped : step conference channel before choice proc = some (shared, after)) :
    after.stage.begun := by
  have goesOn : ∀ site joined found,
      (Site.answered conference channel before found site joined).begun := by
    intro site joined found
    cases site with
    | join =>
      simp only [Site.answered]
      split <;> trivial
    | join_again | wait | wait_again => cases joined <;> trivial
  unfold step at stepped
  split at stepped
  iterate 3
    · cases stepped
      trivial
  iterate 2
    · split at stepped <;> cases stepped
      trivial
  -- chairman_joined
  · split at stepped <;> cases stepped
    · trivial
    · exact goesOn _ _ _
  · cases stepped
    exact goesOn _ _ _
  iterate 2
    · split at stepped <;> cases stepped
      trivial
  iterate 2
    · cases stepped
      trivial
  -- play_alone
  · split at stepped <;> cases stepped
    split <;> trivial
  · cases stepped
    split <;> trivial
  iterate 5
    · split at stepped <;> cases stepped
      trivial
  -- wait
  · split at stepped <;> cases stepped
    split <;> trivial
  iterate 2
    · cases stepped
      trivial
  · split at stepped <;> cases stepped
    trivial
  iterate 2
    · cases stepped
      trivial
  · cases stepped

theorem asked_raises (grows : Grows other before shared) (stage : Stage) :
    asked shared stage ≤ asked before stage + 1 := by
  have alone := (Finset.card_le_card grows.chairmans).trans (Finset.card_insert_le _ _)
  cases stage with
  | chairman_joined site chairmans =>
    cases chairmans with
    | none => exact alone
    | some chairmans =>
      have more : shared.chairmans ∪ chairmans.toFinset ⊆
          insert other (before.chairmans ∪ chairmans.toFinset) := by
        rw [← Finset.insert_union]
        exact Finset.union_subset_union_left grows.chairmans
      exact (Finset.card_le_card more).trans (Finset.card_insert_le _ _)
  | _ => exact alone

theorem remaining_raises (grows : Grows other before shared) (proc : Proc) :
    remaining conference channel shared proc ≤ remaining conference channel before proc + 14 := by
  have more := asked_raises grows proc.stage
  have members := (Finset.card_le_card grows.members).trans (Finset.card_insert_le _ _)
  unfold remaining
  cases stage : proc.stage with
  | wait start =>
    rw [stage] at more
    simp only [stepsLeft]
    split <;> split <;> omega
  | _ =>
    rw [stage] at more
    simp only [stepsLeft]
    omega

end Raises

section Runs
variable {conference : Conference} {world : World Shared Proc} {channel : ℕ}

theorem lists_exists (set : Finset ℕ) : ∃ order, Lists order set :=
  ⟨set.toList, Finset.nodup_toList set, Finset.toList_toFinset set⟩

/-- A call that is under way can go on, whatever the others do, once its channel has hung up. -/
theorem goes_on (kept : Kept conference world) (hung : channel ∈ world.shared.hungUp)
    (begun : (world.procs channel).stage.begun) : (world.procs channel).stage = .left ∨
      ∃ choice next, act (calls conference) world (.proc channel choice) = some next := by
  have enabled : ∀ choice, (step conference channel world.shared choice
      (world.procs channel)).isSome → ∃ choice next,
        act (calls conference) world (.proc channel choice) = some next := by
    intro choice some
    obtain ⟨⟨shared, proc⟩, stepped⟩ := Option.isSome_iff_exists.mp some
    exact ⟨choice, _, act_proc stepped⟩
  have known := kept.known channel
  obtain ⟨members, listsMembers⟩ := lists_exists world.shared.members
  obtain ⟨chairmans, listsChairmans⟩ := lists_exists world.shared.chairmans
  cases at_stage : (world.procs channel).stage with
  | left => exact Or.inl rfl
  | idle =>
    rw [at_stage] at begun
    exact begun.elim
  | join_chairman | join_event | leave | leave_event | play_sound member start =>
    exact Or.inr (enabled .next (by simp [step, at_stage]))
  | join_members | play_alone | leave_members =>
    exact Or.inr (enabled (.listed members) (by simp [step, at_stage, listsMembers]))
  | chairman_joined site asked =>
    cases asked with
    | none => exact Or.inr (enabled (.listed chairmans) (by simp [step, at_stage, listsChairmans]))
    | some asked =>
      refine Or.inr (enabled .next ?_)
      cases asked with
      | nil => simp [step, at_stage]
      | cons chairman rest =>
        simp only [step, at_stage]
        split <;> rfl
  | no_chairman in_wait start =>
    rw [at_stage] at known
    exact absurd hung known
  | bridge_media links =>
    exact Or.inr (enabled .next (by cases links <;> simp [step, at_stage]))
  | play_moh member start =>
    rw [at_stage] at known
    obtain rfl : member = channel := known
    exact Or.inr (enabled .hangup (by simp [step, at_stage, hung]))
  | wait start => exact Or.inr (enabled .hangup (by simp [step, at_stage, hung]))
  | unbridge_media tasks =>
    exact Or.inr (enabled .next (by cases tasks <;> simp [step, at_stage]))

/-- Has hung up in a call that goes on. -/
structure Ending (conference : Conference) (channel : ℕ) (world : World Shared Proc) : Prop where
  kept : Kept conference world
  hung : channel ∈ world.shared.hungUp
  begun : (world.procs channel).stage.begun

theorem ending_kept {action : Action Choice Event} {after : World Shared Proc}
    (ending : Ending conference channel world) (attended : Attended conference world action)
    (acted : act (calls conference) world action = some after) :
    Ending conference channel after := by
  refine ⟨action_kept world action after ending.kept attended acted, ?_, ?_⟩
  · rcases act_cases acted with ⟨mover, choice, shared, proc, rfl, stepped, rfl⟩ |
      ⟨event, shared, rfl, happened, rfl⟩
    · rw [moved_shared, (step_grows stepped).hungUp]
      exact ending.hung
    · cases event with
      | hangup caller =>
        simp only [calls, happen] at happened
        split at happened <;> cases happened
        exact Finset.mem_insert_of_mem ending.hung
  · rcases act_cases acted with ⟨mover, choice, shared, proc, rfl, stepped, rfl⟩ |
      ⟨event, shared, rfl, happened, rfl⟩
    · exact each_moved (fun other proc => (world.procs other).stage.begun → proc.stage.begun)
        (fun _ => step_begun stepped) (fun _ _ before => before) channel ending.begun
    · exact ending.begun

theorem Kept.ends (kept : Kept conference world) (hung : channel ∈ world.shared.hungUp)
    (begun : (world.procs channel).stage.begun) :
    Completion.Completes (calls conference) (Attended conference) channel
      (fun proc => proc.stage = .left) world := by
  refine Completion.completes_of_potential (Ending conference channel)
    (fun world => remaining conference channel world.shared (world.procs channel)) 14
    ⟨kept, hung, begun⟩ (fun _ _ _ ending attended acted => ending_kept ending attended acted)
    (fun before choice after ending attended acted => ?_)
    (fun before action after ending attended another acted => ?_)
    fun before ending => goes_on ending.kept ending.hung ending.begun
  · rcases act_cases acted with ⟨mover, own, shared, proc, same, stepped, rfl⟩ | ⟨event, _, same, _⟩
    · cases same
      rw [moved_shared, moved_same]
      exact step_lowers ending.kept ending.hung ending.begun attended stepped
    · cases same
  · rcases act_cases acted with ⟨mover, choice, shared, proc, rfl, stepped, rfl⟩ |
      ⟨event, shared, rfl, happened, rfl⟩
    · have apart : channel ≠ mover := by
        rintro rfl
        exact another choice rfl
      rw [moved_shared, moved_other _ _ _ apart]
      exact remaining_raises (step_grows stepped) _
    · cases event with
      | hangup caller =>
        simp only [calls, happen] at happened
        split at happened <;> cases happened
        exact Nat.le_add_right _ _

/-- Where no one hangs up while waiting for a chairman, and the other conditions hold, every call
    of a channel that has hung up ends, and the links are those of the members. -/
theorem conference_right (conference : Conference) (world : World Shared Proc)
    (run : Run (calls conference) (Attended conference) start world) :
    Right conference (Attended conference) world := by
  have kept : Kept conference world :=
    run_keeps (Kept conference) start_kept action_kept run
  exact ⟨fun _ hung begun => kept.ends hung begun, fun _ left => kept.out left,
    fun _ among _ also different joined memberJoined link listed =>
      kept.connected among also different joined memberJoined link listed,
    fun _ among _ left link stored => kept.apart among left link stored⟩

def moves (channel : ℕ) (choices : List Choice) : List (Action Choice Event) :=
  choices.map (.proc channel)

/-- Two members are linked, and one of them hangs up and leaves. -/
def visit : List (Action Choice Event) :=
  moves 0 [.next, .next, .next, .listed [0], .listed [], .next, .next, .listed [0]] ++
    moves 1 ([.next, .next, .next, .listed [0, 1], .listed [], .next] ++ List.replicate 5 .next ++
      [.listed [1, 0]]) ++
    .outside (.hangup 0) :: moves 0 ([.event, .hangup, .next, .next, .listed [1]] ++
      List.replicate 6 .next)

def inService : Stage → Bool
  | .idle | .left | .unbridge_media _ => false
  | _ => true

def minded (world : World Shared Proc) : Action Choice Event → Bool
  | .outside (.hangup channel) => inService (world.procs channel).stage &&
    match (world.procs channel).stage with
    | .no_chairman _ _ => false
    | _ => true
  | .proc channel _ => match (world.procs channel).stage with
    | .chairman_joined _ (some []) => channel ∉ world.shared.hungUp
    | .bridge_media (link :: _) => inService (world.procs link.src_channel).stage &&
      inService (world.procs link.dst_channel).stage
    | .play_sound member _ => member = channel
    | .leave_members => decide (∀ link ∈ world.shared.links, link.media = .audio)
    | _ => true

theorem inService_clears {stage : Stage} (passed : inService stage = true) (link : Link) :
    stage.clears link := by
  cases stage with
  | idle | left | unbridge_media tasks => cases passed
  | _ => trivial

theorem minded_attended (conference : Conference) (world : World Shared Proc)
    (action : Action Choice Event) (passed : minded world action = true) :
    Attended conference world action := by
  cases action with
  | outside event =>
    cases event with
    | hangup channel =>
      simp only [minded] at passed
      simp only [Attended]
      cases at_stage : (world.procs channel).stage with
      | no_chairman in_wait start =>
        rw [at_stage] at passed
        exact absurd passed Bool.false_ne_true
      | _ => trivial
  | proc channel choice =>
    simp only [minded] at passed
    simp only [Attended]
    cases at_stage : (world.procs channel).stage with
    | chairman_joined site chairmans =>
      rw [at_stage] at passed
      cases chairmans with
      | none => trivial
      | some chairmans =>
        cases chairmans with
        | nil => exact fun hung => absurd hung (of_decide_eq_true passed)
        | cons chairman rest => trivial
    | bridge_media links =>
      rw [at_stage] at passed
      cases links with
      | nil => trivial
      | cons link rest =>
        obtain ⟨src, dst⟩ := Bool.and_eq_true_iff.mp passed
        exact ⟨inService_clears src _, inService_clears dst _⟩
    | play_sound member start =>
      rw [at_stage] at passed
      exact fun _ _ => of_decide_eq_true passed
    | leave_members =>
      rw [at_stage] at passed
      intro link stored video
      have audio := of_decide_eq_true passed link stored
      rw [video] at audio
      cases audio
    | _ => trivial

def plain : Conference := ⟨false, true, fun _ => false, fun _ => false⟩

theorem conference_right_visit : ∃ world, Right plain (Attended plain) world ∧
    (world.procs 0).stage = .left ∧ world.shared.members = {1} ∧ world.shared.links = ∅ := by
  have ran : ∃ world, runWhere (calls plain) minded start visit = some world ∧
      (world.procs 0).stage = .left ∧ world.shared.members = {1} ∧ world.shared.links = ∅ :=
    ⟨_, rfl, rfl, by decide, by decide⟩
  obtain ⟨world, ran, left, members, links⟩ := ran
  have run := run_of_runWhere (minded_attended plain) visit ran
  exact ⟨world, conference_right plain world run, left, members, links⟩

/-- A member waits for a chairman and hangs up. -/
def forgotten : List (Action Choice Event) :=
  moves 0 [.next, .next, .next, .listed [0], .listed [], .next] ++ [.outside (.hangup 0)]

def chaired : Conference := ⟨true, true, fun _ => false, fun _ => false⟩

/-- The hang-up is received over and over, and join never ends. -/
theorem hang_up_unheard : ¬∀ (conference : Conference) (world : World Shared Proc),
    Run (calls conference) (fun _ _ => True) start world →
      Right conference (fun _ _ => True) world := by
  intro always
  have ran : ∃ world, runAll (calls chaired) start forgotten = some world ∧
      0 ∈ world.shared.hungUp ∧ (world.procs 0).stage.begun ∧
      (calls chaired).step 0 .hangup world.shared (world.procs 0) =
        some (world.shared, world.procs 0) := ⟨_, rfl, by decide, trivial, rfl⟩
  obtain ⟨world, ran, hung, begun, spins⟩ := ran
  have right := always chaired world (run_of_runAll forgotten ran)
  exact Completion.not_completes_of_spin trivial spins (right.ends 0 hung begun)

end Runs

end Conferences
