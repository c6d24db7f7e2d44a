import Nebula.Switchboard.Conference

/- Who is linked to whom in a conference: every step keeps that the members that have joined are
   linked to each other, and that no link is left of a channel that has left. -/
namespace Conferences
open Interleaving

section Stages

/-- Between the command that adds a channel to the members and the one that takes it out. -/
def Stage.present : Stage → Prop
  | .idle | .leave_event | .leave_members | .unbridge_media _ | .left => False
  | _ => True

/-- Has looked who the members are. -/
def Stage.looked : Stage → Prop
  | .idle | .join_chairman | .join_event | .join_members => False
  | _ => True

/-- Will still add the link. -/
def Stage.owes (link : Link) : Stage → Prop
  | .chairman_joined .join _ | .chairman_joined .join_again _ | .no_chairman false _ => True
  | .bridge_media links => link ∈ links
  | _ => False

/-- What is known of a call where it stands. -/
def Stage.known (hungUp : Finset ℕ) (channel : ℕ) : Stage → Prop
  | .chairman_joined _ (some chairmans) => chairmans.Nodup
  | .no_chairman _ _ => channel ∉ hungUp
  | .play_moh member _ => member = channel
  | .unbridge_media tasks => ∀ link, .unlink link ∈ tasks →
    link.src_channel = channel ∨ link.dst_channel = channel
  | _ => True

theorem present_begun {stage : Stage} (present : stage.present) : stage.begun := by
  cases stage with
  | idle => exact present.elim
  | _ => trivial

theorem clears_begun {stage : Stage} {link : Link} (clears : stage.clears link) : stage.begun := by
  cases stage with
  | idle => exact clears.elim
  | _ => trivial

theorem joined_looked {stage : Stage} (joined : stage.joined) : stage.looked := by
  cases stage with
  | idle | join_chairman | join_event | join_members => exact joined.elim
  | _ => trivial

theorem joined_owes {stage : Stage} (joined : stage.joined) (link : Link) : ¬stage.owes link := by
  intro owes
  cases stage with
  | chairman_joined site chairmans => cases site <;> trivial
  | bridge_media links => exact joined.elim
  | no_chairman in_wait start => exact joined.elim
  | _ => exact owes.elim

end Stages

section Linked
variable {conference : Conference} {channel member : ℕ} {members : List ℕ} {link : Link}

/-- The links of two members in both directions. -/
def both (conference : Conference) (channel member : ℕ) : List Link :=
  bridge_media conference channel member ++ bridge_media conference member channel

theorem bridge_media_ends (listed : link ∈ bridge_media conference channel member) :
    link.src_channel = channel ∧ link.dst_channel = member := by
  unfold bridge_media at listed
  rcases List.mem_append.mp listed with audio | video
  · simp only [List.mem_cons, List.not_mem_nil, or_false] at audio
    rcases audio with rfl | rfl <;> exact ⟨rfl, rfl⟩
  · split at video
    · simp only [List.mem_cons, List.not_mem_nil, or_false] at video
      rcases video with rfl | rfl <;> exact ⟨rfl, rfl⟩
    · exact absurd video List.not_mem_nil

theorem both_between (listed : link ∈ both conference channel member) :
    link.between channel member :=
  (List.mem_append.mp listed).imp bridge_media_ends bridge_media_ends

theorem both_swap (listed : link ∈ both conference channel member) :
    link ∈ both conference member channel :=
  List.mem_append.mpr (List.mem_append.mp listed).symm

theorem mem_bridges : link ∈ bridges conference channel members ↔
    ∃ member ∈ members, member ≠ channel ∧ link ∈ both conference channel member := by
  simp [bridges, both, and_assoc]

/-- A link that is not one of video is among those that are removed in either direction. -/
theorem mem_unbridges (between : link.between channel member) (audio : link.media ≠ .video)
    (listed : member ∈ members) (other : member ≠ channel) :
    .unlink link ∈ unbridges channel members := by
  have removed : link ∈ unbridge_media channel member ++ unbridge_media member channel := by
    obtain ⟨side, media, src, dst⟩ := link
    cases media with
    | video => exact absurd rfl audio
    | audio =>
      rcases between with ⟨rfl, rfl⟩ | ⟨rfl, rfl⟩ <;> cases side <;> simp [unbridge_media]
  refine List.mem_flatMap.mpr ⟨member, by simpa using ⟨listed, other⟩, ?_⟩
  exact List.mem_cons_of_mem _ (List.mem_map_of_mem removed)

theorem unbridges_own (listed : .unlink link ∈ unbridges channel members) :
    link.src_channel = channel ∨ link.dst_channel = channel := by
  obtain ⟨member, _, among⟩ := List.mem_flatMap.mp listed
  rcases List.mem_cons.mp among with same | among
  · cases same
  · obtain ⟨removed, listed, same⟩ := List.mem_map.mp among
    cases same
    simp only [unbridge_media, List.mem_append, List.mem_cons, List.not_mem_nil, or_false] at listed
    rcases listed with (rfl | rfl) | (rfl | rfl)
    · exact Or.inl rfl
    · exact Or.inl rfl
    · exact Or.inr rfl
    · exact Or.inr rfl

end Linked

section Invariant

structure Kept (conference : Conference) (world : World Shared Proc) : Prop where
  present : ∀ channel ∈ world.shared.members, (world.procs channel).stage.present
  unfound : ∀ channel, ¬(world.procs channel).stage.looked → (world.procs channel).found = []
  found : ∀ channel, ∀ member ∈ (world.procs channel).found, (world.procs member).stage.begun
  known : ∀ channel, (world.procs channel).stage.known world.shared.hungUp channel
  linked : ∀ link ∈ world.shared.links, (world.procs link.src_channel).stage.begun ∧
    (world.procs link.dst_channel).stage.begun
  cleared : ∀ link ∈ world.shared.links, ∀ channel, ∀ member ∈ world.shared.members,
    link.between channel member → (world.procs channel).stage.clears link
  met : ∀ channel ∈ world.shared.members, ∀ member ∈ world.shared.members, channel ≠ member →
    (world.procs channel).stage.looked → (world.procs member).stage.looked →
      member ∈ (world.procs channel).found ∨ channel ∈ (world.procs member).found
  bridged : ∀ channel ∈ world.shared.members, ∀ member ∈ world.shared.members,
    channel ≠ member → member ∈ (world.procs channel).found →
      ∀ link ∈ both conference channel member,
        link ∈ world.shared.links ∨ (world.procs channel).stage.owes link

variable {conference : Conference} {world : World Shared Proc} {channel : ℕ} {shared : Shared}
  {before stage : Stage}

theorem start_kept : Kept conference start where
  present := fun _ member => absurd member (Finset.notMem_empty _)
  unfound := fun _ _ => rfl
  found := fun _ _ member => absurd member List.not_mem_nil
  known := fun _ => trivial
  linked := fun _ member => absurd member (Finset.notMem_empty _)
  cleared := fun _ member => absurd member (Finset.notMem_empty _)
  met := fun _ member => absurd member (Finset.notMem_empty _)
  bridged := fun _ member => absurd member (Finset.notMem_empty _)

/-- What is so of every channel before a step is so after it, if it is of the one that moves. -/
theorem each_moved {proc : Proc} (Holds : ℕ → Proc → Prop) (own : Holds channel proc)
    (others : ∀ other, other ≠ channel → Holds other (world.procs other)) (other : ℕ) :
    Holds other ((world.moved channel shared proc).procs other) := by
  by_cases same : other = channel
  · subst same
    rw [moved_same]
    exact own
  · rw [moved_other _ _ _ same]
    exact others other same

theorem moved_begun {proc : Proc} (begun : proc.stage.begun) {other : ℕ}
    (before : (world.procs other).stage.begun) :
    ((world.moved channel shared proc).procs other).stage.begun :=
  each_moved (fun other proc => (world.procs other).stage.begun → proc.stage.begun)
    (fun _ => begun) (fun _ _ before => before) other before

/-- A link whose ends have begun is still one after a step. -/
theorem moved_linked (kept : Kept conference world) {proc : Proc} (begun : proc.stage.begun)
    {link : Link} (stored : link ∈ world.shared.links) :
    ((world.moved channel shared proc).procs link.src_channel).stage.begun ∧
      ((world.moved channel shared proc).procs link.dst_channel).stage.begun :=
  (kept.linked link stored).imp (moved_begun begun) (moved_begun begun)

theorem moved_found (other : ℕ) :
    ((world.moved channel shared { world.procs channel with stage }).procs other).found =
      (world.procs other).found := by
  refine each_moved (fun other proc => proc.found = (world.procs other).found) ?_ ?_ other
  · rfl
  · exact fun _ _ => rfl

/-- A step that adds no member and no link. -/
theorem kept_moved (kept : Kept conference world) (at_stage : (world.procs channel).stage = before)
    (members : shared.members ⊆ world.shared.members) (links : shared.links ⊆ world.shared.links)
    (lost : ∀ link ∈ world.shared.links, link ∉ shared.links →
      link.src_channel ∉ shared.members ∨ link.dst_channel ∉ shared.members)
    (hungUp : shared.hungUp = world.shared.hungUp)
    (present : channel ∈ shared.members → stage.present)
    (looked : stage.looked ↔ before.looked) (begun : stage.begun)
    (clears : ∀ link ∈ shared.links, ∀ member ∈ shared.members, link.between channel member →
      before.clears link → stage.clears link)
    (owes : ∀ link ∈ bridges conference channel (world.procs channel).found,
      before.owes link → stage.owes link)
    (known : stage.known world.shared.hungUp channel) :
    Kept conference (world.moved channel shared { world.procs channel with stage }) := by
  subst at_stage
  have allLooked : ∀ other,
      ((world.moved channel shared { world.procs channel with stage }).procs other).stage.looked ↔
        (world.procs other).stage.looked :=
    each_moved (fun other proc => proc.stage.looked ↔ (world.procs other).stage.looked) looked
      fun _ _ => Iff.rfl
  refine ⟨?_, ?_, ?_, ?_, ?_, ?_, ?_, ?_⟩
  · exact each_moved (fun other proc => other ∈ shared.members → proc.stage.present) present
      fun other _ member => kept.present other (members member)
  · intro other new
    rw [allLooked] at new
    rw [moved_found]
    exact kept.unfound other new
  · intro other member listed
    rw [moved_found] at listed
    exact moved_begun begun (kept.found other member listed)
  · rw [moved_shared, hungUp]
    exact each_moved (fun other proc => proc.stage.known world.shared.hungUp other) known
      fun other _ => kept.known other
  · exact fun link listed => moved_linked kept begun (links listed)
  · intro link listed other member among between
    have before := kept.cleared link (links listed) other member (members among) between
    refine each_moved (fun other proc => link.between other member →
      (world.procs other).stage.clears link → proc.stage.clears link) ?_ ?_ other between before
    · exact clears link listed member among
    · exact fun _ _ _ before => before
  · intro one among other also different
    rw [allLooked, allLooked, moved_found, moved_found]
    exact kept.met one (members among) other (members also) different
  · intro one among other also different listed link ofBoth
    rw [moved_found] at listed
    rcases kept.bridged one (members among) other (members also) different listed link ofBoth with
      stored | owed
    · left
      by_contra gone
      rcases both_between ofBoth with ⟨src, dst⟩ | ⟨src, dst⟩
      · rcases lost link stored gone with absent | absent
        · exact absent (src ▸ among)
        · exact absent (dst ▸ also)
      · rcases lost link stored gone with absent | absent
        · exact absent (src ▸ also)
        · exact absent (dst ▸ among)
    · right
      refine each_moved (fun one proc => link ∈ bridges conference one (world.procs one).found →
        (world.procs one).stage.owes link → proc.stage.owes link) (owes link)
        (fun _ _ _ before => before) one
        (mem_bridges.mpr ⟨other, listed, Ne.symm different, ofBoth⟩) owed

/-- A call that only goes on. -/
theorem kept_aside (kept : Kept conference world) (at_stage : (world.procs channel).stage = before)
    (members : shared.members = world.shared.members) (links : shared.links = world.shared.links)
    (hungUp : shared.hungUp = world.shared.hungUp) (present : stage.present)
    (looked : stage.looked ↔ before.looked) (clears : ∀ link, stage.clears link)
    (owes : ∀ link ∈ bridges conference channel (world.procs channel).found,
      before.owes link → stage.owes link)
    (known : stage.known world.shared.hungUp channel) :
    Kept conference (world.moved channel shared { world.procs channel with stage }) := by
  refine kept_moved kept at_stage ?_ ?_ ?_ hungUp (fun _ => present) looked (present_begun present)
    (fun link _ _ _ _ _ => clears link) owes known
  · rw [members]
  · rw [links]
  · rw [links]
    exact fun link stored gone => absurd stored gone

/-- A call that goes on without a command that changes a set. -/
theorem kept_on (kept : Kept conference world) (at_stage : (world.procs channel).stage = before)
    (present : stage.present) (looked : stage.looked ↔ before.looked)
    (clears : ∀ link, stage.clears link)
    (owes : ∀ link ∈ bridges conference channel (world.procs channel).found,
      before.owes link → stage.owes link)
    (known : stage.known world.shared.hungUp channel) :
    Kept conference (world.moved channel world.shared { world.procs channel with stage }) :=
  kept_aside kept at_stage rfl rfl rfl present looked clears owes known

/-- A channel is added, that no one has found and nothing is linked to. -/
theorem kept_added (kept : Kept conference world)
    (before : (world.procs channel).stage = .idle) :
    Kept conference (world.moved channel
      { world.shared with members := insert channel world.shared.members }
      { world.procs channel with stage := .join_chairman }) := by
  have quiet : ¬(world.procs channel).stage.begun := by
    rw [before]
    exact id
  have stranger : ∀ other, channel ∉ (world.procs other).found :=
    fun other listed => quiet (kept.found other channel listed)
  have nothing : (world.procs channel).found = [] := kept.unfound channel (by rw [before]; exact id)
  have begun : Stage.join_chairman.begun := trivial
  refine ⟨?_, ?_, ?_, ?_, ?_, ?_, ?_, ?_⟩
  · refine each_moved (fun other proc => other ∈ insert channel world.shared.members →
      proc.stage.present) (fun _ => trivial) fun other different among => ?_
    exact kept.present other ((Finset.mem_insert.mp among).resolve_left different)
  · exact each_moved (fun _ proc => ¬proc.stage.looked → proc.found = []) (fun _ => nothing)
      fun other _ => kept.unfound other
  · intro other member listed
    rw [moved_found] at listed
    exact moved_begun begun (kept.found other member listed)
  · exact each_moved (fun other proc => proc.stage.known world.shared.hungUp other) trivial
      fun other _ => kept.known other
  · exact fun link stored => moved_linked kept begun stored
  · intro link stored other member among between
    have linked := kept.linked link stored
    have apart : other ≠ channel ∧ member ≠ channel := by
      constructor
      · rintro rfl
        rcases between with ⟨rfl, _⟩ | ⟨_, rfl⟩
        · exact quiet linked.1
        · exact quiet linked.2
      · rintro rfl
        rcases between with ⟨_, rfl⟩ | ⟨rfl, _⟩
        · exact quiet linked.2
        · exact quiet linked.1
    rw [moved_other _ _ _ apart.1]
    exact kept.cleared link stored other member
      ((Finset.mem_insert.mp among).resolve_left apart.2) between
  · intro one among other also different oneLooked otherLooked
    rw [moved_found, moved_found]
    have apart : ∀ some, ((world.moved channel
        { world.shared with members := insert channel world.shared.members }
        { world.procs channel with stage := .join_chairman }).procs some).stage.looked →
          some ≠ channel ∧ (world.procs some).stage.looked :=
      each_moved (fun some proc => proc.stage.looked →
        some ≠ channel ∧ (world.procs some).stage.looked) False.elim
        fun _ different before => ⟨different, before⟩
    have first := apart one oneLooked
    have second := apart other otherLooked
    exact kept.met one ((Finset.mem_insert.mp among).resolve_left first.1)
      other ((Finset.mem_insert.mp also).resolve_left second.1) different first.2 second.2
  · intro one among other also different listed link ofBoth
    rw [moved_found] at listed
    have oneOld : one ≠ channel := by
      rintro rfl
      rw [nothing] at listed
      exact absurd listed List.not_mem_nil
    have otherOld : other ≠ channel := by
      rintro rfl
      exact stranger one listed
    rw [moved_other _ _ _ oneOld]
    exact kept.bridged one ((Finset.mem_insert.mp among).resolve_left oneOld)
      other ((Finset.mem_insert.mp also).resolve_left otherOld) different listed link ofBoth

/-- A channel that finds the members owes all its links. -/
theorem kept_found (kept : Kept conference world) {members : List ℕ}
    (before : (world.procs channel).stage = .join_members)
    (lists : Lists members world.shared.members) :
    Kept conference (world.moved channel world.shared
      ⟨.chairman_joined .join none, members⟩) := by
  have among : ∀ member, member ∈ members ↔ member ∈ world.shared.members := by
    intro member
    rw [← lists.2, List.mem_toFinset]
  have begun : (Stage.chairman_joined .join none).begun := trivial
  refine ⟨?_, ?_, ?_, ?_, ?_, ?_, ?_, ?_⟩
  · exact each_moved (fun other proc => other ∈ world.shared.members → proc.stage.present)
      (fun _ => trivial) fun other _ => kept.present other
  · exact each_moved (fun _ proc => ¬proc.stage.looked → proc.found = [])
      (fun new => absurd trivial new) fun other _ => kept.unfound other
  · refine each_moved (fun _ proc => ∀ member ∈ proc.found, ((world.moved channel world.shared
      ⟨.chairman_joined .join none, members⟩).procs member).stage.begun) ?_ ?_
    · intro member listed
      exact moved_begun begun (present_begun (kept.present member ((among member).mp listed)))
    · exact fun other _ member listed => moved_begun begun (kept.found other member listed)
  · exact each_moved (fun other proc => proc.stage.known world.shared.hungUp other) trivial
      fun other _ => kept.known other
  · exact fun link stored => moved_linked kept begun stored
  · intro link stored other member also between
    have allClear : ∀ other, (world.procs other).stage.clears link → ((world.moved channel
        world.shared ⟨.chairman_joined .join none, members⟩).procs other).stage.clears link :=
      each_moved (fun other proc => (world.procs other).stage.clears link →
        proc.stage.clears link) (fun _ => trivial) fun _ _ before => before
    exact allClear other (kept.cleared link stored other member also between)
  · intro one isOne other isOther different oneLooked otherLooked
    by_cases first : one = channel
    · subst first
      left
      rw [moved_same]
      exact (among other).mpr isOther
    · by_cases second : other = channel
      · subst second
        right
        rw [moved_same]
        exact (among one).mpr isOne
      · rw [moved_other _ _ _ first] at oneLooked ⊢
        rw [moved_other _ _ _ second] at otherLooked ⊢
        exact kept.met one isOne other isOther different oneLooked otherLooked
  · intro one isOne other isOther different listed link ofBoth
    by_cases first : one = channel
    · subst first
      right
      rw [moved_same]
      trivial
    · rw [moved_other _ _ _ first] at listed ⊢
      exact kept.bridged one isOne other isOther different listed link ofBoth

/-- A link is added between channels that will remove it if they leave. -/
theorem kept_bridged (kept : Kept conference world) {link : Link} {rest : List Link}
    (before : (world.procs channel).stage = .bridge_media (link :: rest))
    (src : (world.procs link.src_channel).stage.clears link)
    (dst : (world.procs link.dst_channel).stage.clears link) :
    Kept conference (world.moved channel
      { world.shared with links := insert link world.shared.links }
      { world.procs channel with stage := .bridge_media rest }) := by
  have allClear : ∀ stored other, (world.procs other).stage.clears stored → ((world.moved channel
      { world.shared with links := insert link world.shared.links }
      { world.procs channel with stage := .bridge_media rest }).procs other).stage.clears stored :=
    fun stored => each_moved (fun other proc => (world.procs other).stage.clears stored →
      proc.stage.clears stored) (fun _ => trivial) fun _ _ before => before
  have allLooked : ∀ other, ((world.moved channel
      { world.shared with links := insert link world.shared.links }
      { world.procs channel with stage := .bridge_media rest }).procs other).stage.looked →
        (world.procs other).stage.looked :=
    each_moved (fun other proc => proc.stage.looked → (world.procs other).stage.looked)
      (fun _ => by rw [before]; trivial) fun _ _ before => before
  have begun : (Stage.bridge_media rest).begun := trivial
  refine ⟨?_, ?_, ?_, ?_, ?_, ?_, ?_, ?_⟩
  · exact each_moved (fun other proc => other ∈ world.shared.members → proc.stage.present)
      (fun _ => trivial) fun other _ => kept.present other
  · exact each_moved (fun _ proc => ¬proc.stage.looked → proc.found = [])
      (fun new => absurd trivial new) fun other _ => kept.unfound other
  · intro other member listed
    rw [moved_found] at listed
    exact moved_begun begun (kept.found other member listed)
  · exact each_moved (fun other proc => proc.stage.known world.shared.hungUp other) trivial
      fun other _ => kept.known other
  · intro stored listed
    rcases Finset.mem_insert.mp listed with rfl | earlier
    · exact ⟨moved_begun begun (clears_begun src), moved_begun begun (clears_begun dst)⟩
    · exact moved_linked kept begun earlier
  · intro stored listed other member among between
    apply allClear
    rcases Finset.mem_insert.mp listed with rfl | earlier
    · rcases between with ⟨rfl, _⟩ | ⟨_, rfl⟩
      · exact src
      · exact dst
    · exact kept.cleared stored earlier other member among between
  · intro one among other also different oneLooked otherLooked
    rw [moved_found, moved_found]
    exact kept.met one among other also different (allLooked one oneLooked)
      (allLooked other otherLooked)
  · intro one among other also different listed stored ofBoth
    rw [moved_found] at listed
    rcases kept.bridged one among other also different listed stored ofBoth with earlier | owed
    · exact Or.inl (Finset.mem_insert_of_mem earlier)
    · by_cases own : one = channel
      · subst own
        rw [before] at owed
        rcases List.mem_cons.mp owed with same | later
        · left
          rw [same]
          exact Finset.mem_insert_self _ _
        · right
          rw [moved_same]
          exact later
      · right
        rw [moved_other _ _ _ own]
        exact owed

end Invariant

section Steps
variable {conference : Conference} {world : World Shared Proc} {channel : ℕ} {shared : Shared}
  {proc : Proc}

/-- After its answer a place goes on with what it still owes. -/
theorem answered_kept (kept : Kept conference world) {site : Site} {chairmans : Option (List ℕ)}
    {joined : Bool} (at_stage : (world.procs channel).stage = .chairman_joined site chairmans)
    (attended : channel ∈ world.shared.hungUp → joined = false →
      site = .join ∧ conference.needs_chairman = false) :
    Kept conference (world.moved channel world.shared { world.procs channel with
      stage := site.answered conference channel world.shared (world.procs channel).found joined })
    := by
  have waits : conference.needs_chairman = true ∨ site ≠ .join → joined = false →
      channel ∉ world.shared.hungUp := by
    rintro needs no hung
    obtain ⟨isJoin, free⟩ := attended hung no
    rcases needs with needs | other
    · rw [needs] at free
      cases free
    · exact other isJoin
  cases site with
  | join =>
    simp only [Site.answered]
    split
    · rename_i needs
      obtain ⟨needs, no⟩ := Bool.and_eq_true_iff.mp needs
      rw [Bool.not_eq_true'] at no
      exact kept_on kept at_stage trivial Iff.rfl (fun _ => trivial)
        (fun _ _ owed => owed) (waits (Or.inl needs) no)
    · exact kept_on kept at_stage trivial Iff.rfl (fun _ => trivial)
        (fun _ listed _ => listed) trivial
  | join_again =>
    cases joined with
    | true =>
      exact kept_on kept at_stage trivial Iff.rfl (fun _ => trivial)
        (fun _ listed _ => listed) trivial
    | false =>
      exact kept_on kept at_stage trivial Iff.rfl (fun _ => trivial)
        (fun _ _ owed => owed) (waits (Or.inr nofun) rfl)
  | wait =>
    cases joined with
    | true =>
      exact kept_on kept at_stage trivial Iff.rfl (fun _ => trivial)
        (fun _ _ owed => owed) trivial
    | false =>
      exact kept_on kept at_stage trivial Iff.rfl (fun _ => trivial)
        (fun _ _ owed => owed) (waits (Or.inr nofun) rfl)
  | wait_again =>
    cases joined with
    | true =>
      exact kept_on kept at_stage trivial Iff.rfl (fun _ => trivial)
        (fun _ _ owed => owed) trivial
    | false =>
      exact kept_on kept at_stage trivial Iff.rfl (fun _ => trivial)
        (fun _ _ owed => owed) (waits (Or.inr nofun) rfl)

theorem absent (kept : Kept conference world) {stage : Stage}
    (at_stage : (world.procs channel).stage = stage) (gone : ¬stage.present) :
    channel ∉ world.shared.members := by
  intro member
  have present := kept.present channel member
  rw [at_stage] at present
  exact gone present

theorem leave_kept (kept : Kept conference world)
    (at_stage : (world.procs channel).stage = .leave) :
    Kept conference (world.moved channel
      { world.shared with members := world.shared.members.erase channel }
      { world.procs channel with stage := .leave_event }) :=
  kept_moved kept at_stage (Finset.erase_subset _ _) (Finset.Subset.refl _)
    (fun _ stored gone => absurd stored gone) rfl
    (fun still => absurd rfl (Finset.mem_erase.mp still).1) Iff.rfl trivial
    (fun _ _ _ _ _ _ => trivial) (fun _ _ owed => owed) trivial

/-- The links to all members are removed, but those of video, of which there are none. -/
theorem leave_members_kept (kept : Kept conference world) {members : List ℕ}
    (at_stage : (world.procs channel).stage = .leave_members)
    (lists : Lists members world.shared.members)
    (heard : ∀ link ∈ world.shared.links, link.media = .video →
      ∀ member ∈ world.shared.members, ¬link.between channel member) :
    Kept conference (world.moved channel world.shared
      { world.procs channel with stage := .unbridge_media (unbridges channel members) }) := by
  have gone := absent kept at_stage id
  refine kept_moved kept at_stage (Finset.Subset.refl _) (Finset.Subset.refl _)
    (fun _ stored lost => absurd stored lost) rfl (fun still => absurd still gone) Iff.rfl trivial
    (fun link stored member among between _ => ?_) (fun _ _ owed => owed)
    fun link listed => unbridges_own listed
  have listed : member ∈ members := by
    rwa [← List.mem_toFinset, lists.2]
  refine mem_unbridges between (fun video => heard link stored video member among between) listed ?_
  rintro rfl
  exact gone among

theorem carryOut_kept (kept : Kept conference world) {task : Task} {rest : List Task}
    (at_stage : (world.procs channel).stage = .unbridge_media (task :: rest)) :
    Kept conference (world.moved channel (world.shared.carryOut task)
      { world.procs channel with stage := .unbridge_media rest }) := by
  have gone := absent kept at_stage id
  have known := kept.known channel
  rw [at_stage] at known
  cases task with
  | check_hangup member =>
    have fewer : (world.shared.carryOut (.check_hangup member)).members ⊆ world.shared.members := by
      simp only [Shared.carryOut]
      split
      · exact Finset.erase_subset _ _
      · exact Finset.Subset.refl _
    have links : (world.shared.carryOut (.check_hangup member)).links = world.shared.links := by
      simp only [Shared.carryOut]
      split <;> rfl
    have hungUp : (world.shared.carryOut (.check_hangup member)).hungUp = world.shared.hungUp := by
      simp only [Shared.carryOut]
      split <;> rfl
    refine kept_moved kept at_stage fewer (by rw [links]) ?_ hungUp
      (fun still => absurd (fewer still) gone) Iff.rfl trivial (fun link _ _ _ _ listed => ?_)
      (fun _ _ owed => owed) fun link listed => known link (List.mem_cons_of_mem _ listed)
    · rw [links]
      exact fun _ stored lost => absurd stored lost
    · exact (List.mem_cons.mp listed).resolve_left nofun
  | unlink removed =>
    refine kept_moved kept at_stage (Finset.Subset.refl _) (Finset.erase_subset _ _)
      (fun link stored lost => ?_) rfl (fun still => absurd still gone) Iff.rfl trivial
      (fun link stored _ _ _ listed => ?_) (fun _ _ owed => owed)
      fun link listed => known link (List.mem_cons_of_mem _ listed)
    · have same : link = removed := by
        by_contra other
        exact lost (Finset.mem_erase.mpr ⟨other, stored⟩)
      rw [same]
      rcases known removed List.mem_cons_self with own | own
      · exact Or.inl (own ▸ gone)
      · exact Or.inr (own ▸ gone)
    · rcases List.mem_cons.mp listed with same | later
      · cases same
        exact absurd rfl (Finset.mem_erase.mp stored).1
      · exact later

theorem left_kept (kept : Kept conference world)
    (at_stage : (world.procs channel).stage = .unbridge_media []) :
    Kept conference (world.moved channel world.shared
      { world.procs channel with stage := .left }) := by
  have gone := absent kept at_stage id
  exact kept_moved kept at_stage (Finset.Subset.refl _) (Finset.Subset.refl _)
    (fun _ stored lost => absurd stored lost) rfl (fun still => absurd still gone) Iff.rfl trivial
    (fun _ _ _ _ _ listed => absurd listed List.not_mem_nil) (fun _ _ owed => owed) trivial

theorem step_kept (kept : Kept conference world) {choice : Choice}
    (attended : Attended conference world (.proc channel choice))
    (stepped : step conference channel world.shared choice (world.procs channel) =
      some (shared, proc)) : Kept conference (world.moved channel shared proc) := by
  have known := kept.known channel
  simp only [Attended] at attended
  unfold step at stepped
  split at stepped
  -- join, up to the members that it finds
  · rename_i at_stage
    cases stepped
    exact kept_added kept at_stage
  · rename_i at_stage
    cases stepped
    refine kept_aside kept at_stage ?_ ?_ ?_ trivial Iff.rfl (fun _ => trivial)
      (fun _ _ owed => owed) trivial <;> split <;> rfl
  · rename_i at_stage
    cases stepped
    exact kept_aside kept at_stage rfl rfl rfl trivial Iff.rfl (fun _ => trivial)
      (fun _ _ owed => owed) trivial
  · rename_i members at_stage
    split at stepped <;> cases stepped
    exact kept_found kept at_stage ‹_›
  -- chairman_joined, and its answer
  · rename_i site chairmans at_stage
    split at stepped <;> cases stepped
    rename_i lists
    exact kept_on kept at_stage trivial Iff.rfl (fun _ => trivial)
      (fun _ _ owed => by cases site <;> exact owed) lists.1
  · rename_i site chairman rest at_stage
    rw [at_stage] at attended known
    split at stepped <;> cases stepped
    · exact kept_aside kept at_stage rfl rfl rfl trivial Iff.rfl (fun _ => trivial)
        (fun _ _ owed => by cases site <;> exact owed) (List.nodup_cons.mp known).2
    · exact answered_kept kept at_stage nofun
  · rename_i site at_stage
    rw [at_stage] at attended
    cases stepped
    exact answered_kept kept at_stage fun hung _ => attended hung
  -- the loops without a chairman, in which the channel has not hung up
  · rename_i in_wait start at_stage
    rw [at_stage] at known
    split at stepped <;> cases stepped
    exact kept_on kept at_stage trivial Iff.rfl (fun _ => trivial)
      (fun _ _ owed => by cases in_wait <;> exact owed) known
  · rename_i in_wait start at_stage
    split at stepped <;> cases stepped
    exact kept_on kept at_stage trivial Iff.rfl (fun _ => trivial)
      (fun _ _ owed => by cases in_wait <;> exact owed) trivial
  -- bridge_media
  · rename_i link rest at_stage
    rw [at_stage] at attended
    cases stepped
    exact kept_bridged kept at_stage attended.1 attended.2
  · rename_i at_stage
    cases stepped
    exact kept_on kept at_stage trivial Iff.rfl (fun _ => trivial)
      (fun _ _ owed => absurd owed List.not_mem_nil) trivial
  -- play_alone
  · rename_i members at_stage
    split at stepped <;> cases stepped
    split <;> exact kept_on kept at_stage trivial Iff.rfl (fun _ => trivial)
      (fun _ _ owed => owed) trivial
  · rename_i member start at_stage
    rw [at_stage] at attended
    cases stepped
    split
    · rename_i moh
      exact kept_on kept at_stage trivial Iff.rfl (fun _ => trivial)
        (fun _ _ owed => owed) (attended rfl moh)
    · exact kept_on kept at_stage trivial Iff.rfl (fun _ => trivial)
        (fun _ _ owed => owed) trivial
  iterate 4
    · rename_i member start at_stage
      split at stepped <;> cases stepped
      exact kept_on kept at_stage trivial Iff.rfl (fun _ => trivial)
        (fun _ _ owed => owed) trivial
  -- wait
  · rename_i start at_stage
    split at stepped <;> cases stepped
    exact kept_on kept at_stage trivial Iff.rfl (fun _ => trivial)
      (fun _ _ owed => owed) trivial
  · rename_i start at_stage
    split at stepped <;> cases stepped
    split <;> exact kept_on kept at_stage trivial Iff.rfl (fun _ => trivial)
      (fun _ _ owed => owed) trivial
  -- leave, whose channel is no member any more
  · rename_i at_stage
    cases stepped
    exact leave_kept kept at_stage
  · rename_i at_stage
    cases stepped
    have gone := absent kept at_stage id
    exact kept_moved kept at_stage (Finset.Subset.refl _) (Finset.Subset.refl _)
      (fun _ stored lost => absurd stored lost) rfl (fun still => absurd still gone) Iff.rfl
      trivial (fun _ _ _ _ _ _ => trivial) (fun _ _ owed => owed) trivial
  · rename_i members at_stage
    rw [at_stage] at attended
    split at stepped <;> cases stepped
    exact leave_members_kept kept at_stage ‹_› attended
  · rename_i task rest at_stage
    cases stepped
    exact carryOut_kept kept at_stage
  · rename_i at_stage
    cases stepped
    exact left_kept kept at_stage
  · cases stepped

/-- No channel that waits for a chairman hangs up. -/
theorem happen_kept (kept : Kept conference world) {event : Event}
    (attended : Attended conference world (.outside event))
    (happened : happen world.shared event = some shared) :
    Kept conference ⟨shared, world.procs⟩ := by
  cases event with
  | hangup caller =>
    simp only [Attended] at attended
    simp only [happen] at happened
    split at happened <;> cases happened
    refine ⟨kept.present, kept.unfound, kept.found, fun other => ?_, kept.linked, kept.cleared,
      kept.met, kept.bridged⟩
    have known := kept.known other
    cases at_stage : (world.procs other).stage with
    | no_chairman in_wait start =>
      rw [at_stage] at known
      intro hung
      rcases Finset.mem_insert.mp hung with rfl | before
      · rw [at_stage] at attended
        exact attended
      · exact known before
    | chairman_joined site chairmans =>
      rw [at_stage] at known
      cases chairmans <;> exact known
    | _ =>
      rw [at_stage] at known
      exact known

theorem action_kept (world : World Shared Proc) (action : Action Choice Event)
    (after : World Shared Proc) (kept : Kept conference world)
    (attended : Attended conference world action)
    (acted : act (calls conference) world action = some after) : Kept conference after := by
  rcases act_cases acted with ⟨channel, choice, shared, proc, rfl, stepped, rfl⟩ |
    ⟨event, shared, rfl, happened, rfl⟩
  · exact step_kept kept attended stepped
  · exact happen_kept kept attended happened

theorem Kept.out (kept : Kept conference world) (left : (world.procs channel).stage = .left) :
    channel ∉ world.shared.members := absent kept left id

theorem Kept.connected (kept : Kept conference world) {member : ℕ}
    (among : channel ∈ world.shared.members) (also : member ∈ world.shared.members)
    (different : channel ≠ member) (joined : (world.procs channel).stage.joined)
    (memberJoined : (world.procs member).stage.joined) (link : Link)
    (listed : link ∈ bridge_media conference channel member) : link ∈ world.shared.links := by
  have ofBoth : link ∈ both conference channel member := List.mem_append_left _ listed
  rcases kept.met channel among member also different (joined_looked joined)
    (joined_looked memberJoined) with found | found
  · exact (kept.bridged channel among member also different found link ofBoth).resolve_right
      (joined_owes joined link)
  · exact (kept.bridged member also channel among (Ne.symm different) found link
      (both_swap ofBoth)).resolve_right (joined_owes memberJoined link)

theorem Kept.apart (kept : Kept conference world) {other : ℕ}
    (among : channel ∈ world.shared.members) (left : (world.procs other).stage = .left)
    (link : Link) (stored : link ∈ world.shared.links) : ¬link.between channel other := by
  intro between
  have clears := kept.cleared link stored other channel among between.symm
  rw [left] at clears
  exact clears

end Steps

end Conferences
