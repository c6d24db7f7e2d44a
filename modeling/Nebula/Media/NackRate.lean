import Nebula.Media.NackSender

/- How often a missing number is asked for. The numbers to send are recognised by the time of
   their last request, so a number that was asked for at this very instant goes out again with
   those that are due now. -/
namespace NackSender

section Requests

/-- The requests of a run: the time and the number of each. -/
def requests (sender : NackSender) : List Event → List (Nat × Nat)
  | [] => []
  | .received seqnum :: rest => requests (step sender (.received seqnum)).1 rest
  | .sendNacks now :: rest =>
    (step sender (.sendNacks now)).2.map (Prod.mk now) ++
      requests (step sender (.sendNacks now)).1 rest

/-- The times of the calls do not go back. -/
def InOrder (start : Nat) : List Event → Prop
  | [] => True
  | .received _ :: rest => InOrder start rest
  | .sendNacks now :: rest => start ≤ now ∧ InOrder now rest

instance decidableInOrder (start : Nat) : (events : List Event) → Decidable (InOrder start events)
  | [] => isTrue trivial
  | .received _ :: rest => decidableInOrder start rest
  | .sendNacks now :: rest =>
    have := decidableInOrder now rest
    inferInstanceAs (Decidable (start ≤ now ∧ InOrder now rest))

/-- There is a number that has to be sent. -/
def Due (sender : NackSender) (now : Nat) : Prop :=
  ∃ entry ∈ sender.sentBySeqnum.valueByKey.entries, (renewed now entry.2).2 = true

/-- Nothing that is still tracked has gone out at this instant already, if something is due. -/
def Calm (sender : NackSender) (now : Nat) : Prop :=
  Due sender now → ∀ key first,
    (key, some (first, now)) ∉ sender.sentBySeqnum.valueByKey.entries

def CalmRun (sender : NackSender) : List Event → Prop
  | [] => True
  | .received seqnum :: rest => CalmRun (step sender (.received seqnum)).1 rest
  | .sendNacks now :: rest =>
    Calm sender now ∧ CalmRun (step sender (.sendNacks now)).1 rest

/-- Whether a call asks for a number with these times, if it asks at all. -/
def AsksFor (now : Nat) : Option (Nat × Nat) → Prop
  | none => True
  | some (firstSent, lastSent) =>
    now - firstSent < EXPIRY ∧ (RESEND_INTERVAL ≤ now - lastSent ∨ now = lastSent)

theorem renewed_cases (now : Nat) (sent : Option (Nat × Nat)) :
    (sent = none ∧ renewed now sent = (some (some (now, now)), true)) ∨
    ∃ first last, sent = some (first, last) ∧
      ((EXPIRY ≤ now - first ∧ renewed now sent = (none, false)) ∨
        (now - first < EXPIRY ∧ RESEND_INTERVAL ≤ now - last ∧
          renewed now sent = (some (some (first, now)), true)) ∨
        (now - first < EXPIRY ∧ now - last < RESEND_INTERVAL ∧
          renewed now sent = (some sent, false))) := by
  rcases sent with _ | ⟨first, last⟩
  · exact Or.inl ⟨rfl, rfl⟩
  · refine Or.inr ⟨first, last, rfl, ?_⟩
    unfold renewed
    simp only
    by_cases expired : EXPIRY ≤ now - first
    · exact Or.inl ⟨expired, if_pos expired⟩
    · rw [if_neg expired]
      by_cases again : RESEND_INTERVAL ≤ now - last
      · exact Or.inr (Or.inl ⟨Nat.lt_of_not_le expired, again, if_pos again⟩)
      · exact Or.inr (Or.inr ⟨Nat.lt_of_not_le expired, Nat.lt_of_not_le again, if_neg again⟩)

/-- A number that stays goes out if its last time is now. -/
theorem asksFor_iff (now : Nat) (sent : Option (Nat × Nat)) :
    AsksFor now sent ↔ ∃ first, (renewed now sent).1 = some (some (first, now)) := by
  rcases renewed_cases now sent with ⟨rfl, becomes⟩ |
    ⟨first, last, rfl, ⟨expired, becomes⟩ | ⟨fresh, again, becomes⟩ | ⟨fresh, waits, becomes⟩⟩
  · rw [becomes]
    exact iff_of_true trivial ⟨now, rfl⟩
  · rw [becomes]
    refine iff_of_false (fun asks => ?_) ?_
    · exact Nat.lt_irrefl _ (Nat.lt_of_lt_of_le asks.1 expired)
    · rintro ⟨_, is⟩
      cases is
  · rw [becomes]
    exact iff_of_true ⟨fresh, Or.inl again⟩ ⟨first, rfl⟩
  · rw [becomes]
    constructor
    · rintro ⟨_, again | rfl⟩
      · exact absurd again (Nat.not_le_of_lt waits)
      · exact ⟨first, rfl⟩
    · rintro ⟨own, is⟩
      cases is
      exact ⟨fresh, Or.inr rfl⟩

theorem mem_requested (sender : NackSender) (now key : Nat) :
    key ∈ (step sender (.sendNacks now)).2 ↔ Due sender now ∧
      ∃ sent, (key, sent) ∈ sender.sentBySeqnum.valueByKey.entries ∧ AsksFor now sent := by
  show key ∈ (sendNacks sender now).2.getD [] ↔ _
  unfold sendNacks
  simp only
  have due : (sender.sentBySeqnum.valueByKey.entries.any fun entry => (renewed now entry.2).2) =
      true ↔ Due sender now := List.any_eq_true
  split
  · rename_i any
    rw [Option.getD_some, List.mem_filterMap, iff_true_intro (due.mp any), true_and]
    constructor
    · rintro ⟨⟨own, after⟩, member, is⟩
      obtain ⟨before, old, becomes⟩ := SortedMap.mem_retain.mp member
      unfold sentNow at is
      rcases after with _ | ⟨first, last⟩
      · cases is
      · simp only at is
        split at is
        · rename_i same
          cases is
          subst same
          exact ⟨before, old, (asksFor_iff now before).mpr ⟨first, becomes⟩⟩
        · cases is
    · rintro ⟨sent, old, asks⟩
      obtain ⟨first, becomes⟩ := (asksFor_iff now sent).mp asks
      exact ⟨(key, some (first, now)), SortedMap.mem_retain.mpr ⟨sent, old, becomes⟩, if_pos rfl⟩
  · rename_i none
    refine iff_of_false (fun member => by cases member) fun both => none (due.mpr both.1)

theorem requested_nodup (sender : NackSender) (now : Nat) :
    (step sender (.sendNacks now)).2.Nodup := by
  show ((sendNacks sender now).2.getD []).Nodup
  unfold sendNacks
  simp only
  split
  · refine List.Pairwise.filterMap _ ?_
      (sender.sentBySeqnum.retain fun _ sent => (renewed now sent).1).valueByKey.sorted
    intro one other before first left second right
    have own : ∀ (entry : Nat × Option (Nat × Nat)) key, sentNow now entry = some key →
        key = entry.1 := by
      intro entry key is
      unfold sentNow at is
      split at is
      · split at is
        · cases is
          rfl
        · cases is
      · cases is
    rw [own one first left, own other second right]
    exact Nat.ne_of_lt before
  · exact List.nodup_nil

end Requests

section Times

/-- What the times of the tracked numbers say of the requests so far. -/
structure Timed (sender : NackSender) (past : List (Nat × Nat)) (now : Nat) : Prop where
  below : ∀ request ∈ past, ∃ maxReceived, sender.maxReceived = some maxReceived ∧
    request.2 < maxReceived
  unsent : ∀ key, (key, none) ∈ sender.sentBySeqnum.valueByKey.entries →
    ∀ request ∈ past, request.2 ≠ key
  sent : ∀ key first last, (key, some (first, last)) ∈ sender.sentBySeqnum.valueByKey.entries →
    (last, key) ∈ past ∧ last ≤ now ∧ last < first + EXPIRY ∧
      ∀ request ∈ past, request.2 = key → first ≤ request.1 ∧ request.1 ≤ last

theorem timed_new (limit start : Nat) : Timed (new limit) [] start where
  below request member := by cases member
  unsent key member := by cases member
  sent key first last member := by cases member

variable {sender : NackSender} {past : List (Nat × Nat)} {received : List Nat} {now : Nat}

/-- What is tracked after a number has come in was tracked before with the same times, or is above
    all that came in before. -/
theorem entries_received (tracks : Tracks sender received) (seqnum : UInt64) {key : Nat}
    {sent : Option (Nat × Nat)}
    (member : (key, sent) ∈
      (step sender (.received seqnum)).1.sentBySeqnum.valueByKey.entries) :
    (key, sent) ∈ sender.sentBySeqnum.valueByKey.entries ∨
      (sent = none ∧ ∀ maxReceived, sender.maxReceived = some maxReceived → maxReceived < key) := by
  rw [(tracks_step tracks _).1] at member
  simp only [stepEach] at member
  rcases rememberEach_cases sender seqnum.toNat with
    ⟨nothing, becomes⟩ | ⟨maxReceived, is, ⟨same, becomes⟩ | ⟨less, becomes⟩ | ⟨greater, becomes⟩⟩
  · rw [becomes] at member
    exact Or.inl member
  · rw [becomes] at member
    exact Or.inl member
  · rw [becomes] at member
    exact Or.inl (SortedMap.mem_erase.mp member).1
  · rw [becomes] at member
    rcases mem_insertMissing (tracks.entries_below is) member with old | ⟨start, _, untimed⟩
    · exact Or.inl old
    · refine Or.inr ⟨untimed, fun own same => ?_⟩
      rw [is] at same
      cases same
      exact start

theorem largest_received (tracks : Tracks sender received) (seqnum : UInt64) {maxReceived : Nat}
    (is : sender.maxReceived = some maxReceived) :
    ∃ after, (step sender (.received seqnum)).1.maxReceived = some after ∧
      maxReceived ≤ after := by
  rw [(tracks_step tracks _).1]
  simp only [stepEach]
  rcases rememberEach_cases sender seqnum.toNat with
    ⟨nothing, becomes⟩ | ⟨own, same, ⟨_, becomes⟩ | ⟨_, becomes⟩ | ⟨greater, becomes⟩⟩
  · rw [is] at nothing
    cases nothing
  · rw [becomes]
    exact ⟨maxReceived, is, Nat.le_refl _⟩
  · rw [becomes]
    exact ⟨maxReceived, is, Nat.le_refl _⟩
  · rw [becomes]
    rw [is] at same
    cases same
    exact ⟨seqnum.toNat, rfl, Nat.le_of_lt greater⟩

theorem timed_received (tracks : Tracks sender received) (timed : Timed sender past now)
    (seqnum : UInt64) : Timed (step sender (.received seqnum)).1 past now where
  below request member := by
    obtain ⟨maxReceived, is, small⟩ := timed.below request member
    obtain ⟨after, becomes, most⟩ := largest_received tracks seqnum is
    exact ⟨after, becomes, Nat.lt_of_lt_of_le small most⟩
  unsent key member request inPast same := by
    rcases entries_received tracks seqnum member with old | ⟨_, above⟩
    · exact timed.unsent key old request inPast same
    · obtain ⟨maxReceived, is, small⟩ := timed.below request inPast
      rw [same] at small
      exact Nat.lt_asymm small (above maxReceived is)
  sent key first last member := by
    rcases entries_received tracks seqnum member with old | ⟨untimed, _⟩
    · exact timed.sent key first last old
    · cases untimed

theorem mem_out {sender : NackSender} {now : Nat} {request : Nat × Nat}
    (member : request ∈ (step sender (.sendNacks now)).2.map (Prod.mk now)) :
    request.1 = now ∧ request.2 ∈ (step sender (.sendNacks now)).2 := by
  obtain ⟨key, inside, rfl⟩ := List.mem_map.mp member
  exact ⟨rfl, inside⟩

/-- What is asked for now is among the requests so far and these. -/
theorem asked_now {later key : Nat} {sent : Option (Nat × Nat)}
    (stored : (key, sent) ∈ sender.sentBySeqnum.valueByKey.entries)
    (due : (renewed later sent).2 = true) (asks : AsksFor later sent) :
    (later, key) ∈ past ++ (step sender (.sendNacks later)).2.map (Prod.mk later) := by
  have asked : key ∈ (step sender (.sendNacks later)).2 :=
    (mem_requested sender later key).mpr ⟨⟨_, stored, due⟩, sent, stored, asks⟩
  exact List.mem_append_right _ (List.mem_map_of_mem asked)

theorem timed_sendNacks (tracks : Tracks sender received) (timed : Timed sender past now)
    {later : Nat} (order : now ≤ later) :
    Timed (step sender (.sendNacks later)).1
      (past ++ (step sender (.sendNacks later)).2.map (Prod.mk later)) later where
  below request member := by
    rcases List.mem_append.mp member with old | new
    · exact timed.below request old
    · obtain ⟨_, sent, stored, _⟩ := (mem_requested sender later _).mp (mem_out new).2
      exact tracks.below request.2 ((tracked_iff sender _).mpr ⟨sent, stored⟩)
  unsent key member := by
    obtain ⟨before, _, becomes⟩ := SortedMap.mem_retain.mp member
    rcases renewed_cases later before with ⟨rfl, is⟩ |
      ⟨first, last, rfl, ⟨_, is⟩ | ⟨_, _, is⟩ | ⟨_, _, is⟩⟩ <;>
    · rw [is] at becomes
      cases becomes
  sent key first last member := by
    obtain ⟨before, stored, becomes⟩ := SortedMap.mem_retain.mp member
    rcases renewed_cases later before with ⟨rfl, is⟩ |
      ⟨own, old, rfl, ⟨_, is⟩ | ⟨fresh, again, is⟩ | ⟨fresh, waits, is⟩⟩
    · rw [is] at becomes
      cases becomes
      refine ⟨asked_now stored (congrArg Prod.snd is) trivial, Nat.le_refl _, ?_, ?_⟩
      · exact Nat.lt_add_of_pos_right (by decide)
      · intro request inside same
        rcases List.mem_append.mp inside with old | new
        · exact absurd same (timed.unsent key stored request old)
        · rw [(mem_out new).1]
          exact ⟨Nat.le_refl _, Nat.le_refl _⟩
    · rw [is] at becomes
      cases becomes
    · rw [is] at becomes
      cases becomes
      obtain ⟨known, early, lasting, between⟩ := timed.sent key first old stored
      have start := (between _ known rfl).1
      refine ⟨asked_now stored (congrArg Prod.snd is) ⟨fresh, Or.inl again⟩, Nat.le_refl _,
        by omega, ?_⟩
      intro request inside same
      rcases List.mem_append.mp inside with older | new
      · have bounds := between request older same
        omega
      · rw [(mem_out new).1]
        omega
    · rw [is] at becomes
      cases becomes
      obtain ⟨known, early, lasting, between⟩ := timed.sent key first last stored
      have start := (between _ known rfl).1
      refine ⟨List.mem_append_left _ known, Nat.le_trans early order, lasting, ?_⟩
      intro request inside same
      rcases List.mem_append.mp inside with older | new
      · exact between request older same
      · obtain ⟨at_, asked⟩ := mem_out new
        obtain ⟨_, sent, inside, asks⟩ := (mem_requested sender later _).mp asked
        rw [same] at inside
        cases sender.sentBySeqnum.valueByKey.value_unique stored inside
        rcases asks.2 with again | equal
        · exact absurd again (Nat.not_le_of_lt waits)
        · rw [at_, equal]
          exact ⟨start, Nat.le_refl _⟩

end Times

section Spacing
variable {sender : NackSender} {past : List (Nat × Nat)} {received : List Nat} {now : Nat}

def Spaced (requests : List (Nat × Nat)) : Prop :=
  requests.Pairwise fun earlier later =>
    earlier.2 = later.2 → earlier.1 + RESEND_INTERVAL ≤ later.1

def Expiring (requests : List (Nat × Nat)) : Prop :=
  requests.Pairwise fun earlier later =>
    earlier.2 = later.2 → later.1 < earlier.1 + EXPIRY

theorem pairwise_out (sender : NackSender) (now : Nat) (near : Nat → Nat → Prop) :
    ((step sender (.sendNacks now)).2.map (Prod.mk now)).Pairwise fun earlier later =>
      earlier.2 = later.2 → near earlier.1 later.1 := by
  refine List.pairwise_map.mpr ((requested_nodup sender now).imp ?_)
  intro one other different same
  exact absurd same different

theorem expiring_sendNacks (timed : Timed sender past now) (expiring : Expiring past)
    (later : Nat) :
    Expiring (past ++ (step sender (.sendNacks later)).2.map (Prod.mk later)) := by
  refine List.pairwise_append.mpr ⟨expiring,
    pairwise_out sender later fun one other => other < one + EXPIRY, ?_⟩
  intro request old asked new same
  obtain ⟨at_, asked⟩ := mem_out new
  obtain ⟨_, sent, stored, asks⟩ := (mem_requested sender later _).mp asked
  rw [at_]
  rcases sent with _ | ⟨first, last⟩
  · exact absurd same (timed.unsent _ stored request old)
  · have bounds := (timed.sent _ first last stored).2.2.2 request old same
    have fresh := asks.1
    omega

/-- The requests of a call keep the distance exactly if nothing that it finds was asked for just
    now. -/
theorem spaced_sendNacks (timed : Timed sender past now) (spaced : Spaced past) {later : Nat}
    (order : now ≤ later) :
    Spaced (past ++ (step sender (.sendNacks later)).2.map (Prod.mk later)) ↔
      Calm sender later := by
  constructor
  · intro apart due key first stored
    obtain ⟨known, _, lasting, between⟩ := timed.sent key first later stored
    have start := (between _ known rfl).1
    have asked : key ∈ (step sender (.sendNacks later)).2 :=
      (mem_requested sender later key).mpr ⟨due, _, stored, by omega, Or.inr rfl⟩
    have distance := (List.pairwise_append.mp apart).2.2 _ known _ (List.mem_map_of_mem asked) rfl
    have positive : 0 < RESEND_INTERVAL := by decide
    have distance : later + RESEND_INTERVAL ≤ later := distance
    omega
  · intro calm
    refine List.pairwise_append.mpr ⟨spaced,
      pairwise_out sender later fun one other => one + RESEND_INTERVAL ≤ other, ?_⟩
    intro request old asked new same
    obtain ⟨at_, asked⟩ := mem_out new
    obtain ⟨due, sent, stored, asks⟩ := (mem_requested sender later _).mp asked
    rw [at_]
    rcases sent with _ | ⟨first, last⟩
    · exact absurd same (timed.unsent _ stored request old)
    · have bounds := (timed.sent _ first last stored).2.2.2 request old same
      have early := (timed.sent _ first last stored).2.1
      rcases asks.2 with again | rfl
      · have positive : 0 < RESEND_INTERVAL := by decide
        omega
      · exact absurd stored (calm due _ first)

theorem requests_expiring (events : List Event) :
    ∀ {sender : NackSender} {received : List Nat} {past : List (Nat × Nat)} {now : Nat},
      Tracks sender received → Timed sender past now → Expiring past → InOrder now events →
      Expiring (past ++ requests sender events) := by
  induction events with
  | nil =>
    intro sender received past now _ _ expiring _
    unfold requests
    rwa [List.append_nil]
  | cons event rest ih =>
    intro sender received past now tracks timed expiring ordered
    have after := (tracks_step tracks event).2
    rw [← (tracks_step tracks event).1] at after
    cases event with
    | received seqnum => exact ih after (timed_received tracks timed seqnum) expiring ordered
    | sendNacks later =>
      unfold requests
      rw [← List.append_assoc]
      exact ih after (timed_sendNacks tracks timed ordered.1)
        (expiring_sendNacks timed expiring later) ordered.2

theorem requests_spaced (events : List Event) :
    ∀ {sender : NackSender} {received : List Nat} {past : List (Nat × Nat)} {now : Nat},
      Tracks sender received → Timed sender past now → Spaced past → InOrder now events →
      (Spaced (past ++ requests sender events) ↔ CalmRun sender events) := by
  induction events with
  | nil =>
    intro sender received past now _ _ spaced _
    unfold requests CalmRun
    rw [List.append_nil]
    exact iff_of_true spaced trivial
  | cons event rest ih =>
    intro sender received past now tracks timed spaced ordered
    have after := (tracks_step tracks event).2
    rw [← (tracks_step tracks event).1] at after
    cases event with
    | received seqnum => exact ih after (timed_received tracks timed seqnum) spaced ordered
    | sendNacks later =>
      have calm := spaced_sendNacks timed spaced ordered.1
      unfold requests CalmRun
      rw [← List.append_assoc]
      by_cases apart : Spaced
          (past ++ (step sender (.sendNacks later)).2.map (Prod.mk later))
      · have rest := ih after (timed_sendNacks tracks timed ordered.1) apart ordered.2
        rw [rest, ← calm, iff_true_intro apart, true_and]
      · refine iff_of_false (fun whole => ?_) (fun both => apart (calm.mpr both.1))
        exact apart (List.pairwise_append.mp whole).1

end Spacing

section Rate

theorem run_append (sender : NackSender) (before after : List Event) :
    run sender (before ++ after) = run (run sender before) after :=
  List.foldl_append

theorem tracks_reached (limit : Nat) (events : List Event) :
    Tracks (run (new limit) events) (events.filterMap seqnumOf) := by
  have tracks := (tracks_run events (tracks_new limit)).2
  rwa [List.nil_append] at tracks

theorem requests_missing (events : List Event) :
    ∀ {sender : NackSender} {received : List Nat}, Tracks sender received →
      ∀ request ∈ requests sender events, request.2 ∉ received := by
  induction events with
  | nil =>
    intro sender received _ request member
    cases member
  | cons event rest ih =>
    intro sender received tracks request member
    have after := (tracks_step tracks event).2
    rw [← (tracks_step tracks event).1] at after
    cases event with
    | received seqnum => exact fun inside => ih after request member (List.mem_append_left _ inside)
    | sendNacks now =>
      rcases List.mem_append.mp member with new | later
      · obtain ⟨_, sent, stored, _⟩ := (mem_requested sender now _).mp (mem_out new).2
        exact tracks.missing request.2 ((tracked_iff sender _).mpr ⟨sent, stored⟩)
      · exact fun inside => ih after request later (List.mem_append_left _ inside)

/-- The number has not been asked for yet, if it is tracked. -/
def Unasked (sender : NackSender) (key : Nat) : Prop :=
  ∀ sent, (key, sent) ∈ sender.sentBySeqnum.valueByKey.entries → sent = none

theorem unasked_received {sender : NackSender} {received : List Nat}
    (tracks : Tracks sender received) {key : Nat} (unasked : Unasked sender key)
    (seqnum : UInt64) : Unasked (step sender (.received seqnum)).1 key := by
  intro sent member
  rcases entries_received tracks seqnum member with old | ⟨untimed, _⟩
  · exact unasked sent old
  · exact untimed

theorem unasked_run {key : Nat} (events : List Event) (limit : Nat) :
    ∀ before : List Event, Unasked (run (new limit) before) key →
      (∀ event ∈ events, ∃ other, event = .received other) →
      Unasked (run (new limit) (before ++ events)) key := by
  induction events with
  | nil =>
    intro before unasked _
    rwa [List.append_nil]
  | cons event rest ih =>
    intro before unasked only
    obtain ⟨seqnum, rfl⟩ := only event List.mem_cons_self
    have next : Unasked (run (new limit) (before ++ [.received seqnum])) key := by
      rw [run_append]
      exact unasked_received (tracks_reached limit before) unasked seqnum
    have later := ih (before ++ [.received seqnum]) next
      fun other member => only other (List.mem_cons_of_mem _ member)
    rwa [List.append_assoc] at later

/-- What the requests of a run promise to the sender of the packets. -/
structure KeepsRate (limit : Nat) (events : List Event) : Prop where
  notReceived : ∀ before seqnum after, events = before ++ .received seqnum :: after →
    ∀ request ∈ requests (run (new limit) (before ++ [.received seqnum])) after,
      request.2 ≠ seqnum.toNat
  spaced : Spaced (requests (new limit) events)
  expiring : Expiring (requests (new limit) events)
  firstAsked : ∀ before seqnum middle now after key,
    events = before ++ .received seqnum :: (middle ++ .sendNacks now :: after) →
    (∀ event ∈ middle, ∃ other, event = .received other) →
    key ∉ tracked (run (new limit) before) →
    key ∈ tracked (run (new limit) (before ++ [.received seqnum])) →
    key ∈ tracked (run (new limit) (before ++ [.received seqnum] ++ middle)) →
    key ∈ (step (run (new limit) (before ++ [.received seqnum] ++ middle)) (.sendNacks now)).2

theorem not_received (limit : Nat) (before after : List Event) (seqnum : UInt64) :
    ∀ request ∈ requests (run (new limit) (before ++ [.received seqnum])) after,
      request.2 ≠ seqnum.toNat := by
  intro request member same
  refine requests_missing after (tracks_reached limit (before ++ [.received seqnum])) request
    member ?_
  rw [same, List.filterMap_append]
  exact List.mem_append_right _ List.mem_cons_self

/-- A number that was just found missing is asked for by the next call. -/
theorem first_asked (limit : Nat) (before : List Event) (seqnum : UInt64) (middle : List Event)
    (now key : Nat) (only : ∀ event ∈ middle, ∃ other, event = .received other)
    (notBefore : key ∉ tracked (run (new limit) before))
    (still : key ∈ tracked (run (new limit) (before ++ [.received seqnum] ++ middle))) :
    key ∈ (step (run (new limit) (before ++ [.received seqnum] ++ middle)) (.sendNacks now)).2 := by
  have untracked : Unasked (run (new limit) before) key := fun sent member =>
    absurd ((tracked_iff _ key).mpr ⟨sent, member⟩) notBefore
  have unasked := unasked_run middle limit (before ++ [.received seqnum])
    (by
      rw [run_append]
      exact unasked_received (tracks_reached limit before) untracked seqnum) only
  obtain ⟨sent, stored⟩ := (tracked_iff _ key).mp still
  cases unasked sent stored
  exact (mem_requested _ now key).mpr ⟨⟨_, stored, rfl⟩, none, stored, trivial⟩

theorem nack_rate (limit start : Nat) (events : List Event) (ordered : InOrder start events) :
    KeepsRate limit events ↔ CalmRun (new limit) events := by
  have spacing := requests_spaced events (tracks_new limit) (timed_new limit start)
    List.Pairwise.nil ordered
  rw [List.nil_append] at spacing
  constructor
  · intro keeps
    exact spacing.mp keeps.spaced
  · intro calm
    refine ⟨fun before seqnum after _ => not_received limit before after seqnum,
      spacing.mpr calm, ?_, ?_⟩
    · have expiring := requests_expiring events (tracks_new limit) (timed_new limit start)
        List.Pairwise.nil ordered
      rwa [List.nil_append] at expiring
    · intro before seqnum middle now after key _ only notBefore _ still
      exact first_asked limit before seqnum middle now key only notBefore still

/-- One number is missing, then a second one, and both calls come at the same time. -/
def hastyRun : List Event :=
  [.received 1, .received 3, .sendNacks 7, .received 5, .sendNacks 7]

theorem nack_rate_hasty : KeepsRate 250 hastyRun ↔ CalmRun (new 250) hastyRun :=
  nack_rate 250 7 hastyRun (by decide)

theorem asked_twice_at_once :
    ¬ ∀ limit start events, InOrder start events → KeepsRate limit events := by
  intro claimed
  have keeps := claimed 250 7 hastyRun (by decide)
  have asked : requests (new 250) hastyRun = [(7, 2), (7, 2), (7, 4)] := by decide
  have apart := keeps.spaced
  rw [asked] at apart
  have distance := (List.pairwise_cons.mp apart).1 (7, 2) List.mem_cons_self rfl
  exact absurd distance (by decide)

end Rate

end NackSender
