import Nebula.Lib.Interleaving

/- Clients that lock one key, each with a mutex of its own. Every Redis command is one
   step, time goes on between steps, and an unlock is a task that runs later. Times are
   in milliseconds. -/
namespace DistributedMutex
open Interleaving

/-- The value of the key, who set it, and when it expires. -/
structure Entry where
  value : String
  owner : Nat
  expires : Nat
  deriving DecidableEq

/-- The clock, the key, the unlocks on their way, and each key that one of them deleted
    with the client whose unlock it was. -/
structure Shared where
  now : Nat
  entry : Option Entry
  unlocking : List Nat
  released : List (Nat × Nat)

/-- Where a client is. Inside is between the return of lock and unlock, and says when the
    client set the key, if it did. -/
inductive Stage where
  | idle
  | acquiring (start : Nat)
  | checking (start : Nat)
  | sleeping (start until_ : Nat)
  | acquired (since : Nat)
  | inside (since : Option Nat)
  | unlocked
  | dropped
  deriving DecidableEq

/-- A client goes on or drops its mutex. -/
inductive Choice where
  | go
  | drop
  deriving DecidableEq

def expiry : Nat := 8000

/-- SET with EX and NX. -/
def setexnx (value : String) (pid : Nat) (shared : Shared) : Option Shared :=
  match shared.entry with
  | some _ => none
  | none => some { shared with entry := some ⟨value, pid, shared.now + expiry⟩ }

/-- The task that unlock spawns. -/
def unlock (pid : Nat) (shared : Shared) : Shared :=
  { shared with unlocking := pid :: shared.unlocking }

def step (random : Nat → String) (clients pid : Nat) (choice : Choice) (shared : Shared) :
    Stage → Option (Shared × Stage)
  | .idle =>
    match choice with
    | .go => if pid < clients then some (shared, .acquiring shared.now) else none
    | .drop => none
  | .dropped => none
  | stage =>
    match choice, stage with
    | .drop, _ => some (unlock pid shared, .dropped)
    | .go, .acquiring start =>
      match setexnx (random pid) pid shared with
      | some after => some (after, .acquired shared.now)
      | none => some (shared, .checking start)
    | .go, .checking start =>
      some (shared, if (shared.now - start) / 1000 > 8 then .inside none
        else .sleeping start (shared.now + 200))
    | .go, .sleeping start until_ =>
      if until_ ≤ shared.now then some (shared, .acquiring start) else none
    | .go, .acquired since => some (shared, .inside (some since))
    | .go, .inside _ => some (unlock pid shared, .unlocked)
    | .go, _ => none

/-- Time goes on, and the unlock of a client runs. -/
inductive Event where
  | tick (ms : Nat)
  | del_if_value (pid : Nat)

def tick (ms : Nat) (shared : Shared) : Shared :=
  { shared with
    now := shared.now + ms
    entry := shared.entry.filter fun entry => shared.now + ms < entry.expires }

def del_if_value (random : Nat → String) (pid : Nat) (shared : Shared) : Option Shared :=
  if pid ∈ shared.unlocking then
    let rest := shared.unlocking.erase pid
    match shared.entry with
    | some entry =>
      if entry.value = random pid then
        some { shared with
          entry := none, unlocking := rest, released := (pid, entry.owner) :: shared.released }
      else some { shared with unlocking := rest }
    | none => some { shared with unlocking := rest }
  else none

def mutex (random : Nat → String) (clients : Nat) : System Shared Stage Choice Event where
  step := step random clients
  outside
    | .tick ms, shared => some (tick ms shared)
    | .del_if_value pid, shared => del_if_value random pid shared

def idle : World Shared Stage := ⟨⟨0, none, [], []⟩, fun _ => .idle⟩

def Inside (stage : Stage) : Prop := ∃ since, stage = .inside since

/-- The client has set the key, and has not unlocked it. -/
def Holds (stage : Stage) (since : Nat) : Prop :=
  stage = .acquired since ∨ stage = .inside (some since)

/-- Every client that has set the key is done with it before the key expires. -/
def Prompt : Guard Shared Stage Choice Event
  | world, .outside (.tick ms) =>
    ∀ pid since, Holds (world.procs pid) since → world.shared.now + ms < since + expiry
  | _, _ => True

/-- A client that has waited for too long finds nobody inside, and a client that has set
    the key finds nobody inside who has not. -/
def MayGo (world : World Shared Stage) : Stage → Prop
  | .checking start => (world.shared.now - start) / 1000 > 8 →
      ∀ other, ¬ Inside (world.procs other)
  | .acquired _ => ∀ other, world.procs other ≠ .inside none
  | _ => True

def Guarded : Guard Shared Stage Choice Event
  | world, .proc pid .go => MayGo world (world.procs pid)
  | _, _ => True

/-- One client at most is inside, and every unlock that deleted the key deleted its own. -/
structure Exclusive (world : World Shared Stage) : Prop where
  inside : ∀ pid other, Inside (world.procs pid) → Inside (world.procs other) → pid = other
  released : ∀ pid owner, (pid, owner) ∈ world.shared.released → pid = owner

/-- Who holds the key, who may still unlock it, and that clients are told apart by their
    strings. -/
structure Held (random : Nat → String) (clients : Nat) (world : World Shared Stage) : Prop where
  holder : ∀ pid since, Holds (world.procs pid) since →
    world.shared.entry = some ⟨random pid, pid, since + expiry⟩
  entry : ∀ entry, world.shared.entry = some entry →
    entry.owner < clients ∧ entry.value = random entry.owner
  unlocking : ∀ pid, pid ∈ world.shared.unlocking →
    pid < clients ∧ (world.procs pid = .unlocked ∨ world.procs pid = .dropped)
  started : ∀ pid, clients ≤ pid → world.procs pid = .idle
  single : ∀ pid other, Inside (world.procs pid) → Inside (world.procs other) → pid = other
  released : ∀ pid owner, (pid, owner) ∈ world.shared.released → pid = owner

section
variable {random : Nat → String} {clients pid : Nat} {choice : Choice}
  {world : World Shared Stage} {shared after : Shared} {stage next : Stage}

/-- What a client that goes on does. -/
inductive Effect (random : Nat → String) (clients pid : Nat) (choice : Choice) (shared : Shared)
    (stage : Stage) (after : Shared) (next : Stage) : Prop where
  | starts (near : pid < clients) (begins : stage = .idle) (same : after = shared)
    (next_ : next = .acquiring shared.now)
  | waits (notIdle : stage ≠ .idle) (early : ∀ start, stage = .checking start →
      ¬ (shared.now - start) / 1000 > 8) (notAcquired : ∀ since, stage ≠ .acquired since)
    (present : stage ≠ .unlocked ∧ stage ≠ .dropped) (same : after = shared)
    (next_ : (∃ start, next = .acquiring start ∨ next = .checking start) ∨
      ∃ start until_, next = .sleeping start until_)
  | takes (start : Nat) (acquires : stage = .acquiring start) (free : shared.entry = none)
    (after_ : after = { shared with
      entry := some ⟨random pid, pid, shared.now + expiry⟩ })
    (next_ : next = .acquired shared.now)
  | givesUp (start : Nat) (goes : choice = .go) (waited : stage = .checking start)
    (late : (shared.now - start) / 1000 > 8) (same : after = shared) (next_ : next = .inside none)
  | enters (since : Nat) (goes : choice = .go) (acquired : stage = .acquired since)
    (same : after = shared) (next_ : next = .inside (some since))
  | leaves (notIdle : stage ≠ .idle) (how : choice = .drop ∨ ∃ since, stage = .inside since)
    (after_ : after = unlock pid shared) (next_ : next = .unlocked ∨ next = .dropped)

theorem step_effect (stepped : step random clients pid choice shared stage = some (after, next)) :
    Effect random clients pid choice shared stage after next := by
  cases choice with
  | drop =>
    cases stage with
    | idle | dropped => cases stepped
    | _ =>
      obtain ⟨rfl, rfl⟩ := Prod.mk.inj (Option.some.inj stepped)
      exact .leaves Stage.noConfusion (Or.inl rfl) rfl (Or.inr rfl)
  | go =>
    cases stage with
    | dropped | unlocked => cases stepped
    | idle =>
      obtain ⟨near, same⟩ := Option.ite_none_right_eq_some.mp stepped
      obtain ⟨rfl, rfl⟩ := Prod.mk.inj (Option.some.inj same)
      exact .starts near rfl rfl rfl
    | acquiring start =>
      dsimp only [step, setexnx] at stepped
      cases entry : shared.entry with
      | none =>
        rw [entry] at stepped
        obtain ⟨rfl, rfl⟩ := Prod.mk.inj (Option.some.inj stepped)
        exact .takes start rfl entry rfl rfl
      | some taken =>
        rw [entry] at stepped
        obtain ⟨rfl, rfl⟩ := Prod.mk.inj (Option.some.inj stepped)
        exact .waits Stage.noConfusion (fun _ isChecking => by cases isChecking)
          (fun _ => Stage.noConfusion) ⟨Stage.noConfusion, Stage.noConfusion⟩ rfl (Or.inl ⟨start, Or.inr rfl⟩)
    | checking start =>
      obtain ⟨rfl, rfl⟩ := Prod.mk.inj (Option.some.inj stepped)
      by_cases late : (shared.now - start) / 1000 > 8
      · rw [if_pos late]
        exact .givesUp start rfl rfl late rfl rfl
      · rw [if_neg late]
        refine .waits Stage.noConfusion ?_ (fun _ => Stage.noConfusion)
          ⟨Stage.noConfusion, Stage.noConfusion⟩ rfl
          (Or.inr ⟨start, _, rfl⟩)
        rintro other ⟨⟩
        exact late
    | sleeping start until_ =>
      obtain ⟨_, same⟩ := Option.ite_none_right_eq_some.mp stepped
      obtain ⟨rfl, rfl⟩ := Prod.mk.inj (Option.some.inj same)
      exact .waits Stage.noConfusion (fun _ isChecking => by cases isChecking)
        (fun _ => Stage.noConfusion) ⟨Stage.noConfusion, Stage.noConfusion⟩ rfl (Or.inl ⟨start, Or.inl rfl⟩)
    | acquired since =>
      obtain ⟨rfl, rfl⟩ := Prod.mk.inj (Option.some.inj stepped)
      exact .enters since rfl rfl rfl rfl
    | inside since =>
      obtain ⟨rfl, rfl⟩ := Prod.mk.inj (Option.some.inj stepped)
      exact .leaves Stage.noConfusion (Or.inr ⟨since, rfl⟩) rfl (Or.inl rfl)

/-- A client that is somewhere has been started. -/
theorem held_near (held : Held random clients world) (notIdle : world.procs pid ≠ .idle) :
    pid < clients := by
  by_contra far
  exact notIdle (held.started pid (Nat.not_lt.mp far))

theorem holds_same {pid other since since' : Nat} (held : Held random clients world)
    (one : Holds (world.procs pid) since) (two : Holds (world.procs other) since') :
    pid = other := by
  have isOne := held.holder pid since one
  have isTwo := held.holder other since' two
  rw [isOne] at isTwo
  exact congrArg Entry.owner (Option.some.inj isTwo)

/-- A step of one client keeps what is held if it arrives where it may. -/
theorem held_moved (held : Held random clients world) (near : pid < clients)
    (holder : ∀ since, Holds next since → after.entry = some ⟨random pid, pid, since + expiry⟩)
    (others : ∀ other since, other ≠ pid → Holds (world.procs other) since →
      after.entry = world.shared.entry)
    (entry : ∀ entry, after.entry = some entry →
      entry.owner < clients ∧ entry.value = random entry.owner)
    (unlocking : ∀ other, other ∈ after.unlocking →
      (other = pid → next = .unlocked ∨ next = .dropped) ∧
        (other ≠ pid → other ∈ world.shared.unlocking))
    (alone : Inside next → ∀ other, other ≠ pid → ¬ Inside (world.procs other))
    (released : after.released = world.shared.released) :
    Held random clients (world.moved pid after next) := by
  constructor
  · intro other since holds
    by_cases same : other = pid
    · subst same
      rw [moved_same] at holds
      exact holder since holds
    · rw [moved_other _ _ _ same] at holds
      rw [moved_shared, others other since same holds]
      exact held.holder other since holds
  · exact entry
  · intro other listed
    obtain ⟨mine, elsewhere⟩ := unlocking other listed
    by_cases same : other = pid
    · subst same
      rw [moved_same]
      exact ⟨near, mine rfl⟩
    · rw [moved_other _ _ _ same]
      exact held.unlocking other (elsewhere same)
  · intro other far
    have different : other ≠ pid := by omega
    rw [moved_other _ _ _ different]
    exact held.started other far
  · intro one other isOne isOther
    by_cases first : one = pid
    · by_cases second : other = pid
      · rw [first, second]
      · rw [first, moved_same] at isOne
        rw [moved_other _ _ _ second] at isOther
        exact absurd isOther (alone isOne other second)
    · by_cases second : other = pid
      · rw [moved_other _ _ _ first] at isOne
        rw [second, moved_same] at isOther
        exact absurd isOne (alone isOther one first)
      · rw [moved_other _ _ _ first] at isOne
        rw [moved_other _ _ _ second] at isOther
        exact held.single one other isOne isOther
  · rw [moved_shared, released]
    exact held.released

theorem held_exclusive (held : Held random clients world) : Exclusive world :=
  ⟨held.single, held.released⟩

/-- A client with the key is alone inside but for those who have given up. -/
theorem alone_of_key {since : Nat} (held : Held random clients world)
    (acquired : world.procs pid = .acquired since)
    (none_ : ∀ other, world.procs other ≠ .inside none) :
    ∀ other, ¬ Inside (world.procs other) := by
  rintro other ⟨since', isInside⟩
  cases since' with
  | none => exact none_ other isInside
  | some taken =>
    have same := holds_same held (Or.inl acquired) (Or.inr isInside)
    rw [← same, acquired] at isInside
    cases isInside

theorem guarded_quiet
    (early : choice = .go → ∀ start, world.procs pid = .checking start →
      ¬ (world.shared.now - start) / 1000 > 8)
    (notAcquired : choice = .go → ∀ since, world.procs pid ≠ .acquired since) :
    Guarded world (.proc pid choice) := by
  cases choice with
  | drop => trivial
  | go =>
    change MayGo world (world.procs pid)
    cases stage : world.procs pid with
    | checking start => exact fun late => absurd late (early rfl start stage)
    | acquired since => exact absurd stage (notAcquired rfl since)
    | _ => trivial

/-- A client arrives outside, with the key as it was. -/
theorem held_outside (held : Held random clients world) (near : pid < clients)
    (nextOut : ¬ Inside next) (notHolding : ∀ since, ¬ Holds next since)
    (listed : ∀ other, other ∈ after.unlocking →
      (other = pid → next = .unlocked ∨ next = .dropped) ∧
        (other ≠ pid → other ∈ world.shared.unlocking))
    (entry : after.entry = world.shared.entry)
    (released : after.released = world.shared.released) :
    Held random clients (world.moved pid after next) := by
  apply held_moved held near
  · exact fun since holds => absurd holds (notHolding since)
  · exact fun _ _ _ _ => entry
  · rw [entry]
    exact held.entry
  · exact listed
  · exact fun isInside => absurd isInside nextOut
  · exact released

/-- A client that has not unlocked has no unlock on its way. -/
theorem not_unlocking (held : Held random clients world) (notUnlocked : world.procs pid ≠ .unlocked)
    (notDropped : world.procs pid ≠ .dropped) (other : Nat)
    (listed : other ∈ world.shared.unlocking) :
    (other = pid → next = .unlocked ∨ next = .dropped) ∧
      (other ≠ pid → other ∈ world.shared.unlocking) := by
  refine ⟨?_, fun _ => listed⟩
  rintro rfl
  obtain ⟨-, isUnlocked | isDropped⟩ := held.unlocking other listed
  · exact absurd isUnlocked notUnlocked
  · exact absurd isDropped notDropped

/-- A client is waited for only where it would go in. -/
theorem guarded_elsewhere (notChecking : ∀ start, world.procs pid ≠ .checking start)
    (notAcquired : ∀ since, world.procs pid ≠ .acquired since) :
    Guarded world (.proc pid choice) :=
  guarded_quiet (fun _ start isChecking => absurd isChecking (notChecking start))
    (fun _ => notAcquired)

/-- A client that goes in from outside: it may exactly when nobody is inside. -/
theorem goes_in {entered : Option Nat} (held : Held random clients world) (near : pid < clients)
    (outside : ¬ Inside (world.procs pid)) (notUnlocked : world.procs pid ≠ .unlocked)
    (notDropped : world.procs pid ≠ .dropped)
    (guard : Guarded world (.proc pid choice) ↔ ∀ other, ¬ Inside (world.procs other))
    (holder : ∀ since, entered = some since →
      world.shared.entry = some ⟨random pid, pid, since + expiry⟩) :
    (Guarded world (.proc pid choice) →
      Held random clients (world.moved pid world.shared (.inside entered))) ∧
    (Exclusive (world.moved pid world.shared (.inside entered)) →
      Guarded world (.proc pid choice)) := by
  rw [guard]
  constructor
  · intro nobody
    refine held_moved held near ?_ (fun _ _ _ _ => rfl) held.entry ?_ ?_ rfl
    · rintro since (⟨⟨⟩⟩ | ⟨⟨⟩⟩)
      exact holder since rfl
    · exact not_unlocking held notUnlocked notDropped
    · exact fun _ other _ => nobody other
  · intro exclusive other isInside
    have different : other ≠ pid := by
      rintro rfl
      exact outside isInside
    have same := exclusive.inside other pid
      (by rw [moved_other _ _ _ different]; exact isInside)
      (by rw [moved_same]; exact ⟨entered, rfl⟩)
    exact different same

theorem step_right (held : Held random clients world)
    (stepped : step random clients pid choice world.shared (world.procs pid) =
      some (after, next)) :
    (Guarded world (.proc pid choice) → Held random clients (world.moved pid after next)) ∧
      (Exclusive (world.moved pid after next) → Guarded world (.proc pid choice)) := by
  cases step_effect stepped with
  | starts near begins same next_ =>
    subst same next_
    have quiet : Guarded world (.proc pid choice) := by
      apply guarded_elsewhere <;> rw [begins] <;> exact fun _ => Stage.noConfusion
    refine ⟨fun _ => held_outside held near ?_ ?_ ?_ rfl rfl, fun _ => quiet⟩
    · rintro ⟨since, ⟨⟩⟩
    · rintro since (⟨⟨⟩⟩ | ⟨⟨⟩⟩)
    · apply not_unlocking held <;> rw [begins] <;> exact Stage.noConfusion
  | waits notIdle early notAcquired present same next_ =>
    subst same
    refine ⟨fun _ => held_outside held (held_near held notIdle) ?_ ?_ ?_ rfl rfl,
      fun _ => guarded_quiet (fun _ => early) (fun _ => notAcquired)⟩
    · rintro ⟨since, rfl⟩
      rcases next_ with ⟨start, next_ | next_⟩ | ⟨start, until_, next_⟩ <;> cases next_
    · rintro since (rfl | rfl) <;>
        rcases next_ with ⟨start, next_ | next_⟩ | ⟨start, until_, next_⟩ <;> cases next_
    · exact not_unlocking held present.1 present.2
  | takes start acquires free after_ next_ =>
    subst after_ next_
    have near : pid < clients := held_near held (by rw [acquires]; exact Stage.noConfusion)
    have quiet : Guarded world (.proc pid choice) := by
      apply guarded_elsewhere <;> rw [acquires] <;> exact fun _ => Stage.noConfusion
    refine ⟨fun _ => held_moved held near ?_ ?_ ?_ ?_ ?_ rfl, fun _ => quiet⟩
    · rintro since (same | isInside)
      · cases same
        rfl
      · cases isInside
    · intro other since _ holds
      rw [held.holder other since holds] at free
      cases free
    · rintro entry ⟨⟩
      exact ⟨near, rfl⟩
    · apply not_unlocking held <;> rw [acquires] <;> exact Stage.noConfusion
    · rintro ⟨since, ⟨⟩⟩
  | givesUp start goes waited late same next_ =>
    subst goes same next_
    have guard : Guarded world (.proc pid .go) ↔ ∀ other, ¬ Inside (world.procs other) := by
      change MayGo world (world.procs pid) ↔ _
      rw [waited]
      exact ⟨fun mayGo => mayGo late, fun nobody _ => nobody⟩
    apply goes_in held _ _ _ _ guard
    · exact fun _ absent => nomatch absent
    · exact held_near held (by rw [waited]; exact Stage.noConfusion)
    · rintro ⟨since, isInside⟩
      rw [waited] at isInside
      cases isInside
    · rw [waited]
      exact Stage.noConfusion
    · rw [waited]
      exact Stage.noConfusion
  | enters since goes acquired same next_ =>
    subst goes same next_
    have guard : Guarded world (.proc pid .go) ↔ ∀ other, ¬ Inside (world.procs other) := by
      change MayGo world (world.procs pid) ↔ _
      rw [acquired]
      exact ⟨alone_of_key held acquired, fun nobody other isInside => nobody other ⟨none, isInside⟩⟩
    apply goes_in held _ _ _ _ guard
    · rintro _ ⟨⟩
      exact held.holder pid since (Or.inl acquired)
    · exact held_near held (by rw [acquired]; exact Stage.noConfusion)
    · rintro ⟨since', isInside⟩
      rw [acquired] at isInside
      cases isInside
    · rw [acquired]
      exact Stage.noConfusion
    · rw [acquired]
      exact Stage.noConfusion
  | leaves notIdle how after_ next_ =>
    subst after_
    have quiet : Guarded world (.proc pid choice) := by
      rcases how with rfl | ⟨since, isInside⟩
      · trivial
      · apply guarded_elsewhere <;> rw [isInside] <;> exact fun _ => Stage.noConfusion
    refine ⟨fun _ => held_outside held (held_near held notIdle) ?_ ?_ ?_ rfl rfl, fun _ => quiet⟩
    · rintro ⟨since, rfl⟩
      rcases next_ with next_ | next_ <;> cases next_
    · rintro since (rfl | rfl) <;> rcases next_ with next_ | next_ <;> cases next_
    · intro other listed
      refine ⟨fun _ => next_, fun different => ?_⟩
      rcases List.mem_cons.mp listed with same | earlier
      · exact absurd same different
      · exact earlier

theorem held_tick (held : Held random clients world) {ms : Nat}
    (prompt : Prompt world (.outside (.tick ms))) :
    Held random clients ⟨tick ms world.shared, world.procs⟩ := by
  refine ⟨?_, ?_, held.unlocking, held.started, held.single, held.released⟩
  · intro pid since holds
    have isEntry := held.holder pid since holds
    have early : world.shared.now + ms < since + expiry := prompt pid since holds
    simp [tick, isEntry, early]
  · intro entry isEntry
    exact held.entry entry (Option.filter_eq_some_iff.mp isEntry).1

/-- An unlock that comes late finds its own key, another one's, or none. -/
theorem held_del (held : Held random clients world)
    (distinct : ∀ pid < clients, ∀ other < clients, random pid = random other → pid = other)
    (deleted : del_if_value random pid world.shared = some after) :
    Held random clients ⟨after, world.procs⟩ := by
  obtain ⟨listed, deleted⟩ := Option.ite_none_right_eq_some.mp deleted
  obtain ⟨near, over_⟩ := held.unlocking pid listed
  have erased : ∀ other, other ∈ world.shared.unlocking.erase pid →
      other < clients ∧ (world.procs other = .unlocked ∨ world.procs other = .dropped) :=
    fun other still => held.unlocking other (List.mem_of_mem_erase still)
  have holder := held.holder
  have entries := held.entry
  cases isEntry : world.shared.entry with
  | none =>
    rw [isEntry] at deleted holder entries
    cases deleted
    exact ⟨holder, entries, erased, held.started, held.single, held.released⟩
  | some entry =>
    rw [isEntry] at deleted holder entries
    dsimp only at deleted
    obtain ⟨ownerNear, isValue⟩ := held.entry entry isEntry
    split at deleted
    · rename_i own
      cases deleted
      have same : entry.owner = pid := distinct _ ownerNear _ near (isValue.symm.trans own)
      refine ⟨?_, ?_, erased, held.started, held.single, ?_⟩
      · intro other since holds
        have isOther := holder other since holds
        have isPid : other = pid := by
          rw [← same, Option.some.inj isOther]
        rw [isPid] at holds
        rcases over_ with over_ | over_ <;> rw [over_] at holds <;> rcases holds with h | h <;>
          cases h
      · intro other isOther
        cases isOther
      · intro unlocker owner released
        rcases List.mem_cons.mp released with new | old
        · cases new
          exact same.symm
        · exact held.released unlocker owner old
    · cases deleted
      exact ⟨holder, entries, erased, held.started, held.single, held.released⟩

theorem idle_held (random : Nat → String) (clients : Nat) : Held random clients idle := by
  constructor
  · rintro pid since (⟨⟨⟩⟩ | ⟨⟨⟩⟩)
  · rintro entry ⟨⟩
  · rintro pid ⟨⟩
  · exact fun _ _ => rfl
  · rintro pid other ⟨since, ⟨⟩⟩
  · rintro pid owner ⟨⟩

theorem action_right {world after : World Shared Stage} {action : Action Choice Event}
    (held : Held random clients world)
    (distinct : ∀ pid < clients, ∀ other < clients, random pid = random other → pid = other)
    (prompt : Prompt world action) (acted : act (mutex random clients) world action = some after) :
    (Guarded world action → Held random clients after) ∧
      (Exclusive after → Guarded world action) := by
  rcases act_cases acted with ⟨pid, choice, shared, stage, rfl, stepped, rfl⟩ |
    ⟨event, shared, rfl, happened, rfl⟩
  · exact step_right held stepped
  · refine ⟨fun _ => ?_, fun _ => trivial⟩
    cases event with
    | tick ms =>
      cases happened
      exact held_tick held prompt
    | del_if_value pid => exact held_del held distinct happened

end

/-- In every run in which the holders are prompt and a client that gives up waiting finds
    nobody inside, one client at most is inside and no unlock deletes the key of another;
    and the next step keeps this exactly if it is guarded too. -/
theorem mutual_exclusion (random : Nat → String) (clients : Nat)
    (distinct : ∀ pid < clients, ∀ other < clients, random pid = random other → pid = other)
    (last : World Shared Stage)
    (run : Run (mutex random clients) (fun world action => Prompt world action ∧
      Guarded world action) idle last) :
    Exclusive last ∧ ∀ action after, Prompt last action →
      act (mutex random clients) last action = some after →
        (Guarded last action ↔ Exclusive after) := by
  have held : Held random clients last := by
    apply run_keeps (Held random clients) (idle_held random clients) _ run
    rintro world action after held ⟨prompt, guarded⟩ acted
    exact (action_right held distinct prompt acted).1 guarded
  refine ⟨held_exclusive held, ?_⟩
  intro action after prompt acted
  obtain ⟨keeps, needs⟩ := action_right held distinct prompt acted
  exact ⟨fun guarded => held_exclusive (keeps guarded), needs⟩

def sample : Nat → String
  | 0 => "qW3eRt5yU0"
  | 1 => "aS2dFg4hJ1"
  | _ => "zX8cVb6nM7"

/-- Nobody gives up. -/
def patient (world : World Shared Stage) : Action Choice Event → Bool
  | .proc pid .go =>
    match world.procs pid with
    | .checking start => !decide ((world.shared.now - start) / 1000 > 8)
    | _ => true
  | .outside (.tick _) => false
  | _ => true

theorem patient_guarded (world : World Shared Stage) (action : Action Choice Event)
    (noneInside : ∀ pid, world.procs pid ≠ .inside none) (check : patient world action = true) :
    Prompt world action ∧ Guarded world action := by
  cases action with
  | outside event =>
    cases event with
    | tick ms => cases check
    | del_if_value pid => exact ⟨trivial, trivial⟩
  | proc pid choice =>
    refine ⟨trivial, ?_⟩
    cases choice with
    | drop => trivial
    | go =>
      change MayGo world (world.procs pid)
      dsimp only [patient] at check
      cases stage : world.procs pid with
      | checking start =>
        rw [stage] at check
        intro late
        simp [late] at check
      | acquired since => exact noneInside
      | _ => trivial

theorem patient_stays (random : Nat → String) (clients : Nat) (world : World Shared Stage)
    (action : Action Choice Event) (after : World Shared Stage)
    (noneInside : ∀ pid, world.procs pid ≠ .inside none) (check : patient world action = true)
    (acted : act (mutex random clients) world action = some after) :
    ∀ pid, after.procs pid ≠ .inside none := by
  rcases act_cases acted with ⟨pid, choice, shared, stage, rfl, stepped, rfl⟩ |
    ⟨event, shared, rfl, happened, rfl⟩
  · intro other
    by_cases same : other = pid
    · subst same
      rw [moved_same]
      rintro rfl
      cases step_effect stepped with
      | starts _ _ _ next_ => cases next_
      | waits _ _ _ _ _ next_ =>
        rcases next_ with ⟨start, next_ | next_⟩ | ⟨start, until_, next_⟩ <;> cases next_
      | takes _ _ _ _ next_ => cases next_
      | givesUp start goes waited late =>
        subst goes
        simp [patient, waited, late] at check
      | enters _ _ _ _ next_ => cases next_
      | leaves _ _ _ next_ => rcases next_ with next_ | next_ <;> cases next_
    · rw [moved_other _ _ _ same]
      exact noneInside other
  · exact noneInside

/-- The second client begins to lock while the first is inside, and gets the key when the
    unlock of the first has run. -/
def in_turn : List (Action Choice Event) :=
  [.proc 0 .go, .proc 0 .go, .proc 0 .go, .proc 1 .go, .proc 0 .go,
    .outside (.del_if_value 0), .proc 1 .go, .proc 1 .go]

theorem mutual_exclusion_in_turn : ∃ last, runWhere (mutex sample 2) patient idle in_turn = some last ∧
    last.procs 1 = .inside (some 0) ∧ last.shared.released = [(0, 0)] ∧ Exclusive last := by
  have ran : ∃ last, runWhere (mutex sample 2) patient idle in_turn = some last ∧
      last.procs 1 = .inside (some 0) ∧ last.shared.released = [(0, 0)] :=
    ⟨_, rfl, by decide, by decide⟩
  obtain ⟨last, took, second, released⟩ := ran
  have guarded : Run (mutex sample 2) (fun world action => Prompt world action ∧
      Guarded world action) idle last :=
    run_of_runWhere_within (fun world => ∀ pid, world.procs pid ≠ .inside none)
      patient_guarded (patient_stays sample 2) in_turn (fun _ => Stage.noConfusion) took
  exact ⟨last, took, second, released, (mutual_exclusion sample 2 (by decide) last guarded).1⟩

def holdsOver (now : Nat) : Stage → Bool
  | .acquired since => decide (since + expiry ≤ now)
  | .inside (some since) => decide (since + expiry ≤ now)
  | _ => false

/-- Only the first three clients move, and those that have the key are done in time. -/
def in_time (world : World Shared Stage) : Action Choice Event → Bool
  | .proc pid _ => decide (pid < 3)
  | .outside (.tick ms) =>
    (List.range 3).all fun pid => !holdsOver (world.shared.now + ms) (world.procs pid)
  | .outside (.del_if_value _) => true

theorem in_time_prompt (world : World Shared Stage) (action : Action Choice Event)
    (silent : ∀ pid, 3 ≤ pid → world.procs pid = .idle) (check : in_time world action = true) :
    Prompt world action := by
  cases action with
  | proc pid choice => trivial
  | outside event =>
    cases event with
    | del_if_value pid => trivial
    | tick ms =>
      intro pid since holds
      by_cases far : 3 ≤ pid
      · rw [silent pid far] at holds
        rcases holds with holds | holds <;> cases holds
      · have early := List.all_eq_true.mp check pid (List.mem_range.mpr (Nat.not_le.mp far))
        rcases holds with holds | holds <;> rw [holds] at early <;>
          simpa [holdsOver] using early

theorem in_time_stays (random : Nat → String) (clients : Nat) (world : World Shared Stage)
    (action : Action Choice Event) (after : World Shared Stage)
    (silent : ∀ pid, 3 ≤ pid → world.procs pid = .idle) (check : in_time world action = true)
    (acted : act (mutex random clients) world action = some after) :
    ∀ pid, 3 ≤ pid → after.procs pid = .idle :=
  silent_from (· = .idle) (fun _ _ _ near => of_decide_eq_true near) silent check acted

/-- The first client sleeps for 200 ms and finds the key taken. -/
def tries_again (times : Nat) : List (Action Choice Event) :=
  (List.replicate times
    [.proc 0 .go, .outside (.tick 200), .proc 0 .go, .proc 0 .go]).flatten

/-- The second client is inside for 5 seconds and the third one after it for 4, while the
    first one waits. -/
def two_in_a_row : List (Action Choice Event) :=
  [.proc 1 .go, .proc 1 .go, .proc 1 .go, .proc 0 .go, .proc 0 .go] ++ tries_again 25 ++
    [.proc 1 .go, .outside (.del_if_value 1), .proc 2 .go, .proc 2 .go, .proc 2 .go] ++
      tries_again 20 ++ [.proc 0 .go]

set_option maxRecDepth 8000 in
/-- A client that has waited for nine seconds is let in beside the one that is inside. -/
theorem let_in_beside : ¬ ∀ random clients last,
    (∀ pid < clients, ∀ other < clients, random pid = random other → pid = other) →
      Run (mutex random clients) Prompt idle last → Exclusive last := by
  intro exclusive
  have ran : ∃ last, runWhere (mutex sample 3) in_time idle two_in_a_row = some last ∧
      last.procs 0 = .inside none ∧ last.procs 2 = .inside (some 5000) :=
    ⟨_, rfl, by decide, by decide⟩
  obtain ⟨last, took, first, third⟩ := ran
  have run : Run (mutex sample 3) Prompt idle last :=
    run_of_runWhere_within (fun world => ∀ pid, 3 ≤ pid → world.procs pid = .idle)
      in_time_prompt (in_time_stays sample 3) two_in_a_row (fun _ _ => rfl) took
  have same := (exclusive sample 3 last (by decide) run).inside 0 2 ⟨none, first⟩ ⟨some 5000, third⟩
  cases same

end DistributedMutex
