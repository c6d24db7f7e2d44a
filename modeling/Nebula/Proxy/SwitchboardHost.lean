import Mathlib.Data.List.Sort
import Nebula.Lib.Interleaving

/- Which switchboard host a tenant's calls go to. The calls of one tenant run side
   by side, one Redis command at a time, while hosts report, hosts disappear and
   the stored value expires. -/
namespace SwitchboardHost
open Interleaving

/-- The stored host of the tenant, the hosts by their number of channels, and the
    hosts whose own key has not expired. -/
structure Shared where
  stored : Option String
  registered : List (Int × String)
  live : List String
  deriving DecidableEq

/-- Where a call of decide_switchboard_host stands. -/
inductive Proc where
  | idle
  | start
  | isLive (stored : String)
  | pick
  | exists (host : String) (rest : List String)
  | zrem (host : String) (rest : List String)
  | setOrEx (picked : String)
  | returned (host : String)
  deriving DecidableEq

def isSwitchboardHostLive (host : String) (shared : Shared) : Bool := shared.live.contains host

/-- The rest of the loop of pick_switchboard_host; the configured host is taken
    when it finds none. -/
def scan (fallback : String) : List String → Proc
  | [] => .setOrEx fallback
  | host :: rest => .exists host rest

def step (fallback : String) (shared : Shared) : Proc → Option (Shared × Proc)
  | .start =>
    match shared.stored with
    | none => some (shared, .pick)
    | some host => some (shared, if host = "" then .pick else .isLive host)
  | .isLive host =>
    some (shared, if isSwitchboardHostLive host shared then .returned host else .pick)
  | .pick => some (shared, scan fallback (shared.registered.map Prod.snd))
  | .exists host rest =>
    some (shared, if isSwitchboardHostLive host shared then .setOrEx host else .zrem host rest)
  | .zrem host rest =>
    some ({ shared with registered := shared.registered.filter (·.2 ≠ host) },
      scan fallback rest)
  | .setOrEx picked =>
    match shared.stored with
    | none => some ({ shared with stored := some picked }, .returned picked)
    | some host => some (shared, .returned host)
  | .returned _ => none
  | .idle => none

inductive Event where
  | expire
  | report (host : String) (channels : Int)
  | gone (host : String)

/-- Members of the sorted set stand by score, then by name. -/
def before (left right : Int × String) : Prop :=
  left.1 < right.1 ∨ left.1 = right.1 ∧ left.2 ≤ right.2

instance : DecidableRel before := fun _ _ => inferInstanceAs (Decidable (_ ∨ _))

def outside (event : Event) (shared : Shared) : Option Shared :=
  match event with
  | .expire => some { shared with stored := none }
  | .report host channels =>
    some { shared with
      live := shared.live.insert host
      registered :=
        (shared.registered.filter (·.2 ≠ host)).orderedInsert before (channels, host) }
  | .gone host => some { shared with live := shared.live.filter (· ≠ host) }

def system (fallback : String) : System Shared Proc Unit Event where
  step := fun _ _ => step fallback
  outside := outside

/-- All calls of the run are still to come. -/
def AllToCome (world : World Shared Proc) : Prop :=
  ∀ pid, world.procs pid = .start ∨ world.procs pid = .idle

def SomeLive (shared : Shared) : Prop :=
  ∃ member ∈ shared.registered, member.2 ∈ shared.live

/-- No host that is stored for the tenant is dead. -/
def StoredLive (shared : Shared) : Prop := ∀ host, shared.stored = some host → host ∈ shared.live

/-- The action leaves the set of live hosts as it is. -/
def SameHosts (fallback : String) (world : World Shared Proc) (action : Action Unit Event) : Prop :=
  ∀ after, act (system fallback) world action = some after →
    ∀ host, host ∈ after.shared.live ↔ host ∈ world.shared.live

/-- The stored value does not expire. -/
def NoExpiry (_ : World Shared Proc) (action : Action Unit Event) : Prop :=
  action ≠ .outside .expire

theorem step_live {fallback : String} {shared after : Shared} {proc arrived : Proc}
    (stepped : step fallback shared proc = some (after, arrived)) : after.live = shared.live := by
  cases proc with
  | start =>
    simp only [step] at stepped
    split at stepped <;> cases stepped <;> rfl
  | setOrEx picked =>
    simp only [step] at stepped
    split at stepped <;> cases stepped <;> rfl
  | returned host => cases stepped
  | idle => cases stepped
  | _ => cases stepped; rfl

/-- Once a value is stored, no call changes it. -/
theorem step_stored {fallback : String} {shared after : Shared} {proc arrived : Proc}
    (stepped : step fallback shared proc = some (after, arrived)) {host : String}
    (stored : shared.stored = some host) : after.stored = some host := by
  cases proc with
  | start =>
    simp only [step] at stepped
    split at stepped <;> cases stepped <;> exact stored
  | setOrEx picked =>
    simp only [step, stored] at stepped
    cases stepped
    exact stored
  | returned host => cases stepped
  | idle => cases stepped
  | _ => cases stepped; exact stored

/-- What a call relies on where it stands: a live host is among those it has yet to
    try, and what it has found is live. -/
def Known (shared : Shared) : Proc → Prop
  | .exists host rest => ∃ other ∈ host :: rest, other ∈ shared.live
  | .zrem host rest => host ∉ shared.live ∧ ∃ other ∈ rest, other ∈ shared.live
  | .setOrEx picked => picked ∈ shared.live
  | .returned host => host ∈ shared.live
  | _ => True

def outline : Outline Shared Proc :=
  ⟨fun shared => SomeLive shared ∧ StoredLive shared, Known, fun _ _ => True⟩

theorem known_same {shared after : Shared} (same : ∀ host, host ∈ after.live ↔ host ∈ shared.live)
    {proc : Proc} (known : Known shared proc) : Known after proc := by
  cases proc with
  | «exists» host rest =>
    obtain ⟨other, member, live⟩ := known
    exact ⟨other, member, (same other).2 live⟩
  | zrem host rest =>
    obtain ⟨dead, other, member, live⟩ := known
    exact ⟨fun lives => dead ((same host).1 lives), other, member, (same other).2 live⟩
  | setOrEx picked => exact (same picked).2 known
  | returned host => exact (same host).2 known
  | _ => trivial

theorem known_scan {fallback : String} {shared : Shared} {hosts : List String}
    (live : ∃ host ∈ hosts, host ∈ shared.live) : Known shared (scan fallback hosts) := by
  cases hosts with
  | nil =>
    obtain ⟨host, member, _⟩ := live
    cases member
  | cons host rest => exact live

theorem someLive_remove {shared : Shared} (someLive : SomeLive shared) {host : String}
    (dead : host ∉ shared.live) :
    SomeLive { shared with registered := shared.registered.filter (·.2 ≠ host) } := by
  obtain ⟨member, registered, live⟩ := someLive
  refine ⟨member, List.mem_filter.2 ⟨registered, ?_⟩, live⟩
  have other : member.2 ≠ host := by
    intro same
    exact dead (same ▸ live)
  simpa using other

/-- The step lemma: with live hosts to choose from and none but live ones stored, a
    call only ever finds live ones. -/
theorem step_known {fallback : String} {shared after : Shared} {proc arrived : Proc}
    (someLive : SomeLive shared) (storedLive : StoredLive shared) (known : Known shared proc)
    (stepped : step fallback shared proc = some (after, arrived)) :
    SomeLive after ∧ StoredLive after ∧ Known after arrived := by
  cases proc with
  | start =>
    simp only [step] at stepped
    split at stepped
    · cases stepped
      exact ⟨someLive, storedLive, trivial⟩
    · cases stepped
      refine ⟨someLive, storedLive, ?_⟩
      split <;> trivial
  | isLive host =>
    cases stepped
    refine ⟨someLive, storedLive, ?_⟩
    split
    · rename_i live
      exact List.contains_iff_mem.1 live
    · trivial
  | pick =>
    cases stepped
    obtain ⟨member, registered, live⟩ := someLive
    exact ⟨⟨member, registered, live⟩, storedLive,
      known_scan ⟨member.2, List.mem_map_of_mem registered, live⟩⟩
  | «exists» host rest =>
    cases stepped
    refine ⟨someLive, storedLive, ?_⟩
    split
    · rename_i live
      exact List.contains_iff_mem.1 live
    · rename_i dead
      have gone : host ∉ shared.live := fun live => dead (List.contains_iff_mem.2 live)
      obtain ⟨other, member, live⟩ := known
      rcases List.mem_cons.1 member with first | later
      · exact absurd (first ▸ live) gone
      · exact ⟨gone, other, later, live⟩
  | zrem host rest =>
    cases stepped
    exact ⟨someLive_remove someLive known.1, storedLive, known_scan known.2⟩
  | setOrEx picked =>
    simp only [step] at stepped
    split at stepped
    · cases stepped
      refine ⟨someLive, ?_, known⟩
      intro host stored
      cases stored
      exact known
    · rename_i host stored
      cases stepped
      exact ⟨someLive, storedLive, storedLive host stored⟩
  | returned host => cases stepped
  | idle => cases stepped

theorem outside_keeps {event : Event} {shared after : Shared}
    (happened : outside event shared = some after)
    (same : ∀ host, host ∈ after.live ↔ host ∈ shared.live) (someLive : SomeLive shared)
    (storedLive : StoredLive shared) : SomeLive after ∧ StoredLive after := by
  cases event with
  | expire =>
    cases happened
    refine ⟨someLive, ?_⟩
    intro host stored
    cases stored
  | report host channels =>
    cases happened
    constructor
    · obtain ⟨member, registered, live⟩ := someLive
      by_cases reported : member.2 = host
      · refine ⟨(channels, host), (List.mem_orderedInsert before).2 (Or.inl rfl), ?_⟩
        exact List.mem_insert_self
      · refine ⟨member, (List.mem_orderedInsert before).2 (Or.inr ?_), (same _).2 live⟩
        exact List.mem_filter.2 ⟨registered, by simpa using reported⟩
    · intro other stored
      exact (same other).2 (storedLive other stored)
  | gone host =>
    cases happened
    constructor
    · obtain ⟨member, registered, live⟩ := someLive
      exact ⟨member, registered, (same _).2 live⟩
    · intro other stored
      exact (same other).2 (storedLive other stored)

theorem outline_of_run {fallback : String} {first world : World Shared Proc}
    (toCome : AllToCome first) (someLive : SomeLive first.shared)
    (storedLive : StoredLive first.shared)
    (run : Run (system fallback) (SameHosts fallback) first world) : outline.Holds world := by
  apply Outline.run_holds (fun _ _ _ => trivial) _ _ _ run
  · refine ⟨⟨someLive, storedLive⟩, ?_, fun _ _ _ => trivial⟩
    intro pid
    rcases toCome pid with starts | idle
    · rw [starts]
      trivial
    · rw [idle]
      trivial
  · intro world pid choice after arrived holds _ stepped
    obtain ⟨stillSome, stillLive, known⟩ :=
      step_known holds.whole.1 holds.whole.2 (holds.known pid) stepped
    refine ⟨⟨stillSome, stillLive⟩, known, ?_, fun _ _ => trivial⟩
    intro other _
    exact known_same (fun host => by rw [step_live stepped]) (holds.known other)
  · intro world event after holds allowed happened
    have same : ∀ host, host ∈ after.live ↔ host ∈ world.shared.live :=
      allowed ⟨after, world.procs⟩ (act_outside happened)
    exact ⟨outside_keeps happened same holds.whole.1 holds.whole.2,
      fun pid => known_same same (holds.known pid), holds.apart⟩

/-- One command of one call is a run. -/
theorem run_step {fallback : String} {world : World Shared Proc} {pid : Nat} {after : Shared}
    {arrived : Proc} (stepped : step fallback world.shared (world.procs pid) = some (after, arrived)) :
    Run (system fallback) (SameHosts fallback) world (world.moved pid after arrived) := by
  have acted : act (system fallback) world (.proc pid ()) = some (world.moved pid after arrived) :=
    act_proc stepped
  refine Run.next Run.start ?_ acted
  intro other same
  rw [acted] at same
  cases same
  intro host
  rw [moved_shared, step_live stepped]

/-- The loop over the registered hosts comes to an end, whatever it finds. -/
theorem run_scan {fallback : String} (pid : Nat) (hosts : List String) :
    ∀ {world : World Shared Proc}, world.procs pid = scan fallback hosts →
      ∃ after picked, Run (system fallback) (SameHosts fallback) world after ∧
        after.procs pid = .setOrEx picked ∧ after.shared.stored = world.shared.stored ∧
        after.shared.live = world.shared.live := by
  induction hosts with
  | nil =>
    intro world stands
    exact ⟨world, fallback, Run.start, stands, rfl, rfl⟩
  | cons host rest ih =>
    intro world stands
    by_cases live : isSwitchboardHostLive host world.shared = true
    · have tried : step fallback world.shared (world.procs pid) =
          some (world.shared, .setOrEx host) := by
        rw [stands]
        simp [scan, step, live]
      exact ⟨_, host, run_step tried, moved_same _ _ _ _, rfl, rfl⟩
    · have tried : step fallback world.shared (world.procs pid) =
          some (world.shared, .zrem host rest) := by
        rw [stands]
        simp [scan, step, live]
      have removed : step fallback (world.moved pid world.shared (.zrem host rest)).shared
          ((world.moved pid world.shared (.zrem host rest)).procs pid) =
          some ({ world.shared with
            registered := world.shared.registered.filter (·.2 ≠ host) }, scan fallback rest) := by
        rw [moved_same]
        rfl
      obtain ⟨after, picked, run, stands', stored, live'⟩ := ih (moved_same _ _ _ _)
      exact ⟨after, picked, run_trans (run_trans (run_step tried) (run_step removed)) run, stands',
        stored, live'⟩

/-- With a dead host stored, a call can only return that host. -/
theorem returns_dead {fallback : String} {first : World Shared Proc} {pid : Nat} {host : String}
    (starts : first.procs pid = .start) (stored : first.shared.stored = some host)
    (dead : host ∉ first.shared.live) :
    ∃ world, Run (system fallback) (SameHosts fallback) first world ∧
      world.procs pid = .returned host ∧ host ∉ world.shared.live := by
  have picks : ∃ world, Run (system fallback) (SameHosts fallback) first world ∧
      world.procs pid = .pick ∧ world.shared = first.shared := by
    by_cases empty : host = ""
    · have read : step fallback first.shared (first.procs pid) = some (first.shared, .pick) := by
        rw [starts]
        simp [step, stored, empty]
      exact ⟨_, run_step read, moved_same _ _ _ _, rfl⟩
    · have read : step fallback first.shared (first.procs pid) =
          some (first.shared, .isLive host) := by
        rw [starts]
        simp [step, stored, empty]
      have checked : step fallback (first.moved pid first.shared (.isLive host)).shared
          ((first.moved pid first.shared (.isLive host)).procs pid) =
          some (first.shared, .pick) := by
        rw [moved_same]
        simp [step, isSwitchboardHostLive, dead]
      exact ⟨_, run_trans (run_step read) (run_step checked), moved_same _ _ _ _, rfl⟩
  obtain ⟨world, run, stands, same⟩ := picks
  have listed : step fallback world.shared (world.procs pid) =
      some (world.shared, scan fallback (world.shared.registered.map Prod.snd)) := by
    rw [stands]
    rfl
  obtain ⟨after, picked, scanned, stands', stored', live'⟩ :=
    run_scan pid _ (moved_same world pid world.shared
      (scan fallback (world.shared.registered.map Prod.snd)))
  have still : after.shared.stored = some host := by
    rw [stored', moved_shared, same, stored]
  have answered : step fallback after.shared (after.procs pid) =
      some (after.shared, .returned host) := by
    rw [stands']
    simp [step, still]
  refine ⟨_, run_trans (run_trans run (run_trans (run_step listed) scanned)) (run_step answered),
    moved_same _ _ _ _, ?_⟩
  rw [moved_shared, live', moved_shared, same]
  exact dead

/-- What a call of the run has read or returned is what is stored. -/
def Agreeing (first world : World Shared Proc) : Prop :=
  ∀ pid, first.procs pid = .start → ∀ host,
    world.procs pid = .isLive host ∨ world.procs pid = .returned host →
      world.shared.stored = some host

theorem scan_goes_on (fallback : String) (hosts : List String) (host : String) :
    ¬ (scan fallback hosts = .isLive host ∨ scan fallback hosts = .returned host) := by
  cases hosts <;> simp [scan]

theorem step_agrees {fallback : String} {shared after : Shared} {proc : Proc} {arrived : Proc}
    (known : ∀ host, proc = .isLive host ∨ proc = .returned host → shared.stored = some host)
    (stepped : step fallback shared proc = some (after, arrived)) (host : String)
    (reached : arrived = .isLive host ∨ arrived = .returned host) : after.stored = some host := by
  cases proc with
  | start =>
    simp only [step] at stepped
    split at stepped
    · cases stepped
      simp at reached
    · rename_i other stored
      cases stepped
      split at reached
      · simp at reached
      · simpa [stored] using reached
  | isLive other =>
    cases stepped
    have stored := known other (Or.inl rfl)
    split at reached
    · simpa [stored] using reached
    · simp at reached
  | pick =>
    cases stepped
    exact absurd reached (scan_goes_on _ _ host)
  | «exists» other rest =>
    cases stepped
    split at reached <;> simp at reached
  | zrem other rest =>
    cases stepped
    exact absurd reached (scan_goes_on _ _ host)
  | setOrEx picked =>
    simp only [step] at stepped
    split at stepped
    · cases stepped
      simpa using reached
    · rename_i other stored
      cases stepped
      simpa [stored] using reached
  | returned other => cases stepped
  | idle => cases stepped

theorem outside_stored {event : Event} {shared after : Shared}
    (happened : outside event shared = some after) (kept : event ≠ .expire) :
    after.stored = shared.stored := by
  cases event with
  | expire => exact absurd rfl kept
  | report host channels => cases happened; rfl
  | gone host => cases happened; rfl

theorem agreeing_of_run {fallback : String} {first world : World Shared Proc}
    (run : Run (system fallback) NoExpiry first world) : Agreeing first world := by
  apply run_keeps (Agreeing first) _ _ run
  · intro pid starts host reached
    rw [starts] at reached
    simp at reached
  · intro world action after agreeing allowed acted
    rcases act_cases acted with ⟨pid, choice, shared, arrived, rfl, stepped, rfl⟩ |
      ⟨event, shared, rfl, happened, rfl⟩
    · intro other starts host reached
      by_cases same : other = pid
      · subst same
        rw [moved_same] at reached
        exact step_agrees (agreeing other starts) stepped host reached
      · rw [moved_other _ _ _ same] at reached
        exact step_stored stepped (agreeing other starts host reached)
    · intro pid starts host reached
      have kept : event ≠ .expire := by
        intro expires
        subst expires
        exact allowed rfl
      rw [outside_stored happened kept]
      exact agreeing pid starts host reached

/- Calls that run while the live hosts stay the same all return live hosts, unless
   a dead host was stored before them; and calls between which the stored value
   does not expire return the same host. -/
theorem decided_live_iff_stored_live (fallback : String) :
    (∀ first : World Shared Proc, AllToCome first → (∃ pid, first.procs pid = .start) →
      SomeLive first.shared →
        ((∀ world, Run (system fallback) (SameHosts fallback) first world →
          ∀ pid host, world.procs pid = .returned host → host ∈ world.shared.live) ↔
            StoredLive first.shared)) ∧
      ∀ first world : World Shared Proc, Run (system fallback) NoExpiry first world →
        ∀ pid other host host', first.procs pid = .start → first.procs other = .start →
          world.procs pid = .returned host → world.procs other = .returned host' →
            host = host' := by
  constructor
  · intro first toCome called someLive
    constructor
    · intro always host stored
      by_contra dead
      obtain ⟨pid, starts⟩ := called
      obtain ⟨world, run, returned, stillDead⟩ := returns_dead starts stored dead
      exact stillDead (always world run pid host returned)
    · intro storedLive world run pid host returned
      have known : Known world.shared (world.procs pid) :=
        (outline_of_run toCome someLive storedLive run).known pid
      rw [returned] at known
      exact known
  · intro first world run pid other host host' starts starts' returned returned'
    have agreeing := agreeing_of_run run
    have left := agreeing pid starts host (Or.inr returned)
    have right := agreeing other starts' host' (Or.inr returned')
    exact Option.some.inj (left.symm.trans right)

def nodes (stored : Option String) : World Shared Proc :=
  ⟨{ stored := stored, registered := [(0, "10.0.0.1"), (3, "10.0.0.2")], live := ["10.0.0.2"] },
    fun pid => if pid < 2 then .start else .idle⟩

theorem nodes_toCome (stored : Option String) : AllToCome (nodes stored) := by
  intro pid
  by_cases calls : pid < 2
  · exact Or.inl (if_pos calls)
  · exact Or.inr (if_neg calls)

/-- Two calls at once, with nothing stored. -/
theorem decided_live_two_calls :
    ∃ world, runAll (system "127.0.0.1") (nodes none)
        [.proc 0 (), .proc 1 (), .proc 0 (), .proc 1 (), .proc 0 (), .proc 1 (), .proc 0 (),
          .proc 0 (), .proc 1 (), .proc 1 (), .proc 1 (), .proc 0 ()] = some world ∧
      world.procs 0 = .returned "10.0.0.2" ∧ world.procs 1 = .returned "10.0.0.2" ∧
      ∀ world', Run (system "127.0.0.1") (SameHosts "127.0.0.1") (nodes none) world' →
        ∀ pid host, world'.procs pid = .returned host → host ∈ world'.shared.live := by
  refine ⟨_, rfl, rfl, rfl, ?_⟩
  apply ((decided_live_iff_stored_live "127.0.0.1").1 (nodes none) (nodes_toCome none)
    ⟨0, rfl⟩ ⟨(3, "10.0.0.2"), by decide, by decide⟩).2
  intro host stored
  cases stored

/- The stored host is gone, another one is registered and live, and the call still
   returns the one that is gone. -/
theorem returns_stored_dead :
    (∃ world, runAll (system "127.0.0.1") (nodes (some "10.0.0.1"))
        (List.replicate 7 (.proc 0 ())) = some world ∧
      world.procs 0 = .returned "10.0.0.1" ∧ "10.0.0.1" ∉ world.shared.live ∧
      "10.0.0.2" ∈ world.shared.live) ∧
    ¬ ∀ (fallback : String) (first world : World Shared Proc), AllToCome first →
      SomeLive first.shared → Run (system fallback) (SameHosts fallback) first world →
        ∀ pid host, world.procs pid = .returned host → host ∈ world.shared.live := by
  constructor
  · exact ⟨_, rfl, rfl, by decide, by decide⟩
  · intro always
    have someLive : SomeLive (nodes (some "10.0.0.1")).shared :=
      ⟨(3, "10.0.0.2"), by decide, by decide⟩
    obtain ⟨world, run, returned, dead⟩ := @returns_dead "127.0.0.1" (nodes (some "10.0.0.1")) 0
      "10.0.0.1" rfl rfl (by decide)
    exact dead (always _ _ world (nodes_toCome _) someLive run 0 _ returned)

end SwitchboardHost
