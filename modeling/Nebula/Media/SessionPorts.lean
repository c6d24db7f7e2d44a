import Nebula.Lib.Expiring
import Nebula.Lib.Interleaving
import Nebula.Switchboard.QueueLine

/- The ports that RTP sessions are given, and the channels that the media service finds behind them.
   The switchboards and the media services give them out alike. -/
namespace SessionPorts
open Interleaving
open QueueLine (Outcome)

section Model

structure Shared where
  now : ℕ
  port : ℕ
  session : ℕ → Expiring.Cell String

inductive Stage where
  | idle
  | incr_by
  | set
  | setexnx (port : ℕ)
  | holding (port : ℕ)
  | get (port : ℕ)
  | expire (port : ℕ) (channel : String)
  deriving DecidableEq

inductive Choice where
  | new_session_port
  | command (outcome : Outcome)
  | stop_media (outcome : Outcome)
  | packet (port : ℕ)
  | closed
  | crash

inductive Outside where
  | tick

def Shared.setSession (port : ℕ) (cell : Expiring.Cell String) (shared : Shared) : Shared :=
  { shared with session := Function.update shared.session port cell }

/-- RTCP comes to the port after that of RTP. -/
def Shared.channel_of (port : ℕ) (shared : Shared) : Option String :=
  Expiring.read shared.now (shared.session (port - port % 2))

variable (channel : String) (shared : Shared)

/-- The counter is cut to 16 bits, and starts over where that is out of range. -/
def incr_by (outcome : Outcome) : Shared × Stage :=
  let after := if outcome.carriedOut then { shared with port := shared.port + 2 } else shared
  let port := (shared.port + 2) % 65536
  (after, if !outcome.confirmed then .idle
    else if port < 10000 ∨ 40000 < port then .set
    else .setexnx port)

/-- SET with NX; an answer that is lost counts as a port that is taken. -/
def setexnx (port : ℕ) (outcome : Outcome) : Shared × Stage :=
  let vacant := (Expiring.read shared.now (shared.session port)).isNone
  (if outcome.carriedOut && vacant then
      shared.setSession port (Expiring.writeUntil (shared.now + 300) channel)
    else shared,
    if outcome.confirmed && vacant then .holding port else .incr_by)

def step (channels : ℕ → String) (pid : ℕ) (choice : Choice) (shared : Shared) :
    Stage → Option (Shared × Stage)
  | .idle =>
    match choice with
    | .new_session_port => some (shared, .incr_by)
    | .packet port => some (shared, .get port)
    | _ => none
  | .incr_by =>
    match choice with
    | .command outcome => some (incr_by shared outcome)
    | .crash => some (shared, .idle)
    | _ => none
  | .set =>
    match choice with
    | .command outcome =>
      some (if outcome.carriedOut then { shared with port := 10000 } else shared,
        if outcome.confirmed then .incr_by else .idle)
    | .crash => some (shared, .idle)
    | _ => none
  | .setexnx port =>
    match choice with
    | .command outcome => some (setexnx (channels pid) shared port outcome)
    | .crash => some (shared, .idle)
    | _ => none
  | .holding port =>
    match choice with
    | .stop_media outcome =>
      some (if outcome.carriedOut then shared.setSession port none else shared, .idle)
    | .crash => some (shared, .idle)
    | _ => none
  | .get port =>
    match choice with
    | .command outcome =>
      some (shared, if outcome.confirmed then
          (shared.channel_of port).elim .idle fun channel => .expire (port - port % 2) channel
        else .idle)
    | .crash => some (shared, .idle)
    | _ => none
  | .expire port channel =>
    match choice with
    | .command outcome =>
      some (if outcome.carriedOut then
          shared.setSession port
            (Expiring.expireAt shared.now (shared.now + 30) (shared.session port))
        else shared, .expire port channel)
    | .closed | .crash => some (shared, .idle)
    | _ => none

def outside : Outside → Shared → Option Shared
  | .tick, shared => some { shared with now := shared.now + 1 }

def sessions (channels : ℕ → String) : System Shared Stage Choice Outside where
  step := step channels
  outside := outside

def start : World Shared Stage where
  shared := { now := 0, port := 0, session := fun _ => none }
  procs := fun _ => .idle

end Model

section Invariant
variable (channels : ℕ → String)

/-- The key of a session that is on is there a second later: packets come within 300 seconds, and its
    worker renews it every 20. -/
def Renewed : Guard Shared Stage Choice Outside := fun world action =>
  action = .outside .tick → ∀ pid port, world.procs pid = .holding port →
    (Expiring.read (world.shared.now + 1) (world.shared.session port)).isSome = true

def Usable (port : ℕ) : Prop := 10000 ≤ port ∧ port ≤ 40000 ∧ port % 2 = 0

/-- The ports of a session are its own: what comes to them is found to be its channel's. -/
structure Sound (world : World Shared Stage) : Prop where
  usable : ∀ pid port, world.procs pid = .holding port → Usable port
  reached : ∀ pid port, world.procs pid = .holding port → ∀ reached, reached = port ∨ reached = port + 1 →
    world.shared.channel_of reached = some (channels pid)
  apart : ∀ pid other port port', pid ≠ other → world.procs pid = .holding port →
    world.procs other = .holding port' → port + 1 < port' ∨ port' + 1 < port

/-- What a process knows where it stands. -/
structure Known (shared : Shared) (channel : String) (stage : Stage) : Prop where
  asked : ∀ port, stage = .setexnx port → Usable port
  held : ∀ port, stage = .holding port →
    Usable port ∧ Expiring.read shared.now (shared.session port) = some channel

structure Kept (world : World Shared Stage) : Prop where
  even : world.shared.port % 2 = 0
  known : ∀ pid, Known world.shared (channels pid) (world.procs pid)
  single : ∀ pid other port, world.procs pid = .holding port → world.procs other = .holding port →
    pid = other

end Invariant

theorem setSession_same (port : ℕ) (cell : Expiring.Cell String) (shared : Shared) :
    (shared.setSession port cell).session port = cell := by
  simp [Shared.setSession]

theorem setSession_other {port other : ℕ} (cell : Expiring.Cell String) (shared : Shared)
    (different : other ≠ port) : (shared.setSession port cell).session other = shared.session other := by
  simp [Shared.setSession, Function.update_of_ne different]

section Steps
variable {channels : ℕ → String} {world : World Shared Stage} {after : Shared} {pid : ℕ} {stage : Stage}

/-- The process that moves knows what it has to, and the ports of the others are left alone. -/
theorem moved_kept (kept : Kept channels world) (even : after.port % 2 = 0)
    (known : Known after (channels pid) stage)
    (others : ∀ other port, other ≠ pid → world.procs other = .holding port →
      stage ≠ .holding port ∧ (Expiring.read world.shared.now (world.shared.session port) =
        some (channels other) → Expiring.read after.now (after.session port) = some (channels other))) :
    Kept channels (world.moved pid after stage) := by
  have holds : ∀ other port, other ≠ pid → (world.moved pid after stage).procs other = .holding port →
      world.procs other = .holding port := by
    intro other port different holding
    rwa [moved_other _ _ _ different] at holding
  refine ⟨even, all_moved (fun other => Known after (channels other)) known fun other different => ?_,
    fun left right port held held' => ?_⟩
  · refine ⟨(kept.known other).asked, fun port holding => ?_⟩
    obtain ⟨usable, reads⟩ := (kept.known other).held port holding
    exact ⟨usable, (others other port different holding).2 reads⟩
  · by_cases isLeft : left = pid
    · by_cases isRight : right = pid
      · rw [isLeft, isRight]
      · subst isLeft
        rw [moved_same] at held
        exact absurd held (others right port isRight (holds right port isRight held')).1
    · by_cases isRight : right = pid
      · subst isRight
        rw [moved_same] at held'
        exact absurd held' (others left port isLeft (holds left port isLeft held)).1
      · exact kept.single left right port (holds left port isLeft held) (holds right port isRight held')

/-- A step that gives and takes no port. -/
theorem aside_kept (kept : Kept channels world) (even : after.port % 2 = 0)
    (asked : ∀ port, stage = .setexnx port → Usable port) (free : ∀ port, stage ≠ .holding port)
    (reads : ∀ other port, world.procs other = .holding port →
      Expiring.read world.shared.now (world.shared.session port) = some (channels other) →
        Expiring.read after.now (after.session port) = some (channels other)) :
    Kept channels (world.moved pid after stage) :=
  moved_kept kept even ⟨asked, fun port holding => absurd holding (free port)⟩
    fun other port _ holding => ⟨free port, reads other port holding⟩

theorem rest_kept (kept : Kept channels world) (asked : ∀ port, stage ≠ .setexnx port)
    (free : ∀ port, stage ≠ .holding port) :
    Kept channels (world.moved pid world.shared stage) :=
  aside_kept kept kept.even (fun port at_ => absurd at_ (asked port)) free fun _ _ _ => id

theorem incr_by_kept (kept : Kept channels world) (outcome : Outcome) :
    Kept channels (world.moved pid (incr_by world.shared outcome).1
      (incr_by world.shared outcome).2) := by
  have even := kept.even
  refine aside_kept kept ?_ (fun port asked => ?_) (fun port => ?_) fun other port _ reads => ?_
  · unfold incr_by
    dsimp only
    split
    · show (world.shared.port + 2) % 2 = 0
      omega
    · exact even
  · unfold incr_by at asked
    dsimp only at asked
    split at asked
    · cases asked
    · split at asked
      · cases asked
      · rename_i inRange
        cases asked
        refine ⟨by omega, by omega, ?_⟩
        omega
  · unfold incr_by
    dsimp only
    split
    · nofun
    · split <;> nofun
  · unfold incr_by
    dsimp only
    split <;> exact reads

theorem setexnx_kept (kept : Kept channels world) {port : ℕ} (asking : world.procs pid = .setexnx port)
    (outcome : Outcome) :
    Kept channels (world.moved pid (setexnx (channels pid) world.shared port outcome).1
      (setexnx (channels pid) world.shared port outcome).2) := by
  have usable := (kept.known pid).asked port asking
  unfold setexnx
  dsimp only
  cases found : Expiring.read world.shared.now (world.shared.session port) with
  | some holder =>
    rw [show (some holder : Option String).isNone = false from rfl, Bool.and_false, Bool.and_false]
    exact rest_kept kept nofun nofun
  | none =>
    rw [show (none : Option String).isNone = true from rfl, Bool.and_true, Bool.and_true]
    have vacant : ∀ other port', world.procs other = .holding port' → port' ≠ port := by
      rintro other _ holding rfl
      have reads := ((kept.known other).held _ holding).2
      rw [found] at reads
      cases reads
    have written : ∀ other port', world.procs other = .holding port' →
        Expiring.read world.shared.now (world.shared.session port') = some (channels other) →
          Expiring.read world.shared.now ((world.shared.setSession port
            (Expiring.writeUntil (world.shared.now + 300) (channels pid))).session port') =
              some (channels other) := by
      intro other port' holding reads
      rwa [setSession_other _ _ (vacant other port' holding)]
    cases outcome with
    | done =>
      refine moved_kept kept kept.even ⟨nofun, ?_⟩ fun other port' _ holding => ⟨?_, ?_⟩
      · rintro _ ⟨⟩
        refine ⟨usable, ?_⟩
        rw [show Outcome.done.carriedOut = true from rfl, if_pos rfl, setSession_same]
        exact (Expiring.read_writeUntil _ _ _).trans (if_pos (Nat.lt_add_of_pos_right (by decide)))
      · rintro ⟨⟩
        exact vacant other _ holding rfl
      · exact written other port' holding
    | lost => exact aside_kept kept kept.even nofun nofun written
    | failed => exact rest_kept kept nofun nofun

theorem stop_media_kept (kept : Kept channels world) {port : ℕ}
    (holding : world.procs pid = .holding port) (outcome : Outcome) :
    Kept channels (world.moved pid
      (if outcome.carriedOut then world.shared.setSession port none else world.shared) .idle) := by
  split
  · refine moved_kept kept kept.even ⟨nofun, nofun⟩ fun other port' different held => ⟨nofun, ?_⟩
    intro reads
    have apart : port' ≠ port := by
      rintro rfl
      exact different (kept.single other pid _ held holding)
    rwa [setSession_other _ _ apart]
  · exact rest_kept kept nofun nofun

theorem expire_kept (kept : Kept channels world) {port : ℕ} {channel : String} (outcome : Outcome) :
    Kept channels (world.moved pid
      (if outcome.carriedOut then
        world.shared.setSession port
          (Expiring.expireAt world.shared.now (world.shared.now + 30) (world.shared.session port))
      else world.shared) (.expire port channel)) := by
  split
  · refine aside_kept kept kept.even nofun nofun fun other port' _ reads => ?_
    by_cases same : port' = port
    · subst same
      rw [setSession_same]
      refine (Expiring.read_expireAt _ _ _ _).trans ((if_pos ?_).trans reads)
      exact Nat.lt_add_of_pos_right (by decide)
    · rwa [setSession_other _ _ same]
  · exact rest_kept kept nofun nofun

theorem step_kept (kept : Kept channels world) {choice : Choice}
    (stepped : step channels pid choice world.shared (world.procs pid) = some (after, stage)) :
    Kept channels (world.moved pid after stage) := by
  unfold step at stepped
  cases place : world.procs pid <;> rw [place] at stepped <;> dsimp only at stepped
  case idle =>
    split at stepped <;> cases stepped <;> exact rest_kept kept nofun nofun
  case incr_by =>
    split at stepped <;> cases stepped
    · exact incr_by_kept kept _
    · exact rest_kept kept nofun nofun
  case set =>
    split at stepped <;> cases stepped
    · rename_i outcome
      have even := kept.even
      refine aside_kept kept ?_ (fun port asked => ?_) (fun port => ?_) fun other port _ reads => ?_
      · split
        · show 10000 % 2 = 0
          decide
        · exact even
      · split at asked <;> cases asked
      · split <;> nofun
      · split <;> exact reads
    · exact rest_kept kept nofun nofun
  case setexnx port =>
    split at stepped <;> cases stepped
    · exact setexnx_kept kept place _
    · exact rest_kept kept nofun nofun
  case holding port =>
    split at stepped <;> cases stepped
    · exact stop_media_kept kept place _
    · exact rest_kept kept nofun nofun
  case get port =>
    split at stepped <;> cases stepped
    · rename_i outcome
      cases outcome.confirmed <;> cases world.shared.channel_of port <;>
        exact rest_kept kept nofun nofun
    · exact rest_kept kept nofun nofun
  case expire port channel =>
    split at stepped <;> cases stepped
    · exact expire_kept kept _
    · exact rest_kept kept nofun nofun
    · exact rest_kept kept nofun nofun

theorem tick_kept (kept : Kept channels world) (renewed : Renewed world (.outside .tick)) :
    Kept channels ⟨{ world.shared with now := world.shared.now + 1 }, world.procs⟩ := by
  refine ⟨kept.even, fun pid => ⟨(kept.known pid).asked, fun port holding => ?_⟩, kept.single⟩
  obtain ⟨usable, reads⟩ := (kept.known pid).held port holding
  refine ⟨usable, ?_⟩
  obtain ⟨left, found⟩ := Option.isSome_iff_exists.mp (renewed rfl pid port holding)
  obtain ⟨entry, live, same⟩ := Option.map_eq_some_iff.mp found
  have before := Expiring.live_earlier (Nat.le_succ _) live
  rw [Expiring.read, before] at reads
  rw [found, ← same]
  exact reads

theorem start_kept : Kept channels start :=
  ⟨rfl, fun _ => ⟨nofun, nofun⟩, nofun⟩

theorem run_kept (run : Run (sessions channels) Renewed start world) : Kept channels world := by
  apply run_keeps (Kept channels) start_kept _ run
  intro world action after kept renewed acted
  rcases act_cases acted with ⟨pid, choice, shared, proc, rfl, stepped, rfl⟩ |
    ⟨⟨⟩, shared, rfl, happened, rfl⟩
  · exact step_kept kept stepped
  · cases happened
    exact tick_kept kept renewed

def byNumber (pid : ℕ) : String := String.ofList (List.replicate pid 'a')

/-- Two sessions get ports, a worker is started for the second one, and a second passes. -/
def twoSessions : List (Action Choice Outside) :=
  .proc 0 .new_session_port :: List.replicate 4 (.proc 0 (.command .done)) ++
    .proc 1 .new_session_port :: List.replicate 2 (.proc 1 (.command .done)) ++
    .proc 2 (.packet 10005) :: List.replicate 2 (.proc 2 (.command .done)) ++ [.outside .tick]

def renewed (bound : ℕ) (world : World Shared Stage) : Action Choice Outside → Bool
  | .proc pid _ => decide (pid < bound)
  | .outside .tick => (List.range bound).all fun pid =>
    match world.procs pid with
    | .holding port =>
      (Expiring.read (world.shared.now + 1) (world.shared.session port)).isSome
    | _ => true

theorem renewed_sound {bound : ℕ} (action : Action Choice Outside)
    (resting : ∀ pid, bound ≤ pid → world.procs pid = .idle)
    (passed : renewed bound world action = true) : Renewed world action := by
  rintro rfl pid port holding
  have near : pid < bound := Nat.lt_of_not_le fun far => by
    rw [resting pid far] at holding
    cases holding
  have kept := List.all_eq_true.mp passed pid (List.mem_range.mpr near)
  rwa [holding] at kept

end Steps

end SessionPorts
