import Nebula.Proxy.SwitchboardHost

/- One tenant's calls at several proxies, each with a store of its own. A proxy
   decides for itself and then tells the others; the switchboard of the tenant's
   last call tells them all to forget. Messages arrive in any order. -/
namespace TenantAffinity
open Interleaving
variable {Proxy : Type}

inductive Message (Proxy : Type) where
  | put (proxy : Proxy) (host : String)
  | clearIfMatch (proxy : Proxy) (host : String)
  deriving DecidableEq

/- The stores of the proxies, the messages on their way, and on each switchboard the
   tenant's channels. A channel has the number of its call. -/
structure Fleet (Proxy : Type) where
  store : Proxy → SwitchboardHost.Shared
  mail : List (Message Proxy)
  channels : String → List Nat
  hangup : List Nat

/-- Where a call stands: the decision at its proxy, and then its life on the
    switchboard up to the check that follows its hangup. -/
inductive Proc (Proxy : Type) where
  | decide (proxy : Proxy) (call : SwitchboardHost.Proc)
  | broadcast (proxy : Proxy) (host : String)
  | route (host : String)
  | up (host : String)
  | srem (host : String)
  | smembers (host : String)
  | isHangup (host : String) (channel : Nat) (rest : List Nat)
  | sremOther (host : String) (channel : Nat) (rest : List Nat)
  | scard (host : String)
  | queue (host : String)
  | limit (host : String)
  | clear (host : String)
  | ended
  deriving DecidableEq

/-- Whether the keys of the tenant's queues and of its inbound limit exist. -/
structure Choice where
  queued : Bool := false
  limited : Bool := false

inductive Event (Proxy : Type) where
  | deliver (message : Message Proxy)
  | node (proxy : Proxy) (event : SwitchboardHost.Event)

def Fleet.stored (fleet : Fleet Proxy) (proxy : Proxy) : Option String := (fleet.store proxy).stored

def afterDecision (proxy : Proxy) : SwitchboardHost.Proc → Proc Proxy
  | .returned host => .broadcast proxy host
  | call => .decide proxy call

def nextMember (host : String) : List Nat → Proc Proxy
  | [] => .scard host
  | channel :: rest => .isHangup host channel rest

section
variable [DecidableEq Proxy]

def Fleet.setStore (fleet : Fleet Proxy) (proxy : Proxy) (shared : SwitchboardHost.Shared) :
    Fleet Proxy :=
  { fleet with store := Function.update fleet.store proxy shared }

/-- tenant_switchboard_host tells every other proxy of the configuration. -/
def puts (proxies : List Proxy) (proxy : Proxy) (host : String) : List (Message Proxy) :=
  (proxies.filter (· ≠ proxy)).map (fun other => .put other host)

def clears (proxies : List Proxy) (host : String) : List (Message Proxy) :=
  proxies.map (fun proxy => .clearIfMatch proxy host)

def Fleet.setChannels (fleet : Fleet Proxy) (host : String) (channels : List Nat) : Fleet Proxy :=
  { fleet with channels := Function.update fleet.channels host channels }

def step (proxies : List Proxy) (fallback : Proxy → String) (pid : Nat) (choice : Choice)
    (fleet : Fleet Proxy) : Proc Proxy → Option (Fleet Proxy × Proc Proxy)
  | .decide proxy call =>
    match SwitchboardHost.step (fallback proxy) (fleet.store proxy) call with
    | some (shared, arrived) => some (fleet.setStore proxy shared, afterDecision proxy arrived)
    | none => none
  | .broadcast proxy host =>
    some ({ fleet with mail := puts proxies proxy host ++ fleet.mail }, .route host)
  | .route host => some (fleet.setChannels host ((fleet.channels host).insert pid), .up host)
  | .up host => some ({ fleet with hangup := pid :: fleet.hangup }, .srem host)
  | .srem host =>
    some (fleet.setChannels host ((fleet.channels host).filter (· ≠ pid)), .smembers host)
  | .smembers host => some (fleet, nextMember host (fleet.channels host))
  | .isHangup host channel rest =>
    some (fleet, if channel ∈ fleet.hangup then .sremOther host channel rest
      else nextMember host rest)
  | .sremOther host channel rest =>
    some (fleet.setChannels host ((fleet.channels host).filter (· ≠ channel)), nextMember host rest)
  | .scard host => some (fleet, if fleet.channels host = [] then .queue host else .ended)
  | .queue host => some (fleet, if choice.queued then .ended else .limit host)
  | .limit host => some (fleet, if choice.limited then .ended else .clear host)
  | .clear host => some ({ fleet with mail := clears proxies host ++ fleet.mail }, .ended)
  | .ended => none

/-- The handlers of the two messages. -/
def receive (message : Message Proxy) (fleet : Fleet Proxy) : Fleet Proxy :=
  match message with
  | .put proxy host => fleet.setStore proxy { fleet.store proxy with stored := some host }
  | .clearIfMatch proxy host =>
    if fleet.stored proxy = some host then
      fleet.setStore proxy { fleet.store proxy with stored := none }
    else fleet

def outside (event : Event Proxy) (fleet : Fleet Proxy) : Option (Fleet Proxy) :=
  match event with
  | .deliver message =>
    if message ∈ fleet.mail then
      some (receive message { fleet with mail := fleet.mail.erase message })
    else none
  | .node proxy event =>
    match SwitchboardHost.outside event (fleet.store proxy) with
    | some shared => some (fleet.setStore proxy shared)
    | none => none

def system (proxies : List Proxy) (fallback : Proxy → String) :
    System (Fleet Proxy) (Proc Proxy) Choice (Event Proxy) where
  step := step proxies fallback
  outside := outside

/-- All calls are still to come, at proxies of the configuration, and nothing is stored. -/
structure Fresh (proxies : List Proxy) (world : World (Fleet Proxy) (Proc Proxy)) : Prop where
  calls : ∀ pid, world.procs pid = .ended ∨
    ∃ proxy ∈ proxies, world.procs pid = .decide proxy .start
  stored : ∀ proxy ∈ proxies, world.shared.stored proxy = none
  mail : world.shared.mail = []

/-- Once everything decided has been told and received, all proxies store the same;
    and calls that are up are on one switchboard. -/
structure Agreeing (proxies : List Proxy) (world : World (Fleet Proxy) (Proc Proxy)) : Prop where
  stores : world.shared.mail = [] → (∀ pid proxy host, world.procs pid ≠ .broadcast proxy host) →
    ∀ proxy ∈ proxies, ∀ other ∈ proxies, world.shared.stored proxy = world.shared.stored other
  calls : ∀ pid other host host', world.procs pid = .up host → world.procs other = .up host' →
    host = host'

/-- A decision under way, or a call that is up or on its way to the switchboard. -/
def acting : Proc Proxy → Bool
  | .decide _ .start => false
  | .decide _ .idle => false
  | .decide _ _ => true
  | .broadcast _ _ => true
  | .route _ => true
  | .up _ => true
  | _ => false

/- A decision that finds nothing stored is made when nothing else of the tenant is under
   way, one that finds a host when no clear is, and clears are sent when no decision,
   no broadcast and no call is. A stored value does not expire. -/
structure OneAtATime (world : World (Fleet Proxy) (Proc Proxy))
    (action : Action Choice (Event Proxy)) : Prop where
  picks : ∀ pid choice proxy, action = .proc pid choice → world.procs pid = .decide proxy .start →
    world.shared.stored proxy = none →
      world.shared.mail = [] ∧ ∀ other, other ≠ pid → acting (world.procs other) = false
  finds : ∀ pid choice proxy, action = .proc pid choice → world.procs pid = .decide proxy .start →
    ∀ other host, .clearIfMatch other host ∉ world.shared.mail
  clears : ∀ pid choice host, action = .proc pid choice → world.procs pid = .clear host →
    (∀ other, acting (world.procs other) = false) ∧
      ∀ proxy host', .put proxy host' ∉ world.shared.mail
  kept : ∀ proxy, action ≠ .outside (.node proxy .expire)

/-- The affinity is being cleared, or nothing is stored at all: what is left of the
    host goes with a message that is on its way. -/
structure Clearing (proxies : List Proxy) (world : World (Fleet Proxy) (Proc Proxy))
    (host : String) : Prop where
  stored : ∀ proxy ∈ proxies, world.shared.stored proxy = none ∨
    world.shared.stored proxy = some host ∧ .clearIfMatch proxy host ∈ world.shared.mail
  noPut : ∀ proxy host', .put proxy host' ∉ world.shared.mail
  still : ∀ pid, acting (world.procs pid) = false

def choosing : SwitchboardHost.Proc → Bool
  | .pick => true
  | .exists _ _ => true
  | .zrem _ _ => true
  | .setOrEx _ => true
  | _ => false

/-- One decision picks a host, and nothing else is under way. -/
structure Deciding (proxies : List Proxy) (world : World (Fleet Proxy) (Proc Proxy))
    (pid : Nat) : Prop where
  stored : ∀ proxy ∈ proxies, world.shared.stored proxy = none
  mail : world.shared.mail = []
  decides : ∃ proxy call, world.procs pid = .decide proxy call ∧ choosing call = true ∧
    world.shared.stored proxy = none
  still : ∀ other, other ≠ pid → acting (world.procs other) = false

/-- What a call that is under way has to do with the host of the tenant. -/
def Bound (fleet : Fleet Proxy) (host : String) : Proc Proxy → Prop
  | .decide _ .start => True
  | .decide _ .idle => True
  | .decide proxy call =>
    fleet.stored proxy = some host ∧
      ∀ other, call = .isLive other ∨ call = .returned other → fleet.stored proxy = some other
  | .broadcast proxy own => own = host ∧ fleet.stored proxy = some host
  | .route own => own = host
  | .up own => own = host
  | _ => True

/-- The tenant has a host, and where it is not stored it is on its way. -/
structure Settled (proxies : List Proxy) (world : World (Fleet Proxy) (Proc Proxy))
    (host : String) : Prop where
  stored : ∀ proxy ∈ proxies, world.shared.stored proxy = some host ∨
    world.shared.stored proxy = none ∧ (.put proxy host ∈ world.shared.mail ∨
      ∃ pid teller, world.procs pid = .broadcast teller host)
  puts : ∀ proxy host', .put proxy host' ∈ world.shared.mail → host' = host
  noClear : ∀ proxy, .clearIfMatch proxy host ∉ world.shared.mail
  bound : ∀ pid, Bound world.shared host (world.procs pid)

structure Invariant (proxies : List Proxy) (world : World (Fleet Proxy) (Proc Proxy)) : Prop where
  home : ∀ pid proxy, world.procs pid = .decide proxy .start → proxy ∈ proxies
  phase : (∃ host, Clearing proxies world host) ∨ (∃ pid, Deciding proxies world pid) ∨
    ∃ host, Settled proxies world host

/-- All a step of a call can do. -/
inductive Effect (proxies : List Proxy) (fallback : Proxy → String) (fleet : Fleet Proxy) :
    Fleet Proxy → Proc Proxy → Proc Proxy → Prop where
  | decides (proxy : Proxy) (call arrived : SwitchboardHost.Proc) (shared : SwitchboardHost.Shared) :
    SwitchboardHost.step (fallback proxy) (fleet.store proxy) call = some (shared, arrived) →
      Effect proxies fallback fleet (fleet.setStore proxy shared) (.decide proxy call)
        (afterDecision proxy arrived)
  | broadcasts (proxy : Proxy) (host : String) :
    Effect proxies fallback fleet { fleet with mail := puts proxies proxy host ++ fleet.mail }
      (.broadcast proxy host) (.route host)
  | clears (host : String) :
    Effect proxies fallback fleet { fleet with mail := clears proxies host ++ fleet.mail }
      (.clear host) .ended
  | rings {after : Fleet Proxy} (host : String) : after.store = fleet.store →
      after.mail = fleet.mail → Effect proxies fallback fleet after (.route host) (.up host)
  | ends {after : Fleet Proxy} {proc arrived : Proc Proxy} : after.store = fleet.store →
      after.mail = fleet.mail → (∀ proxy host, proc ≠ .broadcast proxy host) →
      (∀ proxy call, proc ≠ .decide proxy call) → acting arrived = false → (∀ proxy call, arrived ≠ .decide proxy call) →
      Effect proxies fallback fleet after proc arrived

omit [DecidableEq Proxy] in
theorem next_member_ends (host : String) (rest : List Nat) :
    acting (nextMember host rest : Proc Proxy) = false ∧
      ∀ proxy call, (nextMember host rest : Proc Proxy) ≠ .decide proxy call := by
  cases rest with
  | nil => exact ⟨rfl, nofun⟩
  | cons channel rest => exact ⟨rfl, nofun⟩

theorem step_effect {proxies : List Proxy} {fallback : Proxy → String} {pid : Nat}
    {choice : Choice} {fleet after : Fleet Proxy} {proc arrived : Proc Proxy}
    (stepped : step proxies fallback pid choice fleet proc = some (after, arrived)) :
    Effect proxies fallback fleet after proc arrived := by
  cases proc with
  | decide proxy call =>
    simp only [step] at stepped
    split at stepped
    · rename_i shared reached decided
      cases stepped
      exact .decides proxy call reached shared decided
    · cases stepped
  | broadcast proxy host =>
    cases stepped
    exact .broadcasts proxy host
  | clear host =>
    cases stepped
    exact .clears host
  | route host =>
    cases stepped
    exact .rings host rfl rfl
  | smembers host =>
    cases stepped
    have next := @next_member_ends Proxy host (fleet.channels host)
    exact .ends rfl rfl nofun nofun next.1 next.2
  | isHangup host channel rest =>
    cases stepped
    have next := @next_member_ends Proxy host rest
    split
    · exact .ends rfl rfl nofun nofun rfl nofun
    · exact .ends rfl rfl nofun nofun next.1 next.2
  | sremOther host channel rest =>
    cases stepped
    have next := @next_member_ends Proxy host rest
    exact .ends rfl rfl nofun nofun next.1 next.2
  | scard host =>
    cases stepped
    split <;> exact .ends rfl rfl nofun nofun rfl nofun
  | queue host =>
    cases stepped
    split <;> exact .ends rfl rfl nofun nofun rfl nofun
  | limit host =>
    cases stepped
    split <;> exact .ends rfl rfl nofun nofun rfl nofun
  | ended => cases stepped
  | _ =>
    cases stepped
    exact .ends rfl rfl nofun nofun rfl nofun

@[simp] theorem stored_same (fleet : Fleet Proxy) (proxy : Proxy) (shared : SwitchboardHost.Shared) :
    (fleet.setStore proxy shared).stored proxy = shared.stored := by
  simp [Fleet.stored, Fleet.setStore]

theorem stored_other (fleet : Fleet Proxy) {proxy other : Proxy} (shared : SwitchboardHost.Shared)
    (different : other ≠ proxy) : (fleet.setStore proxy shared).stored other = fleet.stored other := by
  simp [Fleet.stored, Fleet.setStore, Function.update_of_ne different]

omit [DecidableEq Proxy] in
theorem stored_congr {fleet after : Fleet Proxy} (same : after.store = fleet.store) (proxy : Proxy) :
    after.stored proxy = fleet.stored proxy := by
  simp [Fleet.stored, same]

/-- A store whose host stays as it was, whatever else changes in it. -/
theorem stored_kept {fleet : Fleet Proxy} {proxy : Proxy} {shared : SwitchboardHost.Shared}
    (kept : shared.stored = fleet.stored proxy) (other : Proxy) :
    (fleet.setStore proxy shared).stored other = fleet.stored other := by
  by_cases same : other = proxy
  · subst same
    rw [stored_same, kept]
  · exact stored_other fleet shared same

/-- Where a decision goes from its first command, which changes nothing. -/
theorem start_step {fallback : String} {shared after : SwitchboardHost.Shared}
    {arrived : SwitchboardHost.Proc}
    (stepped : SwitchboardHost.step fallback shared .start = some (after, arrived)) :
    after = shared ∧ (shared.stored = none ∧ arrived = .pick ∨
      ∃ host, shared.stored = some host ∧ (arrived = .pick ∨ arrived = .isLive host)) := by
  simp only [SwitchboardHost.step] at stepped
  split at stepped
  · rename_i empty
    cases stepped
    exact ⟨rfl, Or.inl ⟨empty, rfl⟩⟩
  · rename_i host found
    cases stepped
    refine ⟨rfl, Or.inr ⟨host, found, ?_⟩⟩
    split
    · exact Or.inl rfl
    · exact Or.inr rfl

theorem scan_choosing (fallback : String) (hosts : List String) :
    choosing (SwitchboardHost.scan fallback hosts) = true := by
  cases hosts <;> rfl

/-- A decision that is choosing goes on choosing, or stores its choice. -/
theorem choosing_step {fallback : String} {shared after : SwitchboardHost.Shared}
    {call arrived : SwitchboardHost.Proc} (chooses : choosing call = true)
    (empty : shared.stored = none)
    (stepped : SwitchboardHost.step fallback shared call = some (after, arrived)) :
    (∃ host, arrived = .returned host ∧ after.stored = some host) ∨
      choosing arrived = true ∧ after.stored = none := by
  cases call with
  | pick =>
    cases stepped
    exact Or.inr ⟨scan_choosing _ _, empty⟩
  | «exists» host rest =>
    cases stepped
    right
    refine ⟨?_, empty⟩
    split <;> rfl
  | zrem host rest =>
    cases stepped
    exact Or.inr ⟨scan_choosing _ _, empty⟩
  | setOrEx picked =>
    simp only [SwitchboardHost.step, empty] at stepped
    cases stepped
    exact Or.inl ⟨picked, rfl, rfl⟩
  | _ => cases chooses

theorem decide_not_start {fallback : String} {shared after : SwitchboardHost.Shared}
    {call arrived : SwitchboardHost.Proc}
    (stepped : SwitchboardHost.step fallback shared call = some (after, arrived)) :
    arrived ≠ .start := by
  intro isStart
  subst isStart
  cases call with
  | start =>
    rcases (start_step stepped).2 with ⟨_, isPick⟩ | ⟨_, _, isPick | isLive⟩
    · cases isPick
    · cases isPick
    · cases isLive
  | setOrEx picked =>
    simp only [SwitchboardHost.step] at stepped
    split at stepped <;> cases stepped
  | isLive host =>
    simp only [SwitchboardHost.step, Option.some.injEq, Prod.mk.injEq] at stepped
    have goes := stepped.2
    split at goes <;> cases goes
  | «exists» host rest =>
    simp only [SwitchboardHost.step, Option.some.injEq, Prod.mk.injEq] at stepped
    have goes := stepped.2
    split at goes <;> cases goes
  | pick =>
    simp only [SwitchboardHost.step, Option.some.injEq, Prod.mk.injEq] at stepped
    have goes := stepped.2
    unfold SwitchboardHost.scan at goes
    split at goes <;> cases goes
  | zrem host rest =>
    simp only [SwitchboardHost.step, Option.some.injEq, Prod.mk.injEq] at stepped
    have goes := stepped.2
    unfold SwitchboardHost.scan at goes
    split at goes <;> cases goes
  | returned host => cases stepped
  | idle => cases stepped

omit [DecidableEq Proxy] in
theorem after_decision_not_start {fallback : String} {shared after : SwitchboardHost.Shared}
    {call arrived : SwitchboardHost.Proc}
    (stepped : SwitchboardHost.step fallback shared call = some (after, arrived))
    (proxy other : Proxy) : afterDecision proxy arrived ≠ .decide other .start := by
  have moved := decide_not_start stepped
  cases arrived <;> simp_all [afterDecision]

theorem home_moved {proxies : List Proxy} {fallback : Proxy → String}
    {world : World (Fleet Proxy) (Proc Proxy)} {pid : Nat} {after : Fleet Proxy}
    {arrived : Proc Proxy}
    (home : ∀ pid proxy, world.procs pid = .decide proxy .start → proxy ∈ proxies)
    (effect : Effect proxies fallback world.shared after (world.procs pid) arrived) :
    ∀ other proxy, (world.moved pid after arrived).procs other = .decide proxy .start →
      proxy ∈ proxies := by
  intro other proxy starts
  by_cases same : other = pid
  · subst same
    rw [moved_same] at starts
    generalize world.procs other = proc at effect
    cases effect with
    | decides _ _ _ _ stepped => exact absurd starts (after_decision_not_start stepped _ _)
    | broadcasts => cases starts
    | clears => cases starts
    | rings => cases starts
    | ends _ _ _ _ _ notDecide => exact absurd starts (notDecide proxy .start)
  · rw [moved_other _ _ _ same] at starts
    exact home other proxy starts

omit [DecidableEq Proxy] in
theorem still_moved {world : World (Fleet Proxy) (Proc Proxy)} {pid : Nat} {after : Fleet Proxy}
    {arrived : Proc Proxy} (idle : acting arrived = false)
    (still : ∀ other, other ≠ pid → acting (world.procs other) = false) :
    ∀ other, acting ((world.moved pid after arrived).procs other) = false := by
  intro other
  by_cases same : other = pid
  · subst same
    rw [moved_same]
    exact idle
  · rw [moved_other _ _ _ same]
    exact still other same

omit [DecidableEq Proxy] in
theorem bound_mono {fleet after : Fleet Proxy} {host : String}
    (kept : ∀ proxy, fleet.stored proxy = some host → after.stored proxy = some host)
    {proc : Proc Proxy} (bound : Bound fleet host proc) : Bound after host proc := by
  cases proc with
  | decide proxy call =>
    cases call with
    | start => trivial
    | idle => trivial
    | _ =>
      obtain ⟨stored, names⟩ := bound
      refine ⟨kept proxy stored, ?_⟩
      intro other named
      have same := names other named
      rw [stored] at same
      cases same
      exact kept proxy stored
  | broadcast proxy own => exact ⟨bound.1, kept proxy bound.2⟩
  | route own => exact bound
  | up own => exact bound
  | _ => trivial

omit [DecidableEq Proxy] in
theorem bound_of_still {fleet : Fleet Proxy} {host : String} {proc : Proc Proxy}
    (still : acting proc = false) : Bound fleet host proc := by
  cases proc with
  | decide proxy call =>
    cases call with
    | start => trivial
    | idle => trivial
    | _ => cases still
  | broadcast proxy own => cases still
  | route own => cases still
  | up own => cases still
  | _ => trivial

omit [DecidableEq Proxy] in
theorem acting_decide {proxy : Proxy} {call : SwitchboardHost.Proc}
    {world : World (Fleet Proxy) (Proc Proxy)} {pid : Nat}
    (stands : world.procs pid = .decide proxy call) (still : acting (world.procs pid) = false)
    {fallback : String} {shared after : SwitchboardHost.Shared} {arrived : SwitchboardHost.Proc}
    (stepped : SwitchboardHost.step fallback shared call = some (after, arrived)) :
    call = .start := by
  rw [stands] at still
  cases call with
  | start => rfl
  | idle => cases stepped
  | _ => cases still

/-- Nothing of the tenant is under way: a call that arrives starts to pick, and a
    clear starts or goes on. -/
theorem clearing_step {proxies : List Proxy} {fallback : Proxy → String}
    {world : World (Fleet Proxy) (Proc Proxy)} {pid : Nat} {choice : Choice} {after : Fleet Proxy}
    {arrived : Proc Proxy} {host : String} (clearing : Clearing proxies world host)
    (home : ∀ pid proxy, world.procs pid = .decide proxy .start → proxy ∈ proxies)
    (allowed : OneAtATime world (.proc pid choice))
    (effect : Effect proxies fallback world.shared after (world.procs pid) arrived) :
    Clearing proxies (world.moved pid after arrived) host ∨
      Deciding proxies (world.moved pid after arrived) pid := by
  have still := clearing.still pid
  generalize stands : world.procs pid = proc at effect
  cases effect with
  | decides proxy call reached shared stepped =>
    right
    have starts := acting_decide stands still stepped
    subst starts
    obtain ⟨rfl, empty⟩ := start_step stepped
    have nothing : world.shared.stored proxy = none := by
      rcases clearing.stored proxy (home pid proxy stands) with none | ⟨_, mailed⟩
      · exact none
      · exact absurd mailed (allowed.finds pid choice proxy rfl stands proxy host)
    obtain ⟨noMail, _⟩ := allowed.picks pid choice proxy rfl stands nothing
    have picks : reached = .pick := by
      rcases empty with ⟨_, isPick⟩ | ⟨found, stored, _⟩
      · exact isPick
      · rw [Fleet.stored, stored] at nothing
        cases nothing
    subst picks
    refine {
      stored := ?_
      mail := noMail
      decides := ⟨proxy, .pick, moved_same _ _ _ _, rfl, ?_⟩
      still := ?_ }
    · intro other listed
      rw [moved_shared, stored_kept rfl]
      rcases clearing.stored other listed with none | ⟨_, mailed⟩
      · exact none
      · rw [noMail] at mailed
        cases mailed
    · rw [moved_shared, stored_kept rfl]
      exact nothing
    · intro other different
      rw [moved_other _ _ _ different]
      exact clearing.still other
  | broadcasts proxy own =>
    rw [stands] at still
    cases still
  | rings own =>
    rw [stands] at still
    cases still
  | clears own =>
    left
    refine ⟨?_, ?_, still_moved rfl (fun other _ => clearing.still other)⟩
    · intro proxy listed
      rcases clearing.stored proxy listed with none | ⟨stored, mailed⟩
      · exact Or.inl none
      · exact Or.inr ⟨stored, List.mem_append_right _ mailed⟩
    · intro proxy other mailed
      rcases List.mem_append.mp mailed with cleared | before
      · simp [clears] at cleared
      · exact clearing.noPut proxy other before
  | ends sameStore sameMail _ _ idle _ =>
    left
    refine ⟨?_, ?_, still_moved idle (fun other _ => clearing.still other)⟩
    · intro proxy listed
      rw [moved_shared, stored_congr sameStore, sameMail]
      exact clearing.stored proxy listed
    · intro proxy other
      rw [moved_shared, sameMail]
      exact clearing.noPut proxy other

/-- A decision stores what it picked, and the tenant has its host, or it goes on with nothing
    stored. -/
theorem decider_step {proxies : List Proxy} {world : World (Fleet Proxy) (Proc Proxy)} {pid : Nat}
    {proxy : Proxy} {call reached : SwitchboardHost.Proc} {shared : SwitchboardHost.Shared}
    {fallback : String} (deciding : Deciding proxies world pid) (chooses : choosing call = true)
    (empty : world.shared.stored proxy = none)
    (stepped : SwitchboardHost.step fallback (world.shared.store proxy) call =
      some (shared, reached)) :
    Deciding proxies (world.moved pid (world.shared.setStore proxy shared)
        (afterDecision proxy reached)) pid ∨
      ∃ host, Settled proxies (world.moved pid (world.shared.setStore proxy shared)
        (afterDecision proxy reached)) host := by
  have noMail := deciding.mail
  rcases choosing_step chooses empty stepped with ⟨host, rfl, stored⟩ | ⟨goesOn, none⟩
  · right
    refine ⟨host, ?_, ?_, ?_, ?_⟩
    · intro other listed
      by_cases same : other = proxy
      · subst same
        left
        rw [moved_shared, stored_same, stored]
      · right
        rw [moved_shared, stored_other _ _ same]
        exact ⟨deciding.stored other listed, Or.inr ⟨pid, proxy, by rw [moved_same]; rfl⟩⟩
    · intro other host' mailed
      rw [moved_shared, Fleet.setStore, noMail] at mailed
      cases mailed
    · intro other mailed
      rw [moved_shared, Fleet.setStore, noMail] at mailed
      cases mailed
    · intro other
      by_cases same : other = pid
      · subst same
        rw [moved_same, moved_shared]
        exact ⟨rfl, by rw [stored_same, stored]⟩
      · rw [moved_other _ _ _ same]
        exact bound_of_still (deciding.still other same)
  · left
    have kept : ∀ other, (world.shared.setStore proxy shared).stored other =
        world.shared.stored other := stored_kept (by rw [none, empty])
    have goes : afterDecision proxy reached = .decide proxy reached := by
      cases reached <;> first | rfl | cases goesOn
    refine ⟨?_, noMail, ⟨proxy, reached, ?_, goesOn, ?_⟩, ?_⟩
    · intro other listed
      rw [moved_shared, kept]
      exact deciding.stored other listed
    · rw [moved_same, goes]
    · rw [moved_shared, kept]
      exact empty
    · intro other different
      rw [moved_other _ _ _ different]
      exact deciding.still other different

/-- One decision goes on until it stores what it picked. -/
theorem deciding_step {proxies : List Proxy} {fallback : Proxy → String}
    {world : World (Fleet Proxy) (Proc Proxy)} {pid decider : Nat} {choice : Choice}
    {after : Fleet Proxy} {arrived : Proc Proxy} (deciding : Deciding proxies world decider)
    (home : ∀ pid proxy, world.procs pid = .decide proxy .start → proxy ∈ proxies)
    (allowed : OneAtATime world (.proc pid choice))
    (effect : Effect proxies fallback world.shared after (world.procs pid) arrived) :
    Deciding proxies (world.moved pid after arrived) decider ∨
      ∃ host, Settled proxies (world.moved pid after arrived) host := by
  obtain ⟨proxy, call, stands, chooses, empty⟩ := deciding.decides
  have acts : acting (world.procs decider) = true := by
    rw [stands]
    cases call <;> first | rfl | cases chooses
  by_cases isDecider : pid = decider
  · subst isDecider
    generalize stands' : world.procs pid = proc at effect
    rw [stands] at stands'
    subst stands'
    cases effect with
    | decides _ _ reached shared stepped => exact decider_step deciding chooses empty stepped
    | ends _ _ _ notDecide => exact absurd rfl (notDecide proxy call)
  · -- Any other process is still, and no host is stored for it to find.
    have still := deciding.still pid isDecider
    generalize stands' : world.procs pid = proc at effect
    cases effect with
    | decides other call' reached shared stepped =>
      have starts := acting_decide stands' still stepped
      subst starts
      have none := deciding.stored other (home pid other stands')
      have alone := (allowed.picks pid choice other rfl stands' none).2 decider (Ne.symm isDecider)
      rw [acts] at alone
      cases alone
    | broadcasts other own =>
      rw [stands'] at still
      cases still
    | rings own =>
      rw [stands'] at still
      cases still
    | clears own =>
      have alone := (allowed.clears pid choice own rfl stands').1 decider
      rw [acts] at alone
      cases alone
    | ends sameStore sameMail _ _ idle _ =>
      left
      refine ⟨?_, ?_, ⟨proxy, call, ?_, chooses, ?_⟩, ?_⟩
      · intro other listed
        rw [moved_shared, stored_congr sameStore]
        exact deciding.stored other listed
      · rw [moved_shared, sameMail]
        exact deciding.mail
      · rw [moved_other _ _ _ (Ne.symm isDecider)]
        exact stands
      · rw [moved_shared, stored_congr sameStore]
        exact empty
      · intro other different
        by_cases same : other = pid
        · subst same
          rw [moved_same]
          exact idle
        · rw [moved_other _ _ _ same]
          exact deciding.still other different

/-- A decision that has the tenant's host before it ends with it. -/
theorem bound_step {fallback : String} {fleet : Fleet Proxy} {proxy : Proxy} {host : String}
    {call reached : SwitchboardHost.Proc} {shared : SwitchboardHost.Shared}
    (stored : fleet.stored proxy = some host)
    (names : ∀ other, call = .isLive other ∨ call = .returned other →
      fleet.stored proxy = some other)
    (stepped : SwitchboardHost.step fallback (fleet.store proxy) call = some (shared, reached)) :
    shared.stored = some host ∧
      Bound (fleet.setStore proxy shared) host (afterDecision proxy reached) := by
  have kept := SwitchboardHost.step_stored stepped stored
  have agrees := SwitchboardHost.step_agrees names stepped
  refine ⟨kept, ?_⟩
  cases reached with
  | returned own =>
    have same := agrees own (Or.inr rfl)
    rw [kept] at same
    cases same
    exact ⟨rfl, by rw [stored_same, kept]⟩
  | start => trivial
  | idle => trivial
  | _ =>
    refine ⟨by rw [stored_same, kept], ?_⟩
    intro other named
    rw [stored_same]
    exact agrees other named

omit [DecidableEq Proxy] in
theorem bound_moved {world : World (Fleet Proxy) (Proc Proxy)} {pid : Nat} {after : Fleet Proxy}
    {arrived : Proc Proxy} {host : String}
    (kept : ∀ proxy, world.shared.stored proxy = some host → after.stored proxy = some host)
    (bound : ∀ other, Bound world.shared host (world.procs other))
    (reached : Bound after host arrived) :
    ∀ other, Bound after host ((world.moved pid after arrived).procs other) := by
  intro other
  by_cases same : other = pid
  · subst same
    rw [moved_same]
    exact reached
  · rw [moved_other _ _ _ same]
    exact bound_mono kept (bound other)

omit [DecidableEq Proxy] in
/-- A process that is not telling the others now leaves those that are to tell. -/
theorem telling_moved {world : World (Fleet Proxy) (Proc Proxy)} {pid : Nat} {after : Fleet Proxy}
    {arrived : Proc Proxy} {host : String}
    (other : ∀ proxy own, world.procs pid ≠ .broadcast proxy own)
    (telling : ∃ teller proxy, world.procs teller = .broadcast proxy host) :
    ∃ teller proxy, (world.moved pid after arrived).procs teller = .broadcast proxy host := by
  obtain ⟨teller, proxy, tells⟩ := telling
  refine ⟨teller, proxy, ?_⟩
  rw [moved_other]
  · exact tells
  · intro same
    subst same
    exact other proxy host tells

theorem mem_puts {proxies : List Proxy} {proxy other : Proxy} {host host' : String} :
    .put other host' ∈ puts proxies proxy host ↔
      other ∈ proxies ∧ other ≠ proxy ∧ host' = host := by
  simp only [puts, List.mem_map, List.mem_filter, Message.put.injEq]
  constructor
  · rintro ⟨_, ⟨listed, different⟩, rfl, rfl⟩
    exact ⟨listed, by simpa using different, rfl⟩
  · rintro ⟨listed, different, rfl⟩
    exact ⟨other, ⟨listed, by simpa using different⟩, rfl, rfl⟩

omit [DecidableEq Proxy] in
/-- A step that leaves stores and messages alone. -/
theorem settled_moved {proxies : List Proxy} {world : World (Fleet Proxy) (Proc Proxy)} {pid : Nat}
    {after : Fleet Proxy} {arrived : Proc Proxy} {host : String}
    (settled : Settled proxies world host)
    (stored : ∀ proxy, after.stored proxy = world.shared.stored proxy)
    (mail : after.mail = world.shared.mail)
    (other : ∀ proxy own, world.procs pid ≠ .broadcast proxy own)
    (reached : Bound after host arrived) : Settled proxies (world.moved pid after arrived) host := by
  refine ⟨?_, ?_, ?_, bound_moved (fun proxy there => (stored proxy).trans there) settled.bound reached⟩
  · intro proxy listed
    rw [moved_shared, stored, mail]
    rcases settled.stored proxy listed with there | ⟨none, mailed | telling⟩
    · exact Or.inl there
    · exact Or.inr ⟨none, Or.inl mailed⟩
    · exact Or.inr ⟨none, Or.inr (telling_moved other telling)⟩
  · rw [moved_shared, mail]
    exact settled.puts
  · rw [moved_shared, mail]
    exact settled.noClear

omit [DecidableEq Proxy] in
/-- What a decision finds that is made while the tenant has a host. -/
theorem settled_finds {proxies : List Proxy} {world : World (Fleet Proxy) (Proc Proxy)} {pid : Nat}
    {choice : Choice} {proxy : Proxy} {host : String} (settled : Settled proxies world host)
    (listed : proxy ∈ proxies) (allowed : OneAtATime world (.proc pid choice))
    (starts : world.procs pid = .decide proxy .start) : world.shared.stored proxy = some host := by
  rcases settled.stored proxy listed with there | ⟨none, missing⟩
  · exact there
  · obtain ⟨noMail, alone⟩ := allowed.picks pid choice proxy rfl starts none
    rcases missing with mailed | ⟨teller, other, tells⟩
    · rw [noMail] at mailed
      cases mailed
    · have different : teller ≠ pid := by
        intro same
        subst same
        rw [starts] at tells
        cases tells
      have still := alone teller different
      rw [tells] at still
      cases still

omit [DecidableEq Proxy] in
/-- A host's clears are sent: an earlier host's change nothing, the tenant's own start the
    clearing. -/
theorem settled_clears {proxies : List Proxy} {world : World (Fleet Proxy) (Proc Proxy)}
    {pid : Nat} {host : String} (settled : Settled proxies world host) (own : String)
    (still : ∀ other, acting (world.procs other) = false)
    (noPut : ∀ proxy other, .put proxy other ∉ world.shared.mail) :
    Settled proxies (world.moved pid
        { world.shared with mail := clears proxies own ++ world.shared.mail } .ended) host ∨
      Clearing proxies (world.moved pid
        { world.shared with mail := clears proxies own ++ world.shared.mail } .ended) host := by
  have everywhere : ∀ proxy ∈ proxies, world.shared.stored proxy = some host := by
    intro proxy listed
    rcases settled.stored proxy listed with there | ⟨_, mailed | ⟨teller, other, tells⟩⟩
    · exact there
    · exact absurd mailed (noPut proxy host)
    · have quiet := still teller
      rw [tells] at quiet
      cases quiet
  by_cases same : own = host
  · subst same
    right
    refine ⟨?_, ?_, still_moved rfl (fun other _ => still other)⟩
    · intro proxy listed
      right
      refine ⟨everywhere proxy listed, List.mem_append_left _ ?_⟩
      exact List.mem_map_of_mem listed
    · intro proxy host' mailed
      rcases List.mem_append.mp mailed with cleared | before
      · simp [clears] at cleared
      · exact noPut proxy host' before
  · left
    refine ⟨fun proxy listed => Or.inl (everywhere proxy listed), ?_, ?_,
      bound_moved (fun _ there => there) settled.bound trivial⟩
    · intro proxy host' mailed
      rcases List.mem_append.mp mailed with cleared | before
      · simp [clears] at cleared
      · exact settled.puts proxy host' before
    · intro proxy mailed
      rcases List.mem_append.mp mailed with cleared | before
      · simp only [clears, List.mem_map, Message.clearIfMatch.injEq] at cleared
        obtain ⟨_, _, _, isHost⟩ := cleared
        exact same isHost
      · exact settled.noClear proxy before

theorem settled_step {proxies : List Proxy} {fallback : Proxy → String}
    {world : World (Fleet Proxy) (Proc Proxy)} {pid : Nat} {choice : Choice} {after : Fleet Proxy}
    {arrived : Proc Proxy} {host : String} (settled : Settled proxies world host)
    (home : ∀ pid proxy, world.procs pid = .decide proxy .start → proxy ∈ proxies)
    (allowed : OneAtATime world (.proc pid choice))
    (effect : Effect proxies fallback world.shared after (world.procs pid) arrived) :
    Settled proxies (world.moved pid after arrived) host ∨
      Clearing proxies (world.moved pid after arrived) host := by
  have bound := settled.bound pid
  generalize stands : world.procs pid = proc at effect
  rw [stands] at bound
  cases effect with
  | decides proxy call reached shared stepped =>
    left
    have knows : world.shared.stored proxy = some host ∧
        ∀ other, call = .isLive other ∨ call = .returned other →
          world.shared.stored proxy = some other := by
      cases call with
      | start =>
        exact ⟨settled_finds settled (home pid proxy stands) allowed stands, by simp⟩
      | idle => cases stepped
      | _ => exact bound
    have result := bound_step knows.1 knows.2 stepped
    apply settled_moved settled (stored_kept (by rw [result.1, knows.1])) rfl _ result.2
    intro other own
    rw [stands]
    exact nofun
  | broadcasts proxy own =>
    left
    obtain ⟨rfl, stored⟩ := bound
    refine ⟨?_, ?_, ?_, bound_moved (fun _ there => there) settled.bound rfl⟩
    · intro other listed
      by_cases same : other = proxy
      · subst same
        exact Or.inl stored
      · rcases settled.stored other listed with there | ⟨none, _⟩
        · exact Or.inl there
        · right
          refine ⟨none, Or.inl (List.mem_append_left _ ?_)⟩
          exact mem_puts.mpr ⟨listed, same, rfl⟩
    · intro other host' mailed
      rcases List.mem_append.mp mailed with told | before
      · exact (mem_puts.mp told).2.2
      · exact settled.puts other host' before
    · intro other mailed
      rcases List.mem_append.mp mailed with told | before
      · simp [puts] at told
      · exact settled.noClear other before
  | rings own sameStore sameMail =>
    left
    have reached : Bound after host (.up own) := bound
    apply settled_moved settled (stored_congr sameStore) sameMail _ reached
    intro other host'
    rw [stands]
    exact nofun
  | clears own =>
    obtain ⟨still, noPut⟩ := allowed.clears pid choice own rfl stands
    exact settled_clears settled own still noPut
  | ends sameStore sameMail notBroadcast _ idle _ =>
    left
    apply settled_moved settled (stored_congr sameStore) sameMail _ (bound_of_still idle)
    intro other host'
    rw [stands]
    exact notBroadcast other host'

/-- What a delivered message, or a report of a switchboard, leaves as it was. -/
theorem node_stored {proxy : Proxy} {event : SwitchboardHost.Event} {fleet : Fleet Proxy}
    {shared : SwitchboardHost.Shared} (kept : event ≠ .expire)
    (happened : SwitchboardHost.outside event (fleet.store proxy) = some shared) (other : Proxy) :
    (fleet.setStore proxy shared).stored other = fleet.stored other :=
  stored_kept (SwitchboardHost.outside_stored happened kept) other

theorem receive_mail (message : Message Proxy) (fleet : Fleet Proxy) :
    (receive message fleet).mail = fleet.mail := by
  cases message with
  | put proxy host => rfl
  | clearIfMatch proxy host =>
    simp only [receive]
    split <;> rfl

theorem receive_put (proxy : Proxy) (host : String) (fleet : Fleet Proxy) (other : Proxy) :
    (receive (.put proxy host) fleet).stored other =
      if other = proxy then some host else fleet.stored other := by
  by_cases same : other = proxy
  · subst same
    simp [receive]
  · simp [receive, stored_other _ _ same, same]

theorem receive_clear (proxy : Proxy) (host : String) (fleet : Fleet Proxy) (other : Proxy) :
    (receive (.clearIfMatch proxy host) fleet).stored other =
      if other = proxy ∧ fleet.stored proxy = some host then none else fleet.stored other := by
  by_cases there : fleet.stored proxy = some host
  · by_cases same : other = proxy
    · subst same
      simp [receive, there]
    · simp [receive, there, stored_other _ _ same, same]
  · simp [receive, there]

theorem clearing_delivered {proxies : List Proxy} {world : World (Fleet Proxy) (Proc Proxy)}
    {host : String} {message : Message Proxy} (clearing : Clearing proxies world host)
    (mailed : message ∈ world.shared.mail) :
    Clearing proxies ⟨receive message
      { world.shared with mail := world.shared.mail.erase message }, world.procs⟩ host := by
  cases message with
  | put proxy own => exact absurd mailed (clearing.noPut proxy own)
  | clearIfMatch proxy own =>
    refine ⟨?_, ?_, clearing.still⟩
    · intro other listed
      simp only [receive_clear, receive_mail]
      split
      · exact Or.inl rfl
      · rename_i stays
        rcases clearing.stored other listed with none | ⟨stored, waits⟩
        · exact Or.inl none
        · refine Or.inr ⟨stored, ?_⟩
          apply (List.mem_erase_of_ne _).mpr waits
          intro same
          cases same
          exact stays ⟨rfl, stored⟩
    · intro other host' still
      simp only [receive_mail] at still
      exact clearing.noPut other host' (List.mem_of_mem_erase still)

theorem settled_delivered {proxies : List Proxy} {world : World (Fleet Proxy) (Proc Proxy)}
    {host : String} {message : Message Proxy} (settled : Settled proxies world host)
    (mailed : message ∈ world.shared.mail) :
    Settled proxies ⟨receive message
      { world.shared with mail := world.shared.mail.erase message }, world.procs⟩ host := by
  have erased : ∀ other, other ∈ (world.shared.mail.erase message) → other ∈ world.shared.mail :=
    fun _ => List.mem_of_mem_erase
  cases message with
  | put proxy own =>
    have isHost := settled.puts proxy own mailed
    subst isHost
    refine ⟨?_, ?_, ?_, fun pid => bound_mono ?_ (settled.bound pid)⟩
    · intro other listed
      simp only [receive_put, receive_mail]
      by_cases same : other = proxy
      · exact Or.inl (if_pos same)
      · rw [if_neg same]
        rcases settled.stored other listed with there | ⟨none, waits | telling⟩
        · exact Or.inl there
        · refine Or.inr ⟨none, Or.inl ?_⟩
          apply (List.mem_erase_of_ne _).mpr waits
          intro equal
          cases equal
          exact same rfl
        · exact Or.inr ⟨none, Or.inr telling⟩
    · intro other host' still
      simp only [receive_mail] at still
      exact settled.puts other host' (erased _ still)
    · intro other still
      simp only [receive_mail] at still
      exact settled.noClear other (erased _ still)
    · intro other there
      rw [receive_put]
      split
      · rfl
      · exact there
  | clearIfMatch proxy own =>
    have notHost : own ≠ host := by
      intro same
      subst same
      exact settled.noClear proxy mailed
    have kept : ∀ other, world.shared.stored other = some host →
        (receive (.clearIfMatch proxy own) { world.shared with
          mail := world.shared.mail.erase (.clearIfMatch proxy own) }).stored other = some host := by
      intro other there
      rw [receive_clear, if_neg]
      · exact there
      · rintro ⟨rfl, matching⟩
        have same := there.symm.trans matching
        cases same
        exact notHost rfl
    refine ⟨?_, ?_, ?_, fun pid => bound_mono kept (settled.bound pid)⟩
    · intro other listed
      rcases settled.stored other listed with there | ⟨none, missing⟩
      · exact Or.inl (kept other there)
      · right
        simp only [receive_clear, receive_mail]
        refine ⟨by split; rfl; exact none, ?_⟩
        rcases missing with waits | telling
        · exact Or.inl ((List.mem_erase_of_ne (by simp)).mpr waits)
        · exact Or.inr telling
    · intro other host' still
      simp only [receive_mail] at still
      exact settled.puts other host' (erased _ still)
    · intro other still
      simp only [receive_mail] at still
      exact settled.noClear other (erased _ still)

theorem invariant_step {proxies : List Proxy} {fallback : Proxy → String}
    {world : World (Fleet Proxy) (Proc Proxy)} {pid : Nat} {choice : Choice} {after : Fleet Proxy}
    {arrived : Proc Proxy} (held : Invariant proxies world)
    (allowed : OneAtATime world (.proc pid choice))
    (stepped : step proxies fallback pid choice world.shared (world.procs pid) =
      some (after, arrived)) : Invariant proxies (world.moved pid after arrived) := by
  have effect := step_effect stepped
  refine ⟨home_moved held.home effect, ?_⟩
  rcases held.phase with ⟨host, clearing⟩ | ⟨decider, deciding⟩ | ⟨host, settled⟩
  · rcases clearing_step clearing held.home allowed effect with goesOn | decides
    · exact Or.inl ⟨host, goesOn⟩
    · exact Or.inr (Or.inl ⟨pid, decides⟩)
  · rcases deciding_step deciding held.home allowed effect with goesOn | settles
    · exact Or.inr (Or.inl ⟨decider, goesOn⟩)
    · exact Or.inr (Or.inr settles)
  · rcases settled_step settled held.home allowed effect with goesOn | clears
    · exact Or.inr (Or.inr ⟨host, goesOn⟩)
    · exact Or.inl ⟨host, clears⟩

omit [DecidableEq Proxy] in
/-- A change of the stores that no stored host takes part in. -/
theorem phase_same_stored {proxies : List Proxy} {world : World (Fleet Proxy) (Proc Proxy)}
    {after : Fleet Proxy} (held : Invariant proxies world)
    (stored : ∀ proxy, after.stored proxy = world.shared.stored proxy)
    (mail : after.mail = world.shared.mail) : Invariant proxies ⟨after, world.procs⟩ := by
  refine ⟨held.home, ?_⟩
  rcases held.phase with ⟨host, clearing⟩ | ⟨decider, deciding⟩ | ⟨host, settled⟩
  · refine Or.inl ⟨host, ?_, ?_, clearing.still⟩
    · simp only [stored, mail]
      exact clearing.stored
    · simp only [mail]
      exact clearing.noPut
  · refine Or.inr (Or.inl ⟨decider, ?_, ?_, ?_, deciding.still⟩)
    · simp only [stored]
      exact deciding.stored
    · simp only [mail]
      exact deciding.mail
    · simp only [stored]
      exact deciding.decides
  · refine Or.inr (Or.inr ⟨host, ?_, ?_, ?_, fun pid => bound_mono ?_ (settled.bound pid)⟩)
    · simp only [stored, mail]
      exact settled.stored
    · simp only [mail]
      exact settled.puts
    · simp only [mail]
      exact settled.noClear
    · intro proxy there
      rw [stored, there]

theorem invariant_outside {proxies : List Proxy} {world : World (Fleet Proxy) (Proc Proxy)}
    {event : Event Proxy} {after : Fleet Proxy} (held : Invariant proxies world)
    (allowed : OneAtATime world (.outside event))
    (happened : outside event world.shared = some after) :
    Invariant proxies ⟨after, world.procs⟩ := by
  cases event with
  | deliver message =>
    simp only [outside] at happened
    split at happened
    · rename_i mailed
      cases happened
      refine ⟨held.home, ?_⟩
      rcases held.phase with ⟨host, clearing⟩ | ⟨decider, deciding⟩ | ⟨host, settled⟩
      · exact Or.inl ⟨host, clearing_delivered clearing mailed⟩
      · rw [deciding.mail] at mailed
        cases mailed
      · exact Or.inr (Or.inr ⟨host, settled_delivered settled mailed⟩)
    · cases happened
  | node proxy event =>
    have kept : event ≠ .expire := by
      intro expires
      subst expires
      exact allowed.kept proxy rfl
    simp only [outside] at happened
    split at happened
    · rename_i shared reported
      cases happened
      exact phase_same_stored held (node_stored kept reported) rfl
    · cases happened

theorem invariant_of_run {proxies : List Proxy} {fallback : Proxy → String}
    {first last : World (Fleet Proxy) (Proc Proxy)} (fresh : Fresh proxies first)
    (run : Run (system proxies fallback) OneAtATime first last) : Invariant proxies last := by
  apply run_keeps (Invariant proxies) _ _ run
  · constructor
    · intro pid proxy starts
      rcases fresh.calls pid with ended | ⟨own, listed, stands⟩
      · rw [ended] at starts
        cases starts
      · rw [stands] at starts
        cases starts
        exact listed
    · refine Or.inl ⟨"", fun proxy listed => Or.inl (fresh.stored proxy listed), ?_, ?_⟩
      · intro proxy host mailed
        rw [fresh.mail] at mailed
        cases mailed
      · intro pid
        rcases fresh.calls pid with ended | ⟨own, _, stands⟩
        · rw [ended]
          rfl
        · rw [stands]
          rfl
  · intro world action after held allowed acted
    rcases act_cases acted with ⟨pid, choice, fleet, proc, rfl, stepped, rfl⟩ |
      ⟨event, fleet, rfl, happened, rfl⟩
    · exact invariant_step held allowed stepped
    · exact invariant_outside held allowed happened

omit [DecidableEq Proxy] in
theorem agreeing_of_invariant {proxies : List Proxy} {world : World (Fleet Proxy) (Proc Proxy)}
    (held : Invariant proxies world) : Agreeing proxies world := by
  rcases held.phase with ⟨host, clearing⟩ | ⟨decider, deciding⟩ | ⟨host, settled⟩
  · constructor
    · intro noMail _
      have none : ∀ proxy ∈ proxies, world.shared.stored proxy = none := by
        intro proxy listed
        rcases clearing.stored proxy listed with none | ⟨_, mailed⟩
        · exact none
        · rw [noMail] at mailed
          cases mailed
      intro proxy listed other listed'
      rw [none proxy listed, none other listed']
    · intro pid other host host' isUp
      have still := clearing.still pid
      rw [isUp] at still
      cases still
  · constructor
    · intro _ _ proxy listed other listed'
      rw [deciding.stored proxy listed, deciding.stored other listed']
    · intro pid other host host' isUp
      obtain ⟨_, _, stands, _⟩ := deciding.decides
      have different : pid ≠ decider := by
        intro same
        subst same
        rw [stands] at isUp
        cases isUp
      have still := deciding.still pid different
      rw [isUp] at still
      cases still
  · constructor
    · intro noMail noBroadcast
      have there : ∀ proxy ∈ proxies, world.shared.stored proxy = some host := by
        intro proxy listed
        rcases settled.stored proxy listed with there | ⟨_, mailed | ⟨teller, own, tells⟩⟩
        · exact there
        · rw [noMail] at mailed
          cases mailed
        · exact absurd tells (noBroadcast teller own host)
      intro proxy listed other listed'
      rw [there proxy listed, there other listed']
    · intro pid other own own' isUp isUp'
      have left := settled.bound pid
      have right := settled.bound other
      rw [isUp] at left
      rw [isUp'] at right
      exact left.trans right.symm

/-- Proxies agree, and calls share a switchboard, in every run in which decisions and
    clears keep out of each other's way. -/
theorem affinity_agrees (proxies : List Proxy) (fallback : Proxy → String)
    (first last : World (Fleet Proxy) (Proc Proxy)) (fresh : Fresh proxies first)
    (run : Run (system proxies fallback) OneAtATime first last) : Agreeing proxies last :=
  agreeing_of_invariant (invariant_of_run fresh run)

end

def isPut : Message Proxy → Bool
  | .put _ _ => true
  | .clearIfMatch _ _ => false

/-- The condition, looked at for the processes below a bound. -/
def alone (bound : Nat) (world : World (Fleet Proxy) (Proc Proxy)) :
    Action Choice (Event Proxy) → Bool
  | .proc pid _ => decide (pid < bound) &&
    match world.procs pid with
    | .decide proxy .start => world.shared.mail.all isPut &&
      ((world.shared.stored proxy).isSome || world.shared.mail.isEmpty &&
        (List.range bound).all (fun other => other == pid || !acting (world.procs other)))
    | .clear _ => (List.range bound).all (fun other => !acting (world.procs other)) &&
      world.shared.mail.all (fun message => !isPut message)
    | _ => true
  | .outside (.node _ .expire) => false
  | .outside _ => true

theorem alone_below (bound : Nat) (world : World (Fleet Proxy) (Proc Proxy)) (pid : Nat)
    (choice : Choice) (passed : alone bound world (.proc pid choice) = true) : pid < bound := by
  simp only [alone, Bool.and_eq_true, decide_eq_true_eq] at passed
  exact passed.1

theorem alone_sound (bound : Nat) (world : World (Fleet Proxy) (Proc Proxy))
    (action : Action Choice (Event Proxy))
    (silent : ∀ pid, bound ≤ pid → acting (world.procs pid) = false)
    (passed : alone bound world action = true) : OneAtATime world action := by
  constructor
  · intro pid choice proxy isProc starts empty
    subst isProc
    simp only [alone, starts, empty, Bool.and_eq_true, Option.isSome_none, Bool.false_or,
      List.isEmpty_iff, List.all_eq_true, List.mem_range, Bool.or_eq_true, beq_iff_eq] at passed
    refine ⟨passed.2.2.1, ?_⟩
    intro other different
    by_cases near : other < bound
    · rcases passed.2.2.2 other near with same | still
      · exact absurd same different
      · simpa using still
    · exact silent other (Nat.le_of_not_lt near)
  · intro pid choice proxy isProc starts other host mailed
    subst isProc
    simp only [alone, starts, Bool.and_eq_true, List.all_eq_true] at passed
    cases passed.2.1 _ mailed
  · intro pid choice host isProc stands
    subst isProc
    simp only [alone, stands, Bool.and_eq_true, List.all_eq_true, List.mem_range] at passed
    constructor
    · intro other
      by_cases near : other < bound
      · simpa using passed.2.1 other near
      · exact silent other (Nat.le_of_not_lt near)
    · intro proxy host' mailed
      cases passed.2.2 _ mailed
  · intro proxy isExpire
    subst isExpire
    cases passed

/-- Two proxies that know the same switchboards with different numbers of channels. -/
def nodes : Nat → SwitchboardHost.Shared
  | 0 => ⟨none, [(0, "10.0.0.1"), (3, "10.0.0.2")], ["10.0.0.1", "10.0.0.2"]⟩
  | _ => ⟨none, [(1, "10.0.0.2"), (2, "10.0.0.1")], ["10.0.0.1", "10.0.0.2"]⟩

/-- A call comes in at each of the two proxies. -/
def twoCalls : World (Fleet Nat) (Proc Nat) where
  shared := ⟨nodes, [], fun _ => [], []⟩
  procs := fun
    | 0 => .decide 0 .start
    | 1 => .decide 1 .start
    | _ => .ended

theorem two_calls_fresh : Fresh [0, 1] twoCalls := by
  refine ⟨?_, ?_, rfl⟩
  · intro pid
    match pid with
    | 0 => exact Or.inr ⟨0, by simp, rfl⟩
    | 1 => exact Or.inr ⟨1, by simp, rfl⟩
    | _ + 2 => exact Or.inl rfl
  · intro proxy _
    match proxy with
    | 0 => rfl
    | _ + 1 => rfl

def decides (pid steps : Nat) : List (Action Choice (Event Nat)) :=
  List.replicate steps (.proc pid {})

def tell (proxy : Nat) (host : String) : Action Choice (Event Nat) :=
  .outside (.deliver (.put proxy host))

/-- The second call comes when the first proxy has told the second. -/
def inTurn : List (Action Choice (Event Nat)) :=
  decides 0 6 ++ [tell 1 "10.0.0.1"] ++ decides 1 4 ++ [tell 0 "10.0.0.1"]

/-- Both proxies decide before either has been told. -/
def crossing : List (Action Choice (Event Nat)) :=
  decides 0 6 ++ decides 1 6 ++ [tell 1 "10.0.0.1", tell 0 "10.0.0.2"]

def config : Nat → String := fun _ => "127.0.0.1"

theorem affinity_agrees_in_turn : ∃ last : World (Fleet Nat) (Proc Nat),
    runWhere (system [0, 1] config) (alone 2) twoCalls inTurn = some last ∧
    last.procs 0 = .up "10.0.0.1" ∧ last.procs 1 = .up "10.0.0.1" ∧ Agreeing [0, 1] last := by
  have ran : ∃ last : World (Fleet Nat) (Proc Nat),
      runWhere (system [0, 1] config) (alone 2) twoCalls inTurn = some last ∧
      last.procs 0 = .up "10.0.0.1" ∧ last.procs 1 = .up "10.0.0.1" := ⟨_, rfl, rfl, rfl⟩
  obtain ⟨last, ran, first, second⟩ := ran
  refine ⟨last, ran, first, second, affinity_agrees [0, 1] config twoCalls last two_calls_fresh ?_⟩
  apply run_of_runWhere_within (fun world => ∀ pid, 2 ≤ pid → acting (world.procs pid) = false)
    (alone_sound 2) _ inTurn _ ran
  · intro world action after silent passed acted
    exact silent_from (fun proc => acting proc = false) (alone_below 2) silent passed acted
  · intro pid far
    match pid with
    | _ + 2 => rfl

/-- The only events of the run are deliveries. -/
def onlyDelivers (_ : World (Fleet Proxy) (Proc Proxy)) : Action Choice (Event Proxy) → Bool
  | .outside (.node _ _) => false
  | _ => true

/-- Every message is delivered, no host is lost and nothing expires; the proxies have
    taken each other's host, and the two calls are on two switchboards. -/
theorem crossing_broadcasts_swap :
    ¬ ∀ (proxies : List Nat) (fallback : Nat → String) (first last : World (Fleet Nat) (Proc Nat)),
      Fresh proxies first →
      Run (system proxies fallback) (fun _ action => ∀ proxy event, action ≠ .outside (.node proxy event))
        first last → Agreeing proxies last := by
  intro always
  have ran : ∃ last : World (Fleet Nat) (Proc Nat),
      runWhere (system [0, 1] config) onlyDelivers twoCalls crossing = some last ∧
      last.procs 0 = .up "10.0.0.1" ∧ last.procs 1 = .up "10.0.0.2" ∧
      last.shared.stored 0 = some "10.0.0.2" ∧ last.shared.stored 1 = some "10.0.0.1" ∧
      last.shared.mail = [] := ⟨_, rfl, rfl, rfl, rfl, rfl, rfl⟩
  obtain ⟨last, ran, first, second, _⟩ := ran
  have agreeing := always [0, 1] config twoCalls last two_calls_fresh
    (run_of_runWhere (fun world action passed proxy event isNode => by
      subst isNode
      cases passed) crossing ran)
  have same := agreeing.calls 0 1 _ _ first second
  revert same
  decide

end TenantAffinity
