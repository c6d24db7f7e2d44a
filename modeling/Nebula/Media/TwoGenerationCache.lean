import Nebula.Lib.IndexMap

/- A cache with two generations of entries: new ones go to the younger generation, and the older
   one is dropped once its time is over. Times are counted from a common start. -/

structure TwoGenerationCache (Key Value : Type) where
  generationLifetime : Nat
  generation0 : IndexMap Key Value
  generation1 : IndexMap Key Value
  generation1Expires : Nat

namespace TwoGenerationCache

section Operations
variable {Key Value : Type} [DecidableEq Key]

def new (generationLifetime now : Nat) : TwoGenerationCache Key Value :=
  ⟨generationLifetime, .empty, .empty, now + generationLifetime⟩

def insertWithoutRemovingOld (cache : TwoGenerationCache Key Value) (key : Key) (value : Value) :
    TwoGenerationCache Key Value :=
  { cache with generation0 := cache.generation0.insert key value }

/-- The generation that is dropped, if it is time for it. -/
def swapGenerationsIfItsBeenTooLong (cache : TwoGenerationCache Key Value) (now : Nat) :
    TwoGenerationCache Key Value × Option (IndexMap Key Value) :=
  if cache.generation1Expires ≤ now then
    ({ cache with
      generation0 := .empty
      generation1 := cache.generation0
      generation1Expires := now + cache.generationLifetime }, some cache.generation1)
  else (cache, none)

def removeOld (cache : TwoGenerationCache Key Value) (now : Nat) :
    TwoGenerationCache Key Value × List Key :=
  match swapGenerationsIfItsBeenTooLong cache now with
  | (after, some removedGen) =>
    (after, (removedGen.entries.map Prod.fst).filter fun key =>
      (after.generation1.entries.lookup key).isNone)
  | (after, none) => (after, [])

def get (cache : TwoGenerationCache Key Value) (key : Key) : Option Value :=
  (cache.generation0.entries.lookup key).or (cache.generation1.entries.lookup key)

def remove (cache : TwoGenerationCache Key Value) (key : Key) :
    TwoGenerationCache Key Value × Option Value :=
  ({ cache with
    generation0 := cache.generation0.erase key
    generation1 := cache.generation1.erase key },
    (cache.generation0.entries.lookup key).or (cache.generation1.entries.lookup key))

/-- The cache that looks after its own age drops the old entries as it takes a new one. -/
def insert (cache : TwoGenerationCache Key Value) (key : Key) (value : Value) (now : Nat) :
    TwoGenerationCache Key Value :=
  insertWithoutRemovingOld (swapGenerationsIfItsBeenTooLong cache now).1 key value

end Operations

section Runs

inductive Operation (Key Value : Type) where
  | insert (key : Key) (value : Value)
  | insertWithoutRemovingOld (key : Key) (value : Value)
  | removeOld
  | get (key : Key)
  | remove (key : Key)

/-- An operation and the time at which it happens. -/
abbrev Event (Key Value : Type) := Nat × Operation Key Value

variable {Key Value : Type} [DecidableEq Key]

def step (cache : TwoGenerationCache Key Value) (event : Event Key Value) :
    TwoGenerationCache Key Value :=
  match event.2 with
  | .insert key value => insert cache key value event.1
  | .insertWithoutRemovingOld key value => insertWithoutRemovingOld cache key value
  | .removeOld => (removeOld cache event.1).1
  | .get _ => cache
  | .remove key => (remove cache key).1

def run (cache : TwoGenerationCache Key Value) (events : List (Event Key Value)) :
    TwoGenerationCache Key Value :=
  events.foldl step cache

/-- The times do not go back. -/
def InOrder (start : Nat) : List (Event Key Value) → Prop
  | [] => True
  | event :: rest => start ≤ event.1 ∧ InOrder event.1 rest

instance decidableInOrder (start : Nat) :
    (events : List (Event Key Value)) → Decidable (InOrder start events)
  | [] => isTrue trivial
  | event :: rest =>
    have := decidableInOrder event.1 rest
    inferInstanceAs (Decidable (start ≤ event.1 ∧ InOrder event.1 rest))

namespace Operation

def inserts (key : Key) : Operation Key Value → Option Value
  | .insert own value => if key = own then some value else none
  | .insertWithoutRemovingOld own value => if key = own then some value else none
  | _ => none

def removes (key : Key) : Operation Key Value → Bool
  | .remove own => key = own
  | _ => false

/-- Whether the operation looks at the age of the cache. -/
def agesCache : Operation Key Value → Bool
  | .insert _ _ => true
  | .removeOld => true
  | _ => false

def Untouched (key : Key) (operation : Operation Key Value) : Prop :=
  operation.inserts key = none ∧ operation.removes key = false

end Operation

def swaps (cache : TwoGenerationCache Key Value) (event : Event Key Value) : Bool :=
  event.2.agesCache && decide (cache.generation1Expires ≤ event.1)

def swapCount (cache : TwoGenerationCache Key Value) : List (Event Key Value) → Nat
  | [] => 0
  | event :: rest => (if swaps cache event then 1 else 0) + swapCount (step cache event) rest

/-- What was inserted last for a key and not removed since. -/
def latest (key : Key) (before : Option Value) : List (Event Key Value) → Option Value
  | [] => before
  | event :: rest =>
    latest key (if event.2.removes key then none else (event.2.inserts key).or before) rest

end Runs

section Order
variable {Key Value : Type}

theorem inOrder_after {start : Nat} {before : List (Event Key Value)} {event : Event Key Value}
    {after : List (Event Key Value)} (ordered : InOrder start (before ++ event :: after)) :
    InOrder event.1 after := by
  induction before generalizing start with
  | nil => exact ordered.2
  | cons first rest ih => exact ih ordered.2

end Order

section Steps
variable {Key Value : Type} [DecidableEq Key]

theorem run_cons (cache : TwoGenerationCache Key Value) (event : Event Key Value)
    (rest : List (Event Key Value)) : run cache (event :: rest) = run (step cache event) rest :=
  rfl

theorem run_append (cache : TwoGenerationCache Key Value) (before after : List (Event Key Value)) :
    run cache (before ++ after) = run (run cache before) after :=
  List.foldl_append

/-- The cache once the operation has looked at its age. -/
def aged (cache : TwoGenerationCache Key Value) (event : Event Key Value) :
    TwoGenerationCache Key Value :=
  if swaps cache event then
    { cache with
      generation0 := .empty
      generation1 := cache.generation0
      generation1Expires := event.1 + cache.generationLifetime }
  else cache

/-- What the operation does to the cache then. -/
def operate (cache : TwoGenerationCache Key Value) : Operation Key Value →
    TwoGenerationCache Key Value
  | .insert key value => insertWithoutRemovingOld cache key value
  | .insertWithoutRemovingOld key value => insertWithoutRemovingOld cache key value
  | .remove key => (remove cache key).1
  | .removeOld => cache
  | .get _ => cache

omit [DecidableEq Key] in
theorem swap_aged (cache : TwoGenerationCache Key Value) (now : Nat)
    (operation : Operation Key Value) (ages : operation.agesCache = true) :
    (swapGenerationsIfItsBeenTooLong cache now).1 = aged cache (now, operation) := by
  unfold swapGenerationsIfItsBeenTooLong aged swaps
  rw [ages, Bool.true_and]
  by_cases old : cache.generation1Expires ≤ now
  · rw [if_pos old, if_pos (decide_eq_true old)]
  · rw [if_neg old, if_neg (by simpa using old)]

theorem removeOld_cache (cache : TwoGenerationCache Key Value) (now : Nat) :
    (removeOld cache now).1 = (swapGenerationsIfItsBeenTooLong cache now).1 := by
  unfold removeOld
  split
  · rename_i after _ same
    rw [same]
  · rename_i after same
    rw [same]

theorem step_eq (cache : TwoGenerationCache Key Value) (event : Event Key Value) :
    step cache event = operate (aged cache event) event.2 := by
  obtain ⟨now, operation⟩ := event
  cases operation with
  | insert key value =>
    show insertWithoutRemovingOld (swapGenerationsIfItsBeenTooLong cache now).1 key value = _
    rw [swap_aged cache now (.insert key value) rfl]
    rfl
  | removeOld =>
    show (removeOld cache now).1 = _
    rw [removeOld_cache, swap_aged cache now .removeOld rfl]
    rfl
  | insertWithoutRemovingOld key value => rfl
  | get key => rfl
  | remove key => rfl

theorem operate_generation0 (cache : TwoGenerationCache Key Value)
    (operation : Operation Key Value) (key : Key) :
    (operate cache operation).generation0.entries.lookup key =
      if operation.removes key then none
      else (operation.inserts key).or (cache.generation0.entries.lookup key) := by
  cases operation with
  | insert own value =>
    simp only [operate, insertWithoutRemovingOld, IndexMap.lookup_insert, Operation.inserts]
    by_cases same : key = own <;> simp [same, Operation.removes]
  | insertWithoutRemovingOld own value =>
    simp only [operate, insertWithoutRemovingOld, IndexMap.lookup_insert, Operation.inserts]
    by_cases same : key = own <;> simp [same, Operation.removes]
  | remove own =>
    simp only [operate, remove, IndexMap.lookup_erase, Operation.removes]
    by_cases same : key = own <;> simp [same, Operation.inserts]
  | removeOld => rfl
  | get own => rfl

theorem operate_generation1 (cache : TwoGenerationCache Key Value)
    (operation : Operation Key Value) (key : Key) :
    (operate cache operation).generation1.entries.lookup key =
      if operation.removes key then none else cache.generation1.entries.lookup key := by
  cases operation with
  | remove own =>
    simp only [operate, remove, IndexMap.lookup_erase, Operation.removes]
    by_cases same : key = own <;> simp [same]
  | _ => rfl

/-- No operation but its look at the age touches the times of a cache. -/
theorem operate_times (cache : TwoGenerationCache Key Value) (operation : Operation Key Value) :
    (operate cache operation).generation1Expires = cache.generation1Expires ∧
      (operate cache operation).generationLifetime = cache.generationLifetime := by
  cases operation <;> exact ⟨rfl, rfl⟩

theorem generation0_step (cache : TwoGenerationCache Key Value) (event : Event Key Value)
    (key : Key) :
    (step cache event).generation0.entries.lookup key =
      if event.2.removes key then none else
        (event.2.inserts key).or
          (if swaps cache event then none else cache.generation0.entries.lookup key) := by
  have young : (aged cache event).generation0.entries.lookup key =
      if swaps cache event then none else cache.generation0.entries.lookup key := by
    unfold aged
    split <;> rfl
  rw [step_eq, operate_generation0, young]

theorem generation1_step (cache : TwoGenerationCache Key Value) (event : Event Key Value)
    (key : Key) :
    (step cache event).generation1.entries.lookup key =
      if event.2.removes key then none else
        if swaps cache event then cache.generation0.entries.lookup key
        else cache.generation1.entries.lookup key := by
  have old : (aged cache event).generation1.entries.lookup key =
      if swaps cache event then cache.generation0.entries.lookup key
      else cache.generation1.entries.lookup key := by
    unfold aged
    split <;> rfl
  rw [step_eq, operate_generation1, old]

theorem expires_step (cache : TwoGenerationCache Key Value) (event : Event Key Value) :
    (step cache event).generation1Expires =
      if swaps cache event then event.1 + cache.generationLifetime
      else cache.generation1Expires := by
  rw [step_eq, (operate_times _ _).1]
  unfold aged
  split <;> rfl

theorem lifetime_step (cache : TwoGenerationCache Key Value) (event : Event Key Value) :
    (step cache event).generationLifetime = cache.generationLifetime := by
  rw [step_eq, (operate_times _ _).2]
  unfold aged
  split <;> rfl

end Steps

section Lifetime
variable {Key Value : Type} [DecidableEq Key]

theorem get_none_iff (cache : TwoGenerationCache Key Value) (key : Key) :
    get cache key = none ↔ cache.generation0.entries.lookup key = none ∧
      cache.generation1.entries.lookup key = none := by
  unfold get
  cases cache.generation0.entries.lookup key <;> simp

theorem latest_step (cache : TwoGenerationCache Key Value) (event : Event Key Value) (key : Key)
    (before : Option Value) (known : get cache key = none ∨ get cache key = before) :
    get (step cache event) key = none ∨
      get (step cache event) key =
        if event.2.removes key then none else (event.2.inserts key).or before := by
  unfold get at known ⊢
  rw [generation0_step, generation1_step]
  by_cases removed : event.2.removes key
  · simp [removed]
  · simp only [removed, Bool.false_eq_true, ↓reduceIte]
    cases event.2.inserts key with
    | some value => simp
    | none =>
      by_cases old : swaps cache event
      · cases young : cache.generation0.entries.lookup key with
        | none => simp [old]
        | some value => simpa [old, young] using known
      · simpa [old] using known

/-- What is found is what came in last. -/
theorem latest_run (key : Key) (events : List (Event Key Value)) :
    ∀ (cache : TwoGenerationCache Key Value) (before : Option Value),
      get cache key = none ∨ get cache key = before →
      get (run cache events) key = none ∨ get (run cache events) key = latest key before events := by
  induction events with
  | nil =>
    intro cache before known
    exact known
  | cons event rest ih =>
    intro cache before known
    exact ih _ _ (latest_step cache event key before known)

theorem latest_untouched (key : Key) (events : List (Event Key Value)) (before : Option Value)
    (fresh : ∀ event ∈ events, event.2.inserts key = none) (absent : before = none) :
    latest key before events = none := by
  induction events generalizing before with
  | nil => exact absent
  | cons event rest ih =>
    refine ih _ (fun later member => fresh later (List.mem_cons_of_mem _ member)) ?_
    rw [fresh event List.mem_cons_self, absent]
    split <;> rfl

/-- The value is there and will be until the given time, whatever happens to other keys. -/
def Held (cache : TwoGenerationCache Key Value) (key : Key) (value : Value) (now due : Nat) : Prop :=
  (cache.generation0.entries.lookup key = some value ∧
    (due ≤ now + cache.generationLifetime ∨
      due ≤ cache.generation1Expires + cache.generationLifetime)) ∨
  (cache.generation0.entries.lookup key = none ∧
    cache.generation1.entries.lookup key = some value ∧ due ≤ cache.generation1Expires)

theorem get_held {cache : TwoGenerationCache Key Value} {key : Key} {value : Value} {now due : Nat}
    (held : Held cache key value now due) : get cache key = some value := by
  unfold get
  rcases held with ⟨young, _⟩ | ⟨young, old, _⟩
  · rw [young]
    rfl
  · rw [young, old]
    rfl

theorem held_step {cache : TwoGenerationCache Key Value} {key : Key} {value : Value}
    {now due : Nat} (held : Held cache key value now due) (event : Event Key Value)
    (untouched : event.2.Untouched key) (later : now ≤ event.1) (early : event.1 < due) :
    Held (step cache event) key value event.1 due := by
  obtain ⟨notInserted, notRemoved⟩ := untouched
  unfold Held
  rw [generation0_step, generation1_step, expires_step, lifetime_step, notInserted, notRemoved]
  by_cases swapped : swaps cache event
  · have old : cache.generation1Expires ≤ event.1 := by
      unfold swaps at swapped
      exact of_decide_eq_true (Bool.and_eq_true_iff.mp swapped).2
    rcases held with ⟨young, due⟩ | ⟨_, _, due⟩
    · right
      simp only [swapped, young, ↓reduceIte]
      refine ⟨rfl, rfl, ?_⟩
      omega
    · omega
  · simp only [swapped]
    rcases held with ⟨young, due⟩ | ⟨young, old, due⟩
    · left
      simp only [Bool.false_eq_true, ↓reduceIte]
      refine ⟨young, ?_⟩
      omega
    · right
      exact ⟨young, old, due⟩

theorem held_run {key : Key} {value : Value} {due : Nat} (events : List (Event Key Value)) :
    ∀ (cache : TwoGenerationCache Key Value) (now : Nat), Held cache key value now due →
      InOrder now events → (∀ event ∈ events, event.2.Untouched key ∧ event.1 < due) →
      get (run cache events) key = some value := by
  induction events with
  | nil =>
    intro cache now held _ _
    exact get_held held
  | cons event rest ih =>
    intro cache now held ordered calm
    obtain ⟨untouched, early⟩ := calm event List.mem_cons_self
    exact ih _ _ (held_step held event untouched ordered.1 early) ordered.2
      fun other member => calm other (List.mem_cons_of_mem _ member)

theorem not_removed_inserted {operation : Operation Key Value} {key : Key} {value : Value}
    (inserted : operation.inserts key = some value) : operation.removes key = false := by
  cases operation with
  | remove own => cases inserted
  | _ => rfl

theorem held_inserted (cache : TwoGenerationCache Key Value) {event : Event Key Value} {key : Key}
    {value : Value} (inserted : event.2.inserts key = some value) :
    Held (step cache event) key value event.1 (event.1 + cache.generationLifetime) := by
  left
  rw [generation0_step, lifetime_step, inserted, not_removed_inserted inserted]
  exact ⟨rfl, Or.inl (Nat.le_refl _)⟩

/-- The key stays known when new values come in for it. -/
theorem found_run {key : Key} {due : Nat} (events : List (Event Key Value)) :
    ∀ (cache : TwoGenerationCache Key Value) (value : Value) (now : Nat),
      Held cache key value now due → due ≤ now + cache.generationLifetime → InOrder now events →
      (∀ event ∈ events, event.2.removes key = false ∧ event.1 < due) →
      get (run cache events) key ≠ none := by
  induction events with
  | nil =>
    intro cache value now held _ _ _
    rw [run, List.foldl_nil, get_held held]
    exact Option.some_ne_none value
  | cons event rest ih =>
    intro cache value now held soon ordered calm
    obtain ⟨notRemoved, early⟩ := calm event List.mem_cons_self
    have later := ordered.1
    have still : due ≤ event.1 + (step cache event).generationLifetime := by
      rw [lifetime_step]
      omega
    have calmLater : ∀ other ∈ rest, other.2.removes key = false ∧ other.1 < due :=
      fun other member => calm other (List.mem_cons_of_mem _ member)
    cases inserted : event.2.inserts key with
    | some renewed =>
      have fresh : Held (step cache event) key renewed event.1 due := by
        left
        rw [generation0_step, inserted, notRemoved]
        exact ⟨rfl, Or.inl still⟩
      exact ih _ renewed event.1 fresh still ordered.2 calmLater
    | none =>
      exact ih _ value event.1 (held_step held event ⟨inserted, notRemoved⟩ later early) still
        ordered.2 calmLater

/-- The insertion that looks after the age leaves a generation that has time left. -/
theorem held_insert (cache : TwoGenerationCache Key Value) (key : Key) (value : Value) (now : Nat)
    (lasting : 0 < cache.generationLifetime) :
    Held (step cache (now, .insert key value)) key value now
      (now + cache.generationLifetime + 1) := by
  left
  rw [generation0_step, lifetime_step, expires_step]
  refine ⟨by simp [Operation.removes, Operation.inserts], Or.inr ?_⟩
  simp only [swaps, Operation.agesCache, Bool.true_and, decide_eq_true_eq]
  split <;> omega

/-- What is known of a key that is not inserted again once that many swaps are left to it. -/
def SwapsLeft (cache : TwoGenerationCache Key Value) (key : Key) : Nat → Prop
  | 0 => get cache key = none
  | 1 => cache.generation0.entries.lookup key = none
  | _ => True

theorem swapsLeft_step {cache : TwoGenerationCache Key Value} {key : Key} {left : Nat}
    (known : SwapsLeft cache key left) (event : Event Key Value)
    (fresh : event.2.inserts key = none) :
    SwapsLeft (step cache event) key (left - if swaps cache event then 1 else 0) := by
  have young := generation0_step cache event key
  have old := generation1_step cache event key
  rw [fresh] at young
  by_cases removed : event.2.removes key
  · have gone : get (step cache event) key = none := by
      rw [get_none_iff, young, old, removed]
      exact ⟨rfl, rfl⟩
    rcases left - if swaps cache event then 1 else 0 with _ | _ | _
    · exact gone
    · exact ((get_none_iff _ _).mp gone).1
    · trivial
  · by_cases swapped : swaps cache event
    · simp only [removed, swapped, Bool.false_eq_true, ↓reduceIte, Option.none_or] at young old ⊢
      rcases left with _ | _ | _ | _
      · exact (get_none_iff _ _).mpr ⟨young, old.trans ((get_none_iff _ _).mp known).1⟩
      · exact (get_none_iff _ _).mpr ⟨young, old.trans known⟩
      · exact young
      · trivial
    · simp only [removed, swapped, Bool.false_eq_true, ↓reduceIte, Option.none_or, Nat.sub_zero]
        at young old ⊢
      rcases left with _ | _ | _
      · obtain ⟨first, second⟩ := (get_none_iff _ _).mp known
        exact (get_none_iff _ _).mpr ⟨young.trans first, old.trans second⟩
      · exact young.trans known
      · trivial

theorem swapsLeft_run {key : Key} (events : List (Event Key Value)) :
    ∀ (cache : TwoGenerationCache Key Value) (left : Nat), SwapsLeft cache key left →
      (∀ event ∈ events, event.2.inserts key = none) →
      SwapsLeft (run cache events) key (left - swapCount cache events) := by
  induction events with
  | nil =>
    intro cache left known _
    exact known
  | cons event rest ih =>
    intro cache left known fresh
    have first := swapsLeft_step known event (fresh event List.mem_cons_self)
    have later := ih _ _ first fun other member => fresh other (List.mem_cons_of_mem _ member)
    rwa [Nat.sub_sub] at later

/-- The keys that are dropped: those that are found before and not after. -/
theorem mem_removeOld (cache : TwoGenerationCache Key Value) (now : Nat) (key : Key) :
    key ∈ (removeOld cache now).2 ↔
      get cache key ≠ none ∧ get (removeOld cache now).1 key = none := by
  by_cases old : cache.generation1Expires ≤ now
  · have held : key ∈ cache.generation1.entries.map Prod.fst ↔
        cache.generation1.entries.lookup key ≠ none := by
      rw [ne_eq, List.lookup_eq_none_iff]
      simp
    simp only [removeOld, swapGenerationsIfItsBeenTooLong, if_pos old, List.mem_filter, held]
    rw [get_none_iff]
    simp only [ne_eq, get_none_iff, IndexMap.entries_empty, List.lookup_nil, true_and,
      Option.isNone_iff_eq_none]
    constructor
    · rintro ⟨was, gone⟩
      exact ⟨fun both => was both.2, gone⟩
    · rintro ⟨was, gone⟩
      exact ⟨fun none => was ⟨gone, none⟩, gone⟩
  · simp only [removeOld, swapGenerationsIfItsBeenTooLong, if_neg old, List.not_mem_nil, false_iff]
    rintro ⟨was, gone⟩
    exact was gone

theorem removeOld_nodup (cache : TwoGenerationCache Key Value) (now : Nat) :
    (removeOld cache now).2.Nodup := by
  unfold removeOld swapGenerationsIfItsBeenTooLong
  split
  · rename_i same
    split at same
    · cases same
      exact cache.generation1.nodup.filter _
    · cases same
  · exact List.nodup_nil

end Lifetime

section Results
variable {Key Value : Type} [DecidableEq Key]

/-- What users of a cache rely on over a run from the time at which it was made. -/
structure HonoursLifetime (lifetime start : Nat) (events : List (Event Key Value)) : Prop where
  kept : ∀ before event after key value now, events = before ++ event :: after →
    event.2.inserts key = some value → (∀ later ∈ after, later.2.Untouched key) →
    (∀ later ∈ after, later.1 ≤ now) → now < event.1 + lifetime →
    get (run (new lifetime start) events) key = some value
  keptThrough : ∀ before inserted after key value now,
    events = before ++ (inserted, .insert key value) :: after →
    (∀ later ∈ after, later.2.Untouched key) → (∀ later ∈ after, later.1 ≤ now) →
    0 < lifetime → now ≤ inserted + lifetime →
    get (run (new lifetime start) events) key = some value
  last : ∀ key, get (run (new lifetime start) events) key = none ∨
    get (run (new lifetime start) events) key = latest key none events
  removed : ∀ before event after key, events = before ++ event :: after →
    event.2.removes key = true → (∀ later ∈ after, later.2.inserts key = none) →
    get (run (new lifetime start) events) key = none
  twoSwaps : ∀ before after key, events = before ++ after →
    (∀ later ∈ after, later.2.inserts key = none) →
    2 ≤ swapCount (run (new lifetime start) before) after →
    get (run (new lifetime start) events) key = none
  dropped : ∀ now key, key ∈ (removeOld (run (new lifetime start) events) now).2 ↔
    get (run (new lifetime start) events) key ≠ none ∧
      get (removeOld (run (new lifetime start) events) now).1 key = none
  droppedOnce : ∀ now, (removeOld (run (new lifetime start) events) now).2.Nodup

theorem lifetime_run (events : List (Event Key Value)) (cache : TwoGenerationCache Key Value) :
    (run cache events).generationLifetime = cache.generationLifetime := by
  induction events generalizing cache with
  | nil => rfl
  | cons event rest ih => exact (ih (step cache event)).trans (lifetime_step cache event)

/-- The inserted value, found after events that leave its key alone. -/
theorem get_inserted {lifetime start due : Nat} {before after : List (Event Key Value)}
    {event : Event Key Value} {key : Key} {value : Value}
    (ordered : InOrder start (before ++ event :: after))
    (held : Held (step (run (new lifetime start) before) event) key value event.1 due)
    (calm : ∀ later ∈ after, later.2.Untouched key) (early : ∀ later ∈ after, later.1 < due) :
    get (run (new lifetime start) (before ++ event :: after)) key = some value := by
  rw [run_append]
  exact held_run after _ event.1 held (inOrder_after ordered)
    fun later member => ⟨calm later member, early later member⟩

theorem lifetime_honoured (lifetime start : Nat) (events : List (Event Key Value))
    (ordered : InOrder start events) : HonoursLifetime lifetime start events where
  kept := by
    intro before event after key value now whole inserted calm past soon
    subst whole
    have held := held_inserted (run (new lifetime start) before) inserted
    rw [lifetime_run] at held
    exact get_inserted ordered held calm
      fun later member => Nat.lt_of_le_of_lt (past later member) soon
  keptThrough := by
    intro before inserted after key value now whole calm past lasting soon
    subst whole
    have positive : 0 < (run (new lifetime start) before).generationLifetime := by
      rwa [lifetime_run]
    have held := held_insert (run (new lifetime start) before) key value inserted positive
    rw [lifetime_run] at held
    exact get_inserted ordered held calm
      fun later member => Nat.lt_succ_of_le (Nat.le_trans (past later member) soon)
  last key := latest_run key events (new lifetime start) none (Or.inl rfl)
  removed := by
    intro before event after key whole removed fresh
    subst whole
    have gone := latest_step (run (new lifetime start) before) event key
      (get (run (new lifetime start) before) key) (Or.inr rfl)
    rw [removed, if_pos rfl] at gone
    have found := latest_run key after (step (run (new lifetime start) before) event) none gone
    rw [latest_untouched key after none fresh rfl, or_self] at found
    rw [run_append]
    exact found
  twoSwaps := by
    intro before after key whole fresh twice
    subst whole
    have known := swapsLeft_run after (run (new lifetime start) before) 2 trivial fresh
    rw [Nat.sub_eq_zero_of_le twice] at known
    rw [run_append]
    exact known
  dropped now key := mem_removeOld (run (new lifetime start) events) now key
  droppedOnce now := removeOld_nodup (run (new lifetime start) events) now

/-- One key that comes in at the last moment before a swap, one that is renewed, and one that is
    taken out again. -/
def storedRun : List (Event Nat String) :=
  [(0, .insert 1 "longest"), (999, .insert 2 "shortest"), (1000, .insert 3 "trigger"),
    (1000, .insert 1 "renewed"), (1500, .remove 3), (1999, .get 2), (2000, .removeOld)]

theorem lifetime_honoured_stored : HonoursLifetime 1000 0 storedRun :=
  lifetime_honoured 1000 0 storedRun (by decide)

example : (get (run (new 1000 0) storedRun) 1, get (run (new 1000 0) storedRun) 2,
    get (run (new 1000 0) (storedRun.take 6)) 2) = (some "renewed", none, some "shortest") := by
  decide

end Results

end TwoGenerationCache
