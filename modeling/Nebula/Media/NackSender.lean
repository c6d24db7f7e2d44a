import Mathlib.Algebra.GroupWithZero.Nat
import Mathlib.Data.List.MinMax
import Nebula.Lib.SortedMap

/- The packets that a receiver misses and asks for again: a cache of the largest keys, and the
   tracker of the sequence numbers that uses it. -/

structure KeySortedCache (Key Value : Type) [LinearOrder Key] where
  limit : Nat
  valueByKey : SortedMap Key Value
  bounded : valueByKey.entries.length ≤ limit

namespace KeySortedCache

theorem rtake_append {Entry : Type} (limit : Nat) (before after : List Entry) :
    (before.rtake limit ++ after).rtake limit = (before ++ after).rtake limit := by
  unfold List.rtake
  rw [List.length_append, List.length_append, List.length_drop]
  by_cases exceeds : before.length ≤ limit
  · rw [Nat.sub_eq_zero_of_le exceeds, List.drop_zero, Nat.sub_zero]
  · rw [← List.drop_append_of_le_length (by omega), List.drop_drop]
    congr 1
    omega

variable {Key Value : Type} [LinearOrder Key]

@[ext] theorem ext {left right : KeySortedCache Key Value} (limit : left.limit = right.limit)
    (same : left.valueByKey = right.valueByKey) : left = right := by
  cases left
  cases right
  cases limit
  cases same
  rfl

def new (limit : Nat) : KeySortedCache Key Value := ⟨limit, .empty, Nat.zero_le limit⟩

/-- Over the limit the smallest key goes. -/
def evict (limit : Nat) (map : SortedMap Key Value) : SortedMap Key Value :=
  if limit < map.entries.length then
    match map.entries with
    | [] => map
    | smallest :: _ => map.erase smallest.1
  else map

theorem evict_entries (limit : Nat) (map : SortedMap Key Value) :
    (evict limit map).entries =
      if limit < map.entries.length then map.entries.tail else map.entries := by
  unfold evict
  split
  · cases starts : map.entries with
    | nil => exact starts
    | cons smallest rest => exact map.erase_first starts
  · rfl

theorem evict_bounded {limit : Nat} {map : SortedMap Key Value}
    (nearly : map.entries.length ≤ limit + 1) : (evict limit map).entries.length ≤ limit := by
  rw [evict_entries]
  split
  · rw [List.length_tail]
    omega
  · omega

theorem insert_nearly (cache : KeySortedCache Key Value) (key : Key) (value : Value) :
    (cache.valueByKey.insert key value).entries.length ≤ cache.limit + 1 :=
  Nat.le_trans (SortedMap.place_length key value _) (Nat.succ_le_succ cache.bounded)

def insert (cache : KeySortedCache Key Value) (key : Key) (value : Value) :
    KeySortedCache Key Value :=
  ⟨cache.limit, evict cache.limit (cache.valueByKey.insert key value),
    evict_bounded (insert_nearly cache key value)⟩

def remove (cache : KeySortedCache Key Value) (key : Key) : KeySortedCache Key Value :=
  ⟨cache.limit, cache.valueByKey.erase key,
    Nat.le_trans (cache.valueByKey.erase_length key) cache.bounded⟩

def retain (cache : KeySortedCache Key Value) (kept : Key → Value → Option Value) :
    KeySortedCache Key Value :=
  ⟨cache.limit, cache.valueByKey.retain kept,
    Nat.le_trans (cache.valueByKey.retain_length kept) cache.bounded⟩

def keys (cache : KeySortedCache Key Value) : List Key := cache.valueByKey.keys

/-- A cache with keys below the new one keeps the last entries. -/
theorem insert_above (cache : KeySortedCache Key Value) (key : Key) (value : Value)
    (above : ∀ entry ∈ cache.valueByKey.entries, entry.1 < key) :
    (cache.insert key value).valueByKey.entries =
      (cache.valueByKey.entries ++ [(key, value)]).rtake cache.limit := by
  have bounded := cache.bounded
  show (evict cache.limit (cache.valueByKey.insert key value)).entries = _
  rw [evict_entries, SortedMap.insert_last _ _ _ above, List.rtake, List.length_append,
    List.length_singleton]
  split
  · rw [show cache.valueByKey.entries.length + 1 - cache.limit = 1 by omega, List.drop_one]
  · rw [show cache.valueByKey.entries.length + 1 - cache.limit = 0 by omega, List.drop_zero]

/-- The numbers from one on, put in one after another. -/
theorem insertRange_entries (value : Value) (count : Nat) :
    ∀ (cache : KeySortedCache Nat Value) (start : Nat),
      (∀ entry ∈ cache.valueByKey.entries, entry.1 < start) →
      ((List.range' start count).foldl (fun cache key => cache.insert key value)
          cache).valueByKey.entries =
        (cache.valueByKey.entries ++
          (List.range' start count).map fun key => (key, value)).rtake cache.limit := by
  induction count with
  | zero =>
    intro cache start _
    have bounded := cache.bounded
    rw [List.range'_zero, List.map_nil, List.append_nil, List.rtake,
      Nat.sub_eq_zero_of_le bounded]
    rfl
  | succ count ih =>
    intro cache start above
    have first := cache.insert_above start value above
    have later : ∀ entry ∈ (cache.insert start value).valueByKey.entries, entry.1 < start + 1 := by
      intro entry member
      rw [first, List.rtake] at member
      rcases List.mem_append.mp (List.mem_of_mem_drop member) with old | new
      · exact Nat.lt_succ_of_lt (above entry old)
      · rw [List.mem_singleton.mp new]
        exact Nat.lt_succ_self start
    rw [List.range'_succ, List.foldl_cons, ih _ _ later, first, List.map_cons]
    show (_ : List (Nat × Value)).rtake cache.limit = _
    rw [rtake_append, List.append_assoc, List.singleton_append]

theorem insertRange_limit (value : Value) (missing : List Nat) :
    ∀ cache : KeySortedCache Nat Value,
      (missing.foldl (fun cache key => cache.insert key value) cache).limit = cache.limit := by
  induction missing with
  | nil =>
    intro cache
    rfl
  | cons key rest ih =>
    intro cache
    exact ih (cache.insert key value)

end KeySortedCache

structure NackSender where
  limit : Nat
  sentBySeqnum : KeySortedCache Nat (Option (Nat × Nat))
  maxReceived : Option Nat

namespace NackSender

section Sender

def new (limit : Nat) : NackSender := ⟨limit, .new limit, none⟩

/-- Addition on the words of 64 bits that does not go past the largest. -/
def saturatingAdd (one other : Nat) : Nat := min (one + other) (2 ^ 64 - 1)

def insertMissing (cache : KeySortedCache Nat (Option (Nat × Nat))) (start stop : Nat) :
    KeySortedCache Nat (Option (Nat × Nat)) :=
  (List.range' start (stop - start)).foldl (fun cache missing => cache.insert missing none) cache

def rememberReceived (sender : NackSender) (seqnum : Nat) : NackSender :=
  match sender.maxReceived with
  | none => { sender with maxReceived := some seqnum }
  | some maxReceived =>
    match compare seqnum maxReceived with
    | .eq => sender
    | .lt => { sender with sentBySeqnum := sender.sentBySeqnum.remove seqnum }
    | .gt =>
      let start := saturatingAdd maxReceived 1
      -- With more missing than fit, only the last ones are put into an empty cache.
      if sender.limit < seqnum - start then
        { sender with
          sentBySeqnum := insertMissing (.new sender.limit) (seqnum - sender.limit) seqnum
          maxReceived := some seqnum }
      else
        { sender with
          sentBySeqnum := insertMissing sender.sentBySeqnum start seqnum
          maxReceived := some seqnum }

/-- The times of two seconds and of two hundred milliseconds, in nanoseconds. -/
def EXPIRY : Nat := 2000000000

def RESEND_INTERVAL : Nat := 200000000

/-- The new times of a number, none if it has expired, and whether it has to be sent. -/
def renewed (now : Nat) : Option (Nat × Nat) → Option (Option (Nat × Nat)) × Bool
  | some (firstSent, lastSent) =>
    if EXPIRY ≤ now - firstSent then (none, false)
    else if RESEND_INTERVAL ≤ now - lastSent then (some (some (firstSent, now)), true)
    else (some (some (firstSent, lastSent)), false)
  | none => (some (some (now, now)), true)

/-- No number is without times once all have been renewed. -/
def sentNow (now : Nat) (entry : Nat × Option (Nat × Nat)) : Option Nat :=
  match entry.2 with
  | some (_, lastSent) => if now = lastSent then some entry.1 else none
  | none => none

def sendNacks (sender : NackSender) (now : Nat) : NackSender × Option (List Nat) :=
  let sendAny := sender.sentBySeqnum.valueByKey.entries.any fun entry => (renewed now entry.2).2
  let sentBySeqnum := sender.sentBySeqnum.retain fun _ sent => (renewed now sent).1
  ({ sender with sentBySeqnum },
    if sendAny then some (sentBySeqnum.valueByKey.entries.filterMap (sentNow now)) else none)

inductive Event where
  | received (seqnum : UInt64)
  | sendNacks (now : Nat)

/-- What an event makes of the sender, and the numbers that it asks for. -/
def step (sender : NackSender) : Event → NackSender × List Nat
  | .received seqnum => (rememberReceived sender seqnum.toNat, [])
  | .sendNacks now => ((sendNacks sender now).1, (sendNacks sender now).2.getD [])

def run (sender : NackSender) (events : List Event) : NackSender :=
  events.foldl (fun sender event => (step sender event).1) sender

def tracked (sender : NackSender) : List Nat := sender.sentBySeqnum.keys

end Sender

section Gaps

/-- Every missing number of a gap goes into the cache. -/
def rememberEach (sender : NackSender) (seqnum : Nat) : NackSender :=
  match sender.maxReceived with
  | none => { sender with maxReceived := some seqnum }
  | some maxReceived =>
    match compare seqnum maxReceived with
    | .eq => sender
    | .lt => { sender with sentBySeqnum := sender.sentBySeqnum.remove seqnum }
    | .gt =>
      { sender with
        sentBySeqnum := insertMissing sender.sentBySeqnum (maxReceived + 1) seqnum
        maxReceived := some seqnum }

def stepEach (sender : NackSender) : Event → NackSender
  | .received seqnum => rememberEach sender seqnum.toNat
  | .sendNacks now => (sendNacks sender now).1

def runEach (sender : NackSender) (events : List Event) : NackSender :=
  events.foldl stepEach sender

/-- The numbers below the largest one are all that can be tracked. -/
structure Bounded (sender : NackSender) : Prop where
  sameLimit : sender.sentBySeqnum.limit = sender.limit
  below : ∀ key ∈ tracked sender, ∃ maxReceived, sender.maxReceived = some maxReceived ∧
    key < maxReceived

theorem tracked_iff (sender : NackSender) (key : Nat) :
    key ∈ tracked sender ↔ ∃ sent, (key, sent) ∈ sender.sentBySeqnum.valueByKey.entries := by
  show key ∈ List.map Prod.fst _ ↔ _
  simp

namespace Bounded
variable {sender : NackSender} {maxReceived key : Nat}

theorem below_largest (bounded : Bounded sender) (is : sender.maxReceived = some maxReceived)
    (member : key ∈ tracked sender) : key < maxReceived := by
  obtain ⟨own, same, below⟩ := bounded.below key member
  rw [is] at same
  cases same
  exact below

theorem entries_below (bounded : Bounded sender) (is : sender.maxReceived = some maxReceived) :
    ∀ entry ∈ sender.sentBySeqnum.valueByKey.entries, entry.1 < maxReceived + 1 := by
  intro entry member
  exact Nat.lt_succ_of_lt (bounded.below_largest is (List.mem_map_of_mem member))

theorem none_tracked (bounded : Bounded sender) (nothing : sender.maxReceived = none) :
    key ∉ tracked sender := by
  intro member
  obtain ⟨_, is, _⟩ := bounded.below key member
  rw [nothing] at is
  cases is

end Bounded

theorem insertMissing_entries {cache : KeySortedCache Nat (Option (Nat × Nat))} {start : Nat}
    (stop : Nat) (above : ∀ entry ∈ cache.valueByKey.entries, entry.1 < start) :
    (insertMissing cache start stop).valueByKey.entries =
      (cache.valueByKey.entries ++
        (List.range' start (stop - start)).map fun key => (key, none)).rtake cache.limit :=
  KeySortedCache.insertRange_entries none (stop - start) cache start above

theorem insertMissing_limit (cache : KeySortedCache Nat (Option (Nat × Nat))) (start stop : Nat) :
    (insertMissing cache start stop).limit = cache.limit :=
  KeySortedCache.insertRange_limit none _ cache

/-- Where more numbers are missing than fit, only the last ones stay. -/
theorem insertMissing_last {cache : KeySortedCache Nat (Option (Nat × Nat))} {start stop : Nat}
    (above : ∀ entry ∈ cache.valueByKey.entries, entry.1 < start)
    (exceeds : cache.limit < stop - start) :
    insertMissing (.new cache.limit) (stop - cache.limit) stop =
      insertMissing cache start stop := by
  apply KeySortedCache.ext
  · rw [insertMissing_limit, insertMissing_limit]
    rfl
  apply SortedMap.ext
  have none_above : ∀ entry ∈ (KeySortedCache.new cache.limit :
      KeySortedCache Nat (Option (Nat × Nat))).valueByKey.entries,
      entry.1 < stop - cache.limit := fun entry member => by cases member
  rw [insertMissing_entries stop above, insertMissing_entries stop none_above]
  show ([] ++ _ : List (Nat × Option (Nat × Nat))).rtake cache.limit = _
  have room : stop - (stop - cache.limit) = cache.limit := by omega
  rw [List.nil_append, room]
  unfold List.rtake
  rw [List.length_map, List.length_range', Nat.sub_self, List.drop_zero, List.length_append,
    List.length_map, List.length_range', List.drop_append, List.drop_of_length_le (by omega),
    List.nil_append, ← List.map_drop, List.drop_range']
  congr 1
  have shift : cache.valueByKey.entries.length + (stop - start) - cache.limit -
      cache.valueByKey.entries.length = stop - start - cache.limit := by omega
  rw [shift]
  congr 1
  · omega
  · omega

theorem rememberReceived_each {sender : NackSender} (bounded : Bounded sender) {seqnum : Nat}
    (word : seqnum < 2 ^ 64) : rememberReceived sender seqnum = rememberEach sender seqnum := by
  unfold rememberReceived rememberEach
  cases largest : sender.maxReceived with
  | none => rfl
  | some maxReceived =>
    cases order : compare seqnum maxReceived with
    | eq => simp only [order]
    | lt => simp only [order]
    | gt =>
      have greater : maxReceived < seqnum := compare_gt_iff_gt.mp order
      have next : saturatingAdd maxReceived 1 = maxReceived + 1 := by
        unfold saturatingAdd
        omega
      have above := bounded.entries_below largest
      simp only [order, next]
      split
      · rename_i exceeds
        have limit := bounded.sameLimit
        rw [← limit] at exceeds
        rw [← insertMissing_last above exceeds, limit]
      · rfl

/-- What the sender does with a number that comes in. -/
theorem rememberEach_cases (sender : NackSender) (seqnum : Nat) :
    (sender.maxReceived = none ∧
      rememberEach sender seqnum = { sender with maxReceived := some seqnum }) ∨
    ∃ maxReceived, sender.maxReceived = some maxReceived ∧
      ((seqnum = maxReceived ∧ rememberEach sender seqnum = sender) ∨
        (seqnum < maxReceived ∧ rememberEach sender seqnum =
          { sender with sentBySeqnum := sender.sentBySeqnum.remove seqnum }) ∨
        (maxReceived < seqnum ∧ rememberEach sender seqnum =
          { sender with
            sentBySeqnum := insertMissing sender.sentBySeqnum (maxReceived + 1) seqnum
            maxReceived := some seqnum })) := by
  unfold rememberEach
  cases sender.maxReceived with
  | none => exact Or.inl ⟨rfl, rfl⟩
  | some maxReceived =>
    refine Or.inr ⟨maxReceived, rfl, ?_⟩
    cases order : compare seqnum maxReceived with
    | eq => exact Or.inl ⟨compare_eq_iff_eq.mp order, by simp only [order]⟩
    | lt => exact Or.inr (Or.inl ⟨compare_lt_iff_lt.mp order, by simp only [order]⟩)
    | gt => exact Or.inr (Or.inr ⟨compare_gt_iff_gt.mp order, by simp only [order]⟩)

/-- What is in the cache after a gap: old numbers and the missing ones, with no times. -/
theorem mem_insertMissing {cache : KeySortedCache Nat (Option (Nat × Nat))} {start stop key : Nat}
    {sent : Option (Nat × Nat)} (above : ∀ entry ∈ cache.valueByKey.entries, entry.1 < start)
    (member : (key, sent) ∈ (insertMissing cache start stop).valueByKey.entries) :
    (key, sent) ∈ cache.valueByKey.entries ∨ (start ≤ key ∧ key < stop ∧ sent = none) := by
  rw [insertMissing_entries stop above] at member
  rcases List.mem_append.mp (List.mem_of_mem_drop member) with old | new
  · exact Or.inl old
  · obtain ⟨own, inside, same⟩ := List.mem_map.mp new
    cases same
    rw [List.mem_range'_1] at inside
    exact Or.inr ⟨inside.1, by omega, rfl⟩

end Gaps

section Tracking

def seqnumOf : Event → Option Nat
  | .received seqnum => some seqnum.toNat
  | .sendNacks _ => none

theorem sendNacks_tracked {sender : NackSender} {now key : Nat}
    (member : key ∈ tracked (sendNacks sender now).1) : key ∈ tracked sender := by
  obtain ⟨sent, inside⟩ := (tracked_iff _ key).mp member
  obtain ⟨before, old, _⟩ := SortedMap.mem_retain.mp inside
  exact (tracked_iff _ key).mpr ⟨before, old⟩

/-- What the tracker knows of the numbers that have come in, in their order. -/
structure Tracks (sender : NackSender) (received : List Nat) : Prop extends Bounded sender where
  nothing : sender.maxReceived = none → received = []
  largest : ∀ maxReceived, sender.maxReceived = some maxReceived →
    maxReceived ∈ received ∧ ∀ other ∈ received, other ≤ maxReceived
  started : ∀ key ∈ tracked sender, ∃ first, received.head? = some first ∧ first < key
  missing : ∀ key ∈ tracked sender, key ∉ received

theorem tracks_new (limit : Nat) : Tracks (new limit) [] where
  sameLimit := rfl
  below key member := by cases member
  nothing _ := rfl
  largest maxReceived is := by cases is
  started key member := by cases member
  missing key member := by cases member

variable {sender : NackSender} {received : List Nat}

theorem tracks_first (tracks : Tracks sender received) (seqnum : Nat)
    (nothing : sender.maxReceived = none) :
    Tracks { sender with maxReceived := some seqnum } (received ++ [seqnum]) where
  sameLimit := tracks.sameLimit
  below key member := absurd member (tracks.none_tracked nothing)
  nothing none := by cases none
  largest maxReceived is := by
    cases is
    rw [tracks.nothing nothing]
    simp
  started key member := absurd member (tracks.none_tracked nothing)
  missing key member := absurd member (tracks.none_tracked nothing)

theorem head_append {first : Nat} (is : received.head? = some first) (seqnum : Nat) :
    (received ++ [seqnum]).head? = some first := by
  rw [List.head?_append, is]
  rfl

theorem tracks_old (tracks : Tracks sender received) {seqnum maxReceived : Nat}
    (is : sender.maxReceived = some maxReceived) (small : seqnum ≤ maxReceived)
    {cache : KeySortedCache Nat (Option (Nat × Nat))} (sameLimit : cache.limit = sender.limit)
    (kept : ∀ key ∈ cache.keys, key ∈ tracked sender ∧ key ≠ seqnum) :
    Tracks { sender with sentBySeqnum := cache } (received ++ [seqnum]) where
  sameLimit := sameLimit
  below key member := tracks.below key (kept key member).1
  nothing none := by
    rw [is] at none
    cases none
  largest own same := by
    obtain ⟨inside, most⟩ := tracks.largest own same
    rw [is] at same
    cases same
    refine ⟨List.mem_append_left _ inside, fun other member => ?_⟩
    rcases List.mem_append.mp member with old | new
    · exact most other old
    · rwa [List.mem_singleton.mp new]
  started key member := by
    obtain ⟨first, head, before⟩ := tracks.started key (kept key member).1
    exact ⟨first, head_append head seqnum, before⟩
  missing key member inside := by
    obtain ⟨old, different⟩ := kept key member
    rcases List.mem_append.mp inside with earlier | new
    · exact tracks.missing key old earlier
    · exact different (List.mem_singleton.mp new)

theorem tracked_gap (bounded : Bounded sender) {seqnum maxReceived : Nat}
    (is : sender.maxReceived = some maxReceived) {key : Nat}
    (member : key ∈ (insertMissing sender.sentBySeqnum (maxReceived + 1) seqnum).keys) :
    key ∈ tracked sender ∨ (maxReceived < key ∧ key < seqnum) := by
  obtain ⟨⟨_, sent⟩, stored, rfl⟩ := List.mem_map.mp member
  rcases mem_insertMissing (bounded.entries_below is) stored with old | ⟨start, stop, _⟩
  · exact Or.inl (List.mem_map_of_mem old)
  · exact Or.inr ⟨start, stop⟩

theorem tracks_gap (tracks : Tracks sender received) {seqnum maxReceived : Nat}
    (is : sender.maxReceived = some maxReceived) (greater : maxReceived < seqnum) :
    Tracks { sender with
      sentBySeqnum := insertMissing sender.sentBySeqnum (maxReceived + 1) seqnum
      maxReceived := some seqnum } (received ++ [seqnum]) := by
  obtain ⟨inside, most⟩ := tracks.largest maxReceived is
  constructor
  · constructor
    · rw [← tracks.sameLimit]
      exact insertMissing_limit _ _ _
    · intro key member
      refine ⟨seqnum, rfl, ?_⟩
      rcases tracked_gap tracks.toBounded is member with old | ⟨_, stop⟩
      · exact Nat.lt_trans (tracks.below_largest is old) greater
      · exact stop
  · intro none
    cases none
  · intro own same
    cases same
    refine ⟨List.mem_append_right _ List.mem_cons_self, fun other member => ?_⟩
    rcases List.mem_append.mp member with old | new
    · exact Nat.le_trans (most other old) (Nat.le_of_lt greater)
    · rw [List.mem_singleton.mp new]
  · intro key member
    rcases tracked_gap tracks.toBounded is member with old | ⟨start, _⟩
    · obtain ⟨first, head, before⟩ := tracks.started key old
      exact ⟨first, head_append head seqnum, before⟩
    · obtain ⟨first, rest, rfl⟩ := List.exists_cons_of_ne_nil (List.ne_nil_of_mem inside)
      exact ⟨first, rfl, Nat.lt_of_le_of_lt (most first List.mem_cons_self) start⟩
  · intro key member has
    rcases List.mem_append.mp has with earlier | new
    · rcases tracked_gap tracks.toBounded is member with old | ⟨start, _⟩
      · exact tracks.missing key old earlier
      · exact Nat.lt_irrefl _ (Nat.lt_of_lt_of_le start (most key earlier))
    · rw [List.mem_singleton.mp new] at member
      rcases tracked_gap tracks.toBounded is member with old | ⟨_, stop⟩
      · exact Nat.lt_asymm greater (tracks.below_largest is old)
      · exact Nat.lt_irrefl _ stop

theorem tracks_step (tracks : Tracks sender received) (event : Event) :
    (step sender event).1 = stepEach sender event ∧
      Tracks (stepEach sender event) (received ++ (seqnumOf event).toList) := by
  cases event with
  | sendNacks now =>
    refine ⟨rfl, ?_⟩
    show Tracks (sendNacks sender now).1 (received ++ [])
    rw [List.append_nil]
    exact
      { sameLimit := tracks.sameLimit
        below := fun key member => tracks.below key (sendNacks_tracked member)
        nothing := tracks.nothing
        largest := tracks.largest
        started := fun key member => tracks.started key (sendNacks_tracked member)
        missing := fun key member => tracks.missing key (sendNacks_tracked member) }
  | received seqnum =>
    refine ⟨rememberReceived_each tracks.toBounded seqnum.toNat_lt, ?_⟩
    show Tracks (rememberEach sender seqnum.toNat) (received ++ [seqnum.toNat])
    rcases rememberEach_cases sender seqnum.toNat with
      ⟨nothing, becomes⟩ | ⟨maxReceived, is, ⟨same, becomes⟩ | ⟨less, becomes⟩ | ⟨greater, becomes⟩⟩
    · rw [becomes]
      exact tracks_first tracks _ nothing
    · rw [becomes]
      refine tracks_old tracks is (Nat.le_of_eq same) tracks.sameLimit fun key member => ?_
      refine ⟨member, fun equal => ?_⟩
      rw [equal, same] at member
      exact tracks.missing maxReceived member (tracks.largest maxReceived is).1
    · rw [becomes]
      refine tracks_old tracks is (Nat.le_of_lt less) tracks.sameLimit fun key member => ?_
      obtain ⟨entry, stored, rfl⟩ := List.mem_map.mp member
      obtain ⟨old, different⟩ := SortedMap.mem_erase.mp stored
      exact ⟨List.mem_map_of_mem old, different⟩
    · rw [becomes]
      exact tracks_gap tracks is greater

theorem tracks_run (events : List Event) :
    ∀ {sender : NackSender} {received : List Nat}, Tracks sender received →
      run sender events = runEach sender events ∧
        Tracks (run sender events) (received ++ events.filterMap seqnumOf) := by
  induction events with
  | nil =>
    intro sender received tracks
    rw [List.filterMap_nil, List.append_nil]
    exact ⟨rfl, tracks⟩
  | cons event rest ih =>
    intro sender received tracks
    obtain ⟨same, after⟩ := tracks_step tracks event
    obtain ⟨equal, tracked⟩ := ih after
    have runs : run sender (event :: rest) = run (stepEach sender event) rest :=
      congrArg (run · rest) same
    rw [List.filterMap_eq_flatMap_toList] at tracked ⊢
    rw [runs, List.flatMap_cons, ← List.append_assoc]
    exact ⟨equal, tracked⟩

theorem limit_run (events : List Event) (sender : NackSender) :
    (run sender events).limit = sender.limit := by
  induction events generalizing sender with
  | nil => rfl
  | cons event rest ih =>
    refine (ih (step sender event).1).trans ?_
    cases event with
    | sendNacks now => rfl
    | received seqnum =>
      show (rememberReceived sender seqnum.toNat).limit = _
      unfold rememberReceived
      split
      · rfl
      · split
        · rfl
        · rfl
        · simp only
          split <;> rfl

/-- Every run of the tracker, whatever is asked for in between: what is tracked is missing, fits
    the limit, and is what is left of all missing numbers. -/
theorem tracking (limit : Nat) (events : List Event) :
    (∀ key ∈ tracked (run (new limit) events),
      (∃ first, (events.filterMap seqnumOf).head? = some first ∧ first < key) ∧
      (∃ largest ∈ events.filterMap seqnumOf,
        (∀ other ∈ events.filterMap seqnumOf, other ≤ largest) ∧ key < largest) ∧
      key ∉ events.filterMap seqnumOf) ∧
    (tracked (run (new limit) events)).Nodup ∧
    (tracked (run (new limit) events)).length ≤ limit ∧
    run (new limit) events = runEach (new limit) events := by
  obtain ⟨same, tracks⟩ := tracks_run events (tracks_new limit)
  rw [List.nil_append] at tracks
  have bounded := (run (new limit) events).sentBySeqnum.bounded
  rw [tracks.sameLimit, limit_run] at bounded
  refine ⟨fun key member => ⟨tracks.started key member, ?_, tracks.missing key member⟩,
    SortedMap.keys_nodup _, ?_, same⟩
  · obtain ⟨largest, is, below⟩ := tracks.below key member
    obtain ⟨inside, most⟩ := tracks.largest largest is
    exact ⟨largest, inside, most, below⟩
  · show (List.map Prod.fst _).length ≤ limit
    rwa [List.length_map]

example : tracked (run (new 2) [.received 3, .received 5, .received 9, .received 7]) = [8] := by
  decide

end Tracking

end NackSender
