import Nebula.Switchboard.Parking

/- Who may have a slot's key in hand. Between the reading and the deletion of a key
   others may take it or read it too; where they do not, a parked call goes to one
   retriever and a slot is freed by its own call only. -/
namespace ParkingSlots
open Interleaving Parking

/-- The slot that a retrieve has read and not deleted yet, with what it read. -/
def reading : Proc → Option (String × Parked)
  | .parkUuid _ slot _ parked => some (slot, parked)
  | .del _ slot _ parked => some (slot, parked)
  | _ => none

/-- The channel whose hangup has read the name of a slot and not deleted its key yet. -/
def ending : Proc → Option (String × String)
  | .hangupUuid channel slot => some (channel, slot)
  | .hangupDel channel slot => some (channel, slot)
  | _ => none

def beforeTake : Proc → Bool
  | .park _ _ => true
  | .parkPeer _ _ _ => true
  | .setnx _ _ => true
  | _ => false

/-- A call that park waits for once it has the slot returns an error. -/
def fails (shared : Shared) (choice : Choice) : Proc → Bool
  | .parkContext channel _ => (shared.contexts channel).isNone
  | .hmset _ _ => !choice.succeeds
  | .hold _ _ => !choice.succeeds
  | .setMediaMode _ _ => !choice.succeeds
  | .parkAgain channel _ => (shared.contexts channel).isNone
  | .toChannel _ _ _ to_channel => (shared.contexts to_channel).isNone
  | .proxyHangup _ _ => !choice.succeeds
  | .deleteChannelUser _ _ => !choice.succeeds
  | _ => false

/-- The call parked in the slot at that moment is the one that is retrieved or ended. -/
def Own (freed : Freed) : Prop :=
  match freed.cause with
  | .retrieve parked => parked = freed.parked
  | .hangup channel => channel = freed.parked.channel

/- Two calls that took a slot and were not freed from it are one; a call is in one slot;
   a parked call is handed out once; a slot is freed by its own call; and a park that
   failed does not have its slot. -/
structure Exclusive (world : World Shared Proc) : Prop where
  named : ∀ slot parked other, (slot, parked) ∈ world.shared.taken →
    (slot, other) ∈ world.shared.taken → (∀ freed ∈ world.shared.freed, freed.parked ≠ parked) →
      (∀ freed ∈ world.shared.freed, freed.parked ≠ other) → parked = other
  oneSlot : ∀ slot slot' parked parked', world.shared.slots slot = some parked →
    world.shared.slots slot' = some parked' → parked.channel = parked'.channel → slot = slot'
  handed : world.shared.handed.Nodup
  freed : ∀ freed ∈ world.shared.freed, Own freed
  failed : ∀ pid channel slot, world.procs pid = .parkFailed channel slot →
    world.shared.slots slot ≠ some ⟨pid, channel⟩

/- A slot is read when no other retrieve has it in hand, and taken when no retrieve and
   no hangup has, by a call that is in no slot; a hangup reads the name of a slot that
   is free or its own; and what park waits for succeeds once it has the slot. -/
structure InTurn (world : World Shared Proc) (action : Action Choice Empty) : Prop where
  reads : ∀ pid choice self slot new_channel, action = .proc pid choice →
    world.procs pid = .retrieve self slot new_channel →
      ∀ other parked, reading (world.procs other) ≠ some (slot, parked)
  takes : ∀ pid choice channel slot, action = .proc pid choice →
    world.procs pid = .setnx channel slot → world.shared.slots slot = none →
      (∀ other, (∀ parked, reading (world.procs other) ≠ some (slot, parked)) ∧
        ∀ own, ending (world.procs other) ≠ some (own, slot)) ∧
      ∀ slot' parked, world.shared.slots slot' = some parked → parked.channel ≠ channel
  ends : ∀ pid choice channel slot, action = .proc pid choice →
    world.procs pid = .hangupEndpoint channel →
      (world.shared.contexts channel).bind slotToFree = some slot →
        ∀ parked, world.shared.slots slot = some parked → parked.channel = channel
  succeeds : ∀ pid choice, action = .proc pid choice →
    fails world.shared choice (world.procs pid) = false

/-- What the keys and the books have to do with each other. -/
structure Books (shared : Shared) : Prop where
  named : ∀ slot parked, shared.slots slot = some parked → (slot, parked) ∈ shared.taken
  once : ∀ slot parked slot' parked', (slot, parked) ∈ shared.taken →
    (slot', parked') ∈ shared.taken → parked.id = parked'.id → slot = slot' ∧ parked = parked'
  oneSlot : ∀ slot slot' parked parked', shared.slots slot = some parked →
    shared.slots slot' = some parked' → parked.channel = parked'.channel → slot = slot'
  handed : shared.handed.Nodup
  wasTaken : ∀ parked ∈ shared.handed, ∃ slot, (slot, parked) ∈ shared.taken
  freed : ∀ freed ∈ shared.freed, Own freed
  kept : ∀ slot parked, (slot, parked) ∈ shared.taken →
    shared.slots slot = some parked ∨ ∃ freed ∈ shared.freed, freed.parked = parked

/-- What the calls know where they stand. -/
structure Places (shared : Shared) (procs : Nat → Proc) : Prop where
  fresh : ∀ pid, beforeTake (procs pid) = true → ∀ slot parked, (slot, parked) ∈ shared.taken →
    parked.id ≠ pid
  inHand : ∀ slot parked, parked ∈ shared.handed → shared.slots slot = some parked →
    ∃ pid, reading (procs pid) = some (slot, parked)
  reader : ∀ pid slot parked, reading (procs pid) = some (slot, parked) →
    ∀ other, shared.slots slot = some other → other = parked
  ender : ∀ pid channel slot, ending (procs pid) = some (channel, slot) →
    ∀ other, shared.slots slot = some other → other.channel = channel
  readers : ∀ pid other slot parked parked', reading (procs pid) = some (slot, parked) →
    reading (procs other) = some (slot, parked') → pid = other
  unfailed : ∀ pid channel slot, procs pid ≠ .parkFailed channel slot

structure Invariant (world : World Shared Proc) : Prop where
  books : Books world.shared
  places : Places world.shared world.procs

/-- A step that leaves the keys and the books alone. -/
structure SameSlots (shared after : Shared) : Prop where
  slots : after.slots = shared.slots
  taken : after.taken = shared.taken
  handed : after.handed = shared.handed
  freed : after.freed = shared.freed

/-- A move to a place where the same slots are in hand. -/
structure GoesOn (proc arrived : Proc) : Prop where
  reading : reading arrived = ParkingSlots.reading proc
  ending : ending arrived = ParkingSlots.ending proc
  beforeTake : beforeTake arrived = true → ParkingSlots.beforeTake proc = true
  unfailed : ∀ channel slot, arrived ≠ .parkFailed channel slot

/-- All a step can do, where what park waits for succeeds. -/
inductive Effect (pid : Nat) (shared : Shared) : Shared → Proc → Proc → Prop where
  | takes (channel slot : String) : shared.slots slot = none →
    Effect pid shared (shared.take slot ⟨pid, channel⟩) (.setnx channel slot)
      (.parkContext channel slot)
  | reads (self slot new_channel : String) (parked : Parked) : shared.slots slot = some parked →
    Effect pid shared { shared with handed := parked :: shared.handed }
      (.retrieve self slot new_channel) (.parkUuid self slot new_channel parked)
  | frees (self slot new_channel : String) (parked : Parked) :
    Effect pid shared (shared.delSlot slot (.retrieve parked)) (.del self slot new_channel parked)
      (.delDetails self slot new_channel parked)
  | names (channel slot : String) : (shared.contexts channel).bind slotToFree = some slot →
    Effect pid shared shared (.hangupEndpoint channel) (.hangupUuid channel slot)
  | ends (channel slot : String) :
    Effect pid shared (shared.delSlot slot (.hangup channel)) (.hangupDel channel slot)
      (.hangupDelDetails channel slot)
  | goesOn {after : Shared} {proc arrived : Proc} : SameSlots shared after → GoesOn proc arrived →
    Effect pid shared after proc arrived

theorem same_slots (shared : Shared) : SameSlots shared shared := ⟨rfl, rfl, rfl, rfl⟩

theorem step_effect {pid : Nat} {choice : Choice} {shared after : Shared} {proc arrived : Proc}
    (succeeds : fails shared choice proc = false)
    (stepped : step pid choice shared proc = some (after, arrived)) :
    Effect pid shared after proc arrived := by
  cases proc with
  | setnx channel slot =>
    simp only [step] at stepped
    split at stepped
    · cases stepped
      exact .goesOn (same_slots shared) ⟨rfl, rfl, nofun, nofun⟩
    · rename_i free
      cases stepped
      exact .takes channel slot free
  | retrieve self slot new_channel =>
    simp only [step] at stepped
    split at stepped
    · cases stepped
      exact .goesOn (same_slots shared) ⟨rfl, rfl, nofun, nofun⟩
    · rename_i parked there
      cases stepped
      exact .reads self slot new_channel parked there
  | del self slot new_channel parked =>
    cases stepped
    exact .frees self slot new_channel parked
  | hangupDel channel slot =>
    cases stepped
    exact .ends channel slot
  | hangupEndpoint channel =>
    cases named : (shared.contexts channel).bind slotToFree with
    | none =>
      simp only [step, named] at stepped
      cases stepped
      exact .goesOn (same_slots shared) ⟨rfl, rfl, nofun, nofun⟩
    | some slot =>
      simp only [step, named] at stepped
      cases stepped
      exact .names channel slot named
  | parkContext channel slot =>
    simp only [fails, Option.isNone_eq_false_iff, Option.isSome_iff_exists] at succeeds
    obtain ⟨context, there⟩ := succeeds
    simp only [step, there, found] at stepped
    cases stepped
    exact .goesOn (same_slots shared) ⟨rfl, rfl, nofun, nofun⟩
  | parkAgain channel slot =>
    simp only [fails, Option.isNone_eq_false_iff, Option.isSome_iff_exists] at succeeds
    obtain ⟨context, there⟩ := succeeds
    simp only [step, there, found, afterParkAgain] at stepped
    cases stepped
    refine .goesOn (same_slots shared) ?_
    split <;> exact ⟨rfl, rfl, nofun, nofun⟩
  | toChannel channel slot context to_channel =>
    simp only [fails, Option.isNone_eq_false_iff, Option.isSome_iff_exists] at succeeds
    obtain ⟨to_context, there⟩ := succeeds
    simp only [step, there, found] at stepped
    cases stepped
    exact .goesOn (same_slots shared) ⟨rfl, rfl, nofun, nofun⟩
  | parkPeer channel slot peer =>
    simp only [step, parkOn] at stepped
    cases stepped
    refine .goesOn (same_slots shared) ?_
    split <;> exact ⟨rfl, rfl, fun _ => rfl, nofun⟩
  | park channel slot =>
    cases stepped
    refine .goesOn (same_slots shared) ?_
    split <;> exact ⟨rfl, rfl, fun _ => rfl, nofun⟩
  | hmset channel slot =>
    simp only [fails, Bool.not_eq_false'] at succeeds
    simp only [step, attempt, succeeds, if_true] at stepped
    cases stepped
    exact .goesOn ⟨rfl, rfl, rfl, rfl⟩ ⟨rfl, rfl, nofun, nofun⟩
  | hold channel slot | setMediaMode channel slot | proxyHangup channel slot
  | deleteChannelUser channel slot =>
    simp only [fails, Bool.not_eq_false'] at succeeds
    simp only [step, attempt, succeeds, if_true] at stepped
    cases stepped
    exact .goesOn (same_slots shared) ⟨rfl, rfl, nofun, nofun⟩
  | parkedContext self slot new_channel parked =>
    cases stepped
    refine .goesOn (same_slots shared) ?_
    unfold found
    split <;> exact ⟨rfl, rfl, nofun, nofun⟩
  | unhold self slot new_channel parked context =>
    cases stepped
    refine .goesOn (same_slots shared) ?_
    unfold attempt
    split <;> exact ⟨rfl, rfl, nofun, nofun⟩
  | peerContext self slot new_channel parked context =>
    cases stepped
    refine .goesOn (same_slots shared) ?_
    split <;> exact ⟨rfl, rfl, nofun, nofun⟩
  | selfContext self slot new_channel parked context =>
    cases stepped
    refine .goesOn (same_slots shared) ?_
    unfold found
    split <;> exact ⟨rfl, rfl, nofun, nofun⟩
  | setParked self slot new_channel parked context =>
    cases stepped
    refine .goesOn ⟨rfl, rfl, rfl, rfl⟩ ?_
    unfold attempt
    split <;> exact ⟨rfl, rfl, nofun, nofun⟩
  | hangup channel =>
    cases stepped
    refine .goesOn (same_slots shared) ?_
    split <;> exact ⟨rfl, rfl, nofun, nofun⟩
  | parked channel slot | refused channel slot | parkFailed channel slot | notFound self slot
  | retrieved self slot | retrieveFailed self slot | ended channel | idle => cases stepped
  | _ =>
    cases stepped
    exact .goesOn ⟨rfl, rfl, rfl, rfl⟩ ⟨rfl, rfl, nofun, nofun⟩

theorem moved_cases (world : World Shared Proc) (pid : Nat) (after : Shared) (arrived : Proc)
    (other : Nat) : other = pid ∧ (world.moved pid after arrived).procs other = arrived ∨
      other ≠ pid ∧ (world.moved pid after arrived).procs other = world.procs other := by
  by_cases same : other = pid
  · subst same
    exact Or.inl ⟨rfl, moved_same _ _ _ _⟩
  · exact Or.inr ⟨same, moved_other _ _ _ same⟩

theorem books_same {shared after : Shared} (same : SameSlots shared after) (books : Books shared) :
    Books after := by
  obtain ⟨slots, taken, handed, freed⟩ := same
  constructor
  · rw [slots, taken]
    exact books.named
  · rw [taken]
    exact books.once
  · rw [slots]
    exact books.oneSlot
  · rw [handed]
    exact books.handed
  · rw [handed, taken]
    exact books.wasTaken
  · rw [freed]
    exact books.freed
  · rw [taken, slots, freed]
    exact books.kept

/-- What the others know is not disturbed by a call that goes on, wherever it stands. -/
theorem goes_on_keeps {world : World Shared Proc} {pid : Nat} {after : Shared} {arrived : Proc}
    (held : Invariant world) (same : SameSlots world.shared after)
    (goesOn : GoesOn (world.procs pid) arrived) : Invariant (world.moved pid after arrived) := by
  have reads : ∀ other, reading ((world.moved pid after arrived).procs other) =
      reading (world.procs other) := by
    intro other
    rcases moved_cases world pid after arrived other with ⟨rfl, here⟩ | ⟨_, there⟩
    · rw [here, goesOn.reading]
    · rw [there]
  have ends : ∀ other, ending ((world.moved pid after arrived).procs other) =
      ending (world.procs other) := by
    intro other
    rcases moved_cases world pid after arrived other with ⟨rfl, here⟩ | ⟨_, there⟩
    · rw [here, goesOn.ending]
    · rw [there]
  refine ⟨books_same same held.books, ?_, ?_, ?_, ?_, ?_, ?_⟩
  · intro other before slot parked taken
    rw [moved_shared, same.taken] at taken
    rcases moved_cases world pid after arrived other with ⟨rfl, here⟩ | ⟨_, there⟩
    · rw [here] at before
      exact held.places.fresh other (goesOn.beforeTake before) slot parked taken
    · rw [there] at before
      exact held.places.fresh other before slot parked taken
  · intro slot parked handed there
    rw [moved_shared, same.handed] at handed
    rw [moved_shared, same.slots] at there
    simp only [reads]
    exact held.places.inHand slot parked handed there
  · intro other slot parked has
    rw [reads] at has
    rw [moved_shared, same.slots]
    exact held.places.reader other slot parked has
  · intro other channel slot has
    rw [ends] at has
    rw [moved_shared, same.slots]
    exact held.places.ender other channel slot has
  · intro left right slot parked parked' has has'
    rw [reads] at has has'
    exact held.places.readers left right slot parked parked' has has'
  · intro other channel slot
    rcases moved_cases world pid after arrived other with ⟨rfl, here⟩ | ⟨_, there⟩
    · rw [here]
      exact goesOn.unfailed channel slot
    · rw [there]
      exact held.places.unfailed other channel slot

/-- A hangup has read the name of a slot that is free or its own. -/
theorem names_keeps {world : World Shared Proc} {pid : Nat} {channel slot : String}
    (held : Invariant world) (stands : world.procs pid = .hangupEndpoint channel)
    (own : ∀ parked, world.shared.slots slot = some parked → parked.channel = channel) :
    Invariant (world.moved pid world.shared (.hangupUuid channel slot)) := by
  have reads : ∀ other, reading ((world.moved pid world.shared (.hangupUuid channel slot)).procs
      other) = reading (world.procs other) := by
    intro other
    rcases moved_cases world pid world.shared (.hangupUuid channel slot) other with
      ⟨rfl, here⟩ | ⟨_, there⟩
    · rw [here, stands]
      rfl
    · rw [there]
  refine ⟨held.books, ?_, ?_, ?_, ?_, ?_, ?_⟩
  · intro other before
    rcases moved_cases world pid world.shared (.hangupUuid channel slot) other with
      ⟨rfl, here⟩ | ⟨_, there⟩
    · rw [here] at before
      cases before
    · rw [there] at before
      exact held.places.fresh other before
  · intro slot' parked handed there
    simp only [reads]
    exact held.places.inHand slot' parked handed there
  · intro other slot' parked has
    rw [reads] at has
    exact held.places.reader other slot' parked has
  · intro other channel' slot' has
    rcases moved_cases world pid world.shared (.hangupUuid channel slot) other with
      ⟨rfl, here⟩ | ⟨_, there⟩
    · rw [here] at has
      cases has
      exact own
    · rw [there] at has
      exact held.places.ender other channel' slot' has
  · intro left right slot' parked parked' has has'
    rw [reads] at has has'
    exact held.places.readers left right slot' parked parked' has has'
  · intro other channel' slot'
    rcases moved_cases world pid world.shared (.hangupUuid channel slot) other with
      ⟨rfl, here⟩ | ⟨_, there⟩
    · rw [here]
      exact nofun
    · rw [there]
      exact held.places.unfailed other channel' slot'

theorem slot_taken {shared : Shared} {slot slot' : String} {parked parked' : Parked}
    (there : (shared.take slot parked).slots slot' = some parked') :
    slot' = slot ∧ parked' = parked ∨ slot' ≠ slot ∧ shared.slots slot' = some parked' := by
  rw [take_slots] at there
  split at there
  · rename_i same
    cases there
    exact Or.inl ⟨same, rfl⟩
  · rename_i different
    exact Or.inr ⟨different, there⟩

theorem mem_taken {shared : Shared} {slot slot' : String} {parked parked' : Parked}
    (taken : (slot', parked') ∈ (shared.take slot parked).taken) :
    slot' = slot ∧ parked' = parked ∨ (slot', parked') ∈ shared.taken := by
  rcases List.mem_cons.mp taken with new | old
  · cases new
    exact Or.inl ⟨rfl, rfl⟩
  · exact Or.inr old

theorem take_books {shared : Shared} {slot : String} {parked : Parked} (books : Books shared)
    (free : shared.slots slot = none)
    (new : ∀ slot' parked', (slot', parked') ∈ shared.taken → parked'.id ≠ parked.id)
    (outside : ∀ slot' parked', shared.slots slot' = some parked' →
      parked'.channel ≠ parked.channel) : Books (shared.take slot parked) := by
  constructor
  · intro slot' parked' there
    rcases slot_taken there with ⟨rfl, rfl⟩ | ⟨_, before⟩
    · exact List.mem_cons_self
    · exact List.mem_cons_of_mem _ (books.named slot' parked' before)
  · intro left parkedLeft right parkedRight taken taken' sameId
    rcases mem_taken taken with ⟨rfl, rfl⟩ | old
    · rcases mem_taken taken' with ⟨rfl, rfl⟩ | old'
      · exact ⟨rfl, rfl⟩
      · exact absurd sameId.symm (new right parkedRight old')
    · rcases mem_taken taken' with ⟨rfl, rfl⟩ | old'
      · exact absurd sameId (new left parkedLeft old)
      · exact books.once left parkedLeft right parkedRight old old' sameId
  · intro left right parkedLeft parkedRight there there' sameChannel
    rcases slot_taken there with ⟨rfl, rfl⟩ | ⟨_, before⟩
    · rcases slot_taken there' with ⟨rfl, _⟩ | ⟨_, before'⟩
      · rfl
      · exact absurd sameChannel.symm (outside right parkedRight before')
    · rcases slot_taken there' with ⟨rfl, rfl⟩ | ⟨_, before'⟩
      · exact absurd sameChannel (outside left parkedLeft before)
      · exact books.oneSlot left right parkedLeft parkedRight before before' sameChannel
  · exact books.handed
  · intro parked' handed
    obtain ⟨slot', taken⟩ := books.wasTaken parked' handed
    exact ⟨slot', List.mem_cons_of_mem _ taken⟩
  · exact books.freed
  · intro slot' parked' taken
    rw [take_slots]
    rcases mem_taken taken with ⟨rfl, rfl⟩ | old
    · exact Or.inl (if_pos rfl)
    · rcases books.kept slot' parked' old with there | gone
      · left
        rw [if_neg]
        · exact there
        · intro same
          rw [same, free] at there
          cases there
      · exact Or.inr gone

/-- A slot that nobody has in hand is taken by a call that is in no slot. -/
theorem takes_keeps {world : World Shared Proc} {pid : Nat} {channel slot : String}
    (held : Invariant world) (stands : world.procs pid = .setnx channel slot)
    (free : world.shared.slots slot = none)
    (alone : ∀ other, (∀ parked, reading (world.procs other) ≠ some (slot, parked)) ∧
      ∀ own, ending (world.procs other) ≠ some (own, slot))
    (outside : ∀ slot' parked, world.shared.slots slot' = some parked → parked.channel ≠ channel) :
    Invariant (world.moved pid (world.shared.take slot ⟨pid, channel⟩) (.parkContext channel slot)) := by
  have new : ∀ slot' parked, (slot', parked) ∈ world.shared.taken → parked.id ≠ pid :=
    held.places.fresh pid (by rw [stands]; rfl)
  have goesOn : GoesOn (world.procs pid) (.parkContext channel slot) := by
    rw [stands]
    exact ⟨rfl, rfl, nofun, nofun⟩
  have before := goes_on_keeps held (same_slots world.shared) goesOn
  refine ⟨take_books held.books free new outside, ?_, ?_, ?_, ?_, before.places.readers,
    before.places.unfailed⟩
  · intro other isBefore slot' parked taken
    rcases mem_taken taken with ⟨rfl, rfl⟩ | old
    · intro same
      rw [← same] at isBefore
      simp [World.moved, ParkingSlots.beforeTake] at isBefore
    · exact before.places.fresh other isBefore slot' parked old
  · intro slot' parked handed there
    rcases slot_taken there with ⟨rfl, rfl⟩ | ⟨_, old⟩
    · obtain ⟨slot'', taken⟩ := held.books.wasTaken _ handed
      exact absurd rfl (new slot'' _ taken)
    · exact before.places.inHand slot' parked handed old
  · intro other slot' parked has other' there
    rcases slot_taken there with ⟨rfl, _⟩ | ⟨_, old⟩
    · rcases moved_cases world pid _ (.parkContext channel slot') other with ⟨_, here⟩ | ⟨_, stays⟩
      · rw [here] at has
        cases has
      · rw [stays] at has
        exact absurd has ((alone other).1 parked)
    · exact before.places.reader other slot' parked has other' old
  · intro other own slot' has other' there
    rcases slot_taken there with ⟨rfl, _⟩ | ⟨_, old⟩
    · rcases moved_cases world pid _ (.parkContext channel slot') other with ⟨_, here⟩ | ⟨_, stays⟩
      · rw [here] at has
        cases has
      · rw [stays] at has
        exact absurd has ((alone other).2 own)
    · exact before.places.ender other own slot' has other' old

/-- A slot that no other retrieve has in hand is read, and its call handed out. -/
theorem reads_keeps {world : World Shared Proc} {pid : Nat} {self slot new_channel : String}
    {parked : Parked} (held : Invariant world)
    (stands : world.procs pid = .retrieve self slot new_channel)
    (there : world.shared.slots slot = some parked)
    (alone : ∀ other parked', reading (world.procs other) ≠ some (slot, parked')) :
    Invariant (world.moved pid { world.shared with handed := parked :: world.shared.handed }
      (.parkUuid self slot new_channel parked)) := by
  have notHanded : parked ∉ world.shared.handed := by
    intro handed
    obtain ⟨other, has⟩ := held.places.inHand slot parked handed there
    exact alone other parked has
  have taken := held.books.named slot parked there
  have cases_ := moved_cases world pid { world.shared with
    handed := parked :: world.shared.handed } (.parkUuid self slot new_channel parked)
  refine ⟨⟨held.books.named, held.books.once, held.books.oneSlot,
    List.nodup_cons.mpr ⟨notHanded, held.books.handed⟩, ?_, held.books.freed, held.books.kept⟩,
    ?_, ?_, ?_, ?_, ?_, ?_⟩
  · intro parked' handed
    rcases List.mem_cons.mp handed with rfl | old
    · exact ⟨slot, taken⟩
    · exact held.books.wasTaken parked' old
  · intro other before
    rcases cases_ other with ⟨_, here⟩ | ⟨_, stays⟩
    · rw [here] at before
      cases before
    · rw [stays] at before
      exact held.places.fresh other before
  · intro slot' parked' handed there'
    rcases List.mem_cons.mp handed with rfl | old
    · -- The call is in no other slot than the one it was read from.
      obtain ⟨sameSlot, _⟩ :=
        held.books.once slot parked' slot' parked' taken (held.books.named _ _ there') rfl
      subst sameSlot
      exact ⟨pid, by rw [moved_same]; rfl⟩
    · obtain ⟨other, has⟩ := held.places.inHand slot' parked' old there'
      refine ⟨other, ?_⟩
      rcases cases_ other with ⟨same, _⟩ | ⟨_, stays⟩
      · rw [same, stands] at has
        cases has
      · rw [stays]
        exact has
  · intro other slot' parked' has other' there'
    rcases cases_ other with ⟨_, here⟩ | ⟨_, stays⟩
    · rw [here] at has
      cases has
      exact Option.some.inj (there'.symm.trans there)
    · rw [stays] at has
      exact held.places.reader other slot' parked' has other' there'
  · intro other own slot' has other' there'
    rcases cases_ other with ⟨_, here⟩ | ⟨_, stays⟩
    · rw [here] at has
      cases has
    · rw [stays] at has
      exact held.places.ender other own slot' has other' there'
  · intro left right slot' parkedLeft parkedRight has has'
    rcases cases_ left with ⟨isLeft, here⟩ | ⟨_, stays⟩
    · rcases cases_ right with ⟨isRight, _⟩ | ⟨_, stays'⟩
      · rw [isLeft, isRight]
      · rw [here] at has
        cases has
        rw [stays'] at has'
        exact absurd has' (alone right parkedRight)
    · rcases cases_ right with ⟨_, here'⟩ | ⟨_, stays'⟩
      · rw [here'] at has'
        cases has'
        rw [stays] at has
        exact absurd has (alone left parkedLeft)
      · rw [stays] at has
        rw [stays'] at has'
        exact held.places.readers left right slot' parkedLeft parkedRight has has'
  · intro other own slot'
    rcases cases_ other with ⟨_, here⟩ | ⟨_, stays⟩
    · rw [here]
      exact nofun
    · rw [stays]
      exact held.places.unfailed other own slot'

theorem del_books {shared : Shared} {slot : String} {cause : Cause} (books : Books shared)
    (own : ∀ parked, shared.slots slot = some parked → Own ⟨slot, parked, cause⟩) :
    Books (shared.delSlot slot cause) := by
  have left : ∀ slot' parked, (shared.delSlot slot cause).slots slot' = some parked →
      shared.slots slot' = some parked := by
    intro slot' parked there
    rw [del_slots] at there
    split at there
    · cases there
    · exact there
  constructor
  · intro slot' parked there
    rw [del_taken]
    exact books.named slot' parked (left _ _ there)
  · rw [del_taken]
    exact books.once
  · intro slot' slot'' parked parked' there there'
    exact books.oneSlot _ _ _ _ (left _ _ there) (left _ _ there')
  · rw [del_handed]
    exact books.handed
  · rw [del_handed, del_taken]
    exact books.wasTaken
  · intro freed noted
    rcases mem_del_freed.mp noted with old | ⟨parked, there, rfl⟩
    · exact books.freed freed old
    · exact own parked there
  · intro slot' parked taken
    rw [del_taken] at taken
    rcases books.kept slot' parked taken with there | ⟨freed, noted, same⟩
    · by_cases isSlot : slot' = slot
      · subst isSlot
        exact Or.inr ⟨_, mem_del_freed.mpr (Or.inr ⟨parked, there, rfl⟩), rfl⟩
      · left
        rw [del_slots, if_neg isSlot]
        exact there
    · exact Or.inr ⟨freed, mem_del_freed.mpr (Or.inl noted), same⟩

/-- A slot is freed by the call that has it in hand. -/
theorem del_keeps {world : World Shared Proc} {pid : Nat} {slot : String} {cause : Cause}
    {arrived : Proc} (held : Invariant world)
    (own : ∀ parked, world.shared.slots slot = some parked → Own ⟨slot, parked, cause⟩)
    (last : ∀ slot' parked, reading (world.procs pid) = some (slot', parked) → slot' = slot)
    (reads : reading arrived = none) (ends : ending arrived = none)
    (taken : beforeTake arrived = false) (unfailed : ∀ channel slot', arrived ≠ .parkFailed channel slot') :
    Invariant (world.moved pid (world.shared.delSlot slot cause) arrived) := by
  have left : ∀ slot' parked, (world.shared.delSlot slot cause).slots slot' = some parked →
      slot' ≠ slot ∧ world.shared.slots slot' = some parked := by
    intro slot' parked there
    rw [del_slots] at there
    split at there
    · cases there
    · rename_i different
      exact ⟨different, there⟩
  have cases_ := moved_cases world pid (world.shared.delSlot slot cause) arrived
  refine ⟨del_books held.books own, ?_, ?_, ?_, ?_, ?_, ?_⟩
  · intro other before slot' parked listed
    rw [moved_shared, del_taken] at listed
    rcases cases_ other with ⟨_, here⟩ | ⟨_, stays⟩
    · rw [here, taken] at before
      cases before
    · rw [stays] at before
      exact held.places.fresh other before slot' parked listed
  · intro slot' parked handed there
    rw [moved_shared, del_handed] at handed
    obtain ⟨different, before⟩ := left slot' parked there
    obtain ⟨other, has⟩ := held.places.inHand slot' parked handed before
    refine ⟨other, ?_⟩
    rcases cases_ other with ⟨same, _⟩ | ⟨_, stays⟩
    · rw [same] at has
      exact absurd (last slot' parked has) different
    · rw [stays]
      exact has
  · intro other slot' parked has other' there
    rcases cases_ other with ⟨_, here⟩ | ⟨_, stays⟩
    · rw [here, reads] at has
      cases has
    · rw [stays] at has
      exact held.places.reader other slot' parked has other' (left _ _ there).2
  · intro other channel slot' has other' there
    rcases cases_ other with ⟨_, here⟩ | ⟨_, stays⟩
    · rw [here, ends] at has
      cases has
    · rw [stays] at has
      exact held.places.ender other channel slot' has other' (left _ _ there).2
  · intro one other slot' parked parked' has has'
    rcases cases_ one with ⟨_, here⟩ | ⟨_, stays⟩
    · rw [here, reads] at has
      cases has
    · rcases cases_ other with ⟨_, here'⟩ | ⟨_, stays'⟩
      · rw [here', reads] at has'
        cases has'
      · rw [stays] at has
        rw [stays'] at has'
        exact held.places.readers one other slot' parked parked' has has'
  · intro other channel slot'
    rcases cases_ other with ⟨_, here⟩ | ⟨_, stays⟩
    · rw [here]
      exact unfailed channel slot'
    · rw [stays]
      exact held.places.unfailed other channel slot'

theorem step_keeps {world : World Shared Proc} {pid : Nat} {choice : Choice} {after : Shared}
    {arrived : Proc} (held : Invariant world) (allowed : InTurn world (.proc pid choice))
    (stepped : step pid choice world.shared (world.procs pid) = some (after, arrived)) :
    Invariant (world.moved pid after arrived) := by
  have effect := step_effect (allowed.succeeds pid choice rfl) stepped
  generalize stands : world.procs pid = proc at effect
  cases effect with
  | takes channel slot free =>
    obtain ⟨alone, outside⟩ := allowed.takes pid choice channel slot rfl stands free
    exact takes_keeps held stands free alone outside
  | reads self slot new_channel parked there =>
    exact reads_keeps held stands there (allowed.reads pid choice self slot new_channel rfl stands)
  | frees self slot new_channel parked =>
    have inHand : reading (world.procs pid) = some (slot, parked) := by rw [stands]; rfl
    refine del_keeps held ?_ ?_ rfl rfl rfl (by intro _ _ failed; cases failed)
    · intro other there
      exact (held.places.reader pid slot parked inHand other there).symm
    · intro slot' parked' has
      rw [inHand] at has
      cases has
      rfl
  | names channel slot named =>
    exact names_keeps held stands (allowed.ends pid choice channel slot rfl stands named)
  | ends channel slot =>
    have inHand : ending (world.procs pid) = some (channel, slot) := by rw [stands]; rfl
    refine del_keeps held ?_ ?_ rfl rfl rfl (by intro _ _ failed; cases failed)
    · intro other there
      exact (held.places.ender pid channel slot inHand other there).symm
    · intro slot' parked' has
      rw [stands] at has
      cases has
  | goesOn same goesOn =>
    rw [← stands] at goesOn
    exact goes_on_keeps held same goesOn

theorem fresh_invariant {first : World Shared Proc} (fresh : Fresh first) : Invariant first := by
  obtain ⟨free, ⟨noTaken, noHanded, noFreed⟩, begins⟩ := fresh
  have quiet : ∀ pid, reading (first.procs pid) = none ∧ ending (first.procs pid) = none ∧
      ∀ channel slot, first.procs pid ≠ .parkFailed channel slot := by
    intro pid
    have start := begins pid
    cases stands : first.procs pid with
    | park channel slot => exact ⟨rfl, rfl, nofun⟩
    | retrieve self slot new_channel => exact ⟨rfl, rfl, nofun⟩
    | hangup channel => exact ⟨rfl, rfl, nofun⟩
    | idle => exact ⟨rfl, rfl, nofun⟩
    | _ =>
      rw [stands] at start
      cases start
  constructor
  · constructor
    · simp [free]
    · simp [noTaken]
    · simp [free]
    · simp [noHanded]
    · simp [noHanded]
    · simp [noFreed]
    · simp [noTaken]
  · constructor
    · simp [noTaken]
    · simp [noHanded]
    · intro pid slot parked has
      rw [(quiet pid).1] at has
      cases has
    · intro pid channel slot has
      rw [(quiet pid).2.1] at has
      cases has
    · intro pid other slot parked parked' has
      rw [(quiet pid).1] at has
      cases has
    · exact fun pid => (quiet pid).2.2

theorem exclusive_of_invariant {world : World Shared Proc} (held : Invariant world) :
    Exclusive world := by
  refine ⟨?_, held.books.oneSlot, held.books.handed, held.books.freed, ?_⟩
  · intro slot parked other taken taken' unfreed unfreed'
    have there : ∀ call, (slot, call) ∈ world.shared.taken →
        (∀ freed ∈ world.shared.freed, freed.parked ≠ call) →
          world.shared.slots slot = some call := by
      intro call listed stays
      rcases held.books.kept slot call listed with there | ⟨freed, noted, same⟩
      · exact there
      · exact absurd same (stays freed noted)
    exact Option.some.inj ((there parked taken unfreed).symm.trans (there other taken' unfreed'))
  · intro pid channel slot failed
    exact absurd failed (held.places.unfailed pid channel slot)

/-- Parking is exclusive in every run in which the calls take their turn. -/
theorem parking_exclusive (first last : World Shared Proc) (fresh : Fresh first)
    (run : Run parking InTurn first last) : Exclusive last := by
  apply exclusive_of_invariant
  apply run_keeps Invariant (fresh_invariant fresh) _ run
  intro world action after held allowed acted
  rcases act_cases acted with ⟨pid, choice, shared, proc, rfl, stepped, rfl⟩ | ⟨event, _⟩
  · exact step_keeps held allowed stepped
  · exact nomatch event

/-- The condition, looked at for the processes below a bound and the slots that were taken. -/
def turn (bound : Nat) (world : World Shared Proc) : Action Choice Empty → Bool
  | .outside event => nomatch event
  | .proc pid choice => decide (pid < bound) && !fails world.shared choice (world.procs pid) &&
    match world.procs pid with
    | .retrieve _ slot _ =>
      (List.range bound).all fun other => (reading (world.procs other)).all (·.1 != slot)
    | .setnx channel slot =>
      (List.range bound).all (fun other => (reading (world.procs other)).all (·.1 != slot) &&
        (ending (world.procs other)).all (·.2 != slot)) &&
      world.shared.taken.all fun entry =>
        world.shared.slots entry.1 != some entry.2 || entry.2.channel != channel
    | .hangupEndpoint channel =>
      ((world.shared.contexts channel).bind slotToFree).all fun slot =>
        (world.shared.slots slot).all (·.channel == channel)
    | _ => true

/-- Processes from the bound on have nothing to do. -/
structure Inside (bound : Nat) (world : World Shared Proc) : Prop where
  held : Invariant world
  silent : ∀ pid, bound ≤ pid → world.procs pid = .idle

theorem turn_below (bound : Nat) (world : World Shared Proc) (pid : Nat) (choice : Choice)
    (passed : turn bound world (.proc pid choice) = true) : pid < bound := by
  simp only [turn, Bool.and_eq_true, decide_eq_true_eq] at passed
  exact passed.1.1

theorem turn_sound (bound : Nat) (world : World Shared Proc) (action : Action Choice Empty)
    (inside : Inside bound world) (passed : turn bound world action = true) :
    InTurn world action := by
  have near : ∀ other, reading (world.procs other) ≠ none ∨ ending (world.procs other) ≠ none →
      other < bound := by
    intro other busy
    by_contra far
    rw [inside.silent other (Nat.le_of_not_lt far)] at busy
    simp [reading, ending] at busy
  constructor
  · intro pid choice self slot new_channel isProc stands other parked has
    subst isProc
    simp only [turn, stands, Bool.and_eq_true, List.all_eq_true, List.mem_range] at passed
    have apart := passed.2 other (near other (by rw [has]; simp))
    rw [has] at apart
    simp at apart
  · intro pid choice channel slot isProc stands _
    subst isProc
    simp only [turn, stands, Bool.and_eq_true, List.all_eq_true, List.mem_range] at passed
    refine ⟨fun other => ⟨?_, ?_⟩, ?_⟩
    · intro parked has
      have apart := (passed.2.1 other (near other (by rw [has]; simp))).1
      rw [has] at apart
      simp at apart
    · intro own has
      have apart := (passed.2.1 other (near other (by rw [has]; simp))).2
      rw [has] at apart
      simp at apart
    · intro slot' parked there same
      have listed := passed.2.2 _ (inside.held.books.named slot' parked there)
      simp [there, same] at listed
  · intro pid choice channel slot isProc stands named parked there
    subst isProc
    simp only [turn, stands, named, Bool.and_eq_true, Option.all_some] at passed
    simpa [there] using passed.2
  · intro pid choice isProc
    subst isProc
    simp only [turn, Bool.and_eq_true, Bool.not_eq_true'] at passed
    exact passed.1.2

theorem turn_stays (bound : Nat) (world : World Shared Proc) (action : Action Choice Empty)
    (after : World Shared Proc) (inside : Inside bound world)
    (passed : turn bound world action = true) (acted : act parking world action = some after) :
    Inside bound after := by
  have allowed := turn_sound bound world action inside passed
  refine ⟨?_, silent_from (fun proc => proc = .idle) (turn_below bound) inside.silent passed acted⟩
  rcases act_cases acted with ⟨pid, choice, shared, proc, rfl, stepped, rfl⟩ | ⟨event, _⟩
  · exact step_keeps inside.held allowed stepped
  · exact nomatch event

/-- A call of a sip user without marks of any kind. -/
def plain : CallContexts.CallContext where
  endpoint := .User ⟨"u1", "t1", none, none⟩
  proxy_host := "10.0.0.1"
  «to» := "200"
  answer_caller_id := none
  call_queue_id := none
  call_queue_name := none
  call_flow_moh := none
  intra_peer := none
  redirect_peer := none
  refer := none
  transfer := none
  cdr := none
  answred_at := none
  forward := false
  backup := none
  recording := none
  callback := none
  callback_peer := none

def start (calls : List Proc) : World Shared Proc where
  shared := ⟨fun _ => none, fun _ => none, fun _ => some plain, [], [], [], []⟩
  procs := fun pid => calls.getD pid .idle

theorem start_fresh (calls : List Proc) (fresh : ∀ call ∈ calls, begins call = true) :
    Fresh (start calls) := by
  refine ⟨fun _ => rfl, ⟨rfl, rfl, rfl⟩, ?_⟩
  intro pid
  simp only [start, List.getD_eq_getElem?_getD]
  cases listed : calls[pid]? with
  | none => rfl
  | some call => exact fresh call (List.mem_of_getElem? listed)

def moves (turns : List (Nat × Nat)) : List (Action Choice Empty) :=
  turns.flatMap fun turn => List.replicate turn.2 (.proc turn.1 {})

/-- A call is parked and retrieved, another one parked in the slot and its caller hangs up. -/
def useSlot : List Proc :=
  [.park "b" "1", .retrieve "c" "1" "n", .park "d" "1", .hangup "d"]

theorem parking_exclusive_in_turn : ∃ last : World Shared Proc,
    runWhere parking (turn 4) (start useSlot) (moves [(0, 10), (1, 9), (2, 10), (3, 6)]) = some last ∧
    last.procs 0 = .parked "b" "1" ∧ last.procs 1 = .retrieved "c" "1" ∧
    last.procs 3 = .ended "d" ∧ last.shared.slots "1" = none ∧ Exclusive last := by
  have ran : ∃ last : World Shared Proc,
      runWhere parking (turn 4) (start useSlot) (moves [(0, 10), (1, 9), (2, 10), (3, 6)]) =
        some last ∧
      last.procs 0 = .parked "b" "1" ∧ last.procs 1 = .retrieved "c" "1" ∧
      last.procs 3 = .ended "d" ∧ last.shared.slots "1" = none := ⟨_, rfl, rfl, rfl, rfl, rfl⟩
  obtain ⟨last, ran, parked, retrieved, ended, free⟩ := ran
  have fresh := start_fresh useSlot (by decide)
  refine ⟨last, ran, parked, retrieved, ended, free, parking_exclusive (start useSlot) last fresh ?_⟩
  apply run_of_runWhere_within (Inside 4) (turn_sound 4) (turn_stays 4) _ _ ran
  refine ⟨fresh_invariant fresh, ?_⟩
  intro pid far
  match pid with
  | _ + 4 => rfl

/-- Two retrieves read the key before either deletes it. -/
def twoRetrievers : List Proc :=
  [.park "b" "1", .retrieve "c" "1" "n", .retrieve "e" "1" "m"]

/-- A call is parked, retrieved and hung up, while another one is parked in the slot. -/
def lateHangup : List Proc :=
  [.park "b" "1", .retrieve "c" "1" "n", .park "d" "1", .hangup "b"]

/-- The hold of the parked call fails. -/
def holdFails : List (Action Choice Empty) :=
  moves [(0, 4)] ++ [.proc 0 { succeeds := false }]

theorem parking_not_exclusive :
    (¬ ∀ first last : World Shared Proc, Fresh first → Run parking (fun _ _ => True) first last →
      last.shared.handed.Nodup) ∧
    (¬ ∀ first last : World Shared Proc, Fresh first → Run parking (fun _ _ => True) first last →
      ∀ freed ∈ last.shared.freed, Own freed) ∧
    ¬ ∀ first last : World Shared Proc, Fresh first → Run parking (fun _ _ => True) first last →
      ∀ pid channel slot, last.procs pid = .parkFailed channel slot →
        last.shared.slots slot ≠ some ⟨pid, channel⟩ := by
  refine ⟨?_, ?_, ?_⟩
  · intro always
    have ran : ∃ last : World Shared Proc,
        runAll parking (start twoRetrievers) (moves [(0, 10), (1, 1), (2, 1)]) = some last ∧
        last.shared.handed = [⟨0, "b"⟩, ⟨0, "b"⟩] := ⟨_, rfl, rfl⟩
    obtain ⟨last, ran, handed⟩ := ran
    have once := always _ last (start_fresh twoRetrievers (by decide)) (run_of_runAll _ ran)
    rw [handed] at once
    revert once
    decide
  · intro always
    have ran : ∃ last : World Shared Proc,
        runAll parking (start lateHangup) (moves [(0, 10), (1, 9), (2, 10), (3, 5)]) = some last ∧
        last.shared.freed = [⟨"1", ⟨2, "d"⟩, .hangup "b"⟩, ⟨"1", ⟨0, "b"⟩, .retrieve ⟨0, "b"⟩⟩] :=
      ⟨_, rfl, rfl⟩
    obtain ⟨last, ran, freed⟩ := ran
    have own := always _ last (start_fresh lateHangup (by decide)) (run_of_runAll _ ran)
      ⟨"1", ⟨2, "d"⟩, .hangup "b"⟩ (by rw [freed]; exact List.mem_cons_self)
    simp [Own] at own
  · intro always
    have ran : ∃ last : World Shared Proc,
        runAll parking (start [.park "b" "1"]) holdFails = some last ∧
        last.procs 0 = .parkFailed "b" "1" ∧ last.shared.slots "1" = some ⟨0, "b"⟩ :=
      ⟨_, rfl, rfl, rfl⟩
    obtain ⟨last, ran, failed, there⟩ := ran
    exact always _ last (start_fresh _ (by decide)) (run_of_runAll _ ran) 0 "b" "1" failed there

end ParkingSlots
