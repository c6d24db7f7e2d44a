import Nebula.Media.VideoAllocation

/- What a new allocation changes: which sources are told, and the tables by which the receiver
   of the stream finds the sources of its pictures. -/
namespace VideoAllocation

section Model

structure AllocatedVideoSsrc (Uuid : Type) where
  uuid : Uuid
  ssrc : Nat
  rid : String
  deriving DecidableEq

variable {Uuid : Type} [DecidableEq Uuid]

/-- The SSRC of a source towards the receiver is the first field of its identifier. -/
def allocatedSsrc (timeLow : Uuid → UInt32) (entry : Uuid × AllocatedVideo Uuid) :
    UInt32 × AllocatedVideoSsrc Uuid :=
  (timeLow entry.1, ⟨entry.1, entry.2.ssrc, entry.2.rid⟩)

def collect (entries : List (UInt32 × AllocatedVideoSsrc Uuid)) :
    IndexMap UInt32 (AllocatedVideoSsrc Uuid) :=
  entries.foldl (fun partly entry => partly.insert entry.1 entry.2) IndexMap.empty

def allocatedSsrcsOf (timeLow : Uuid → UInt32) (videos : IndexMap Uuid (AllocatedVideo Uuid)) :
    IndexMap UInt32 (AllocatedVideoSsrc Uuid) :=
  collect (videos.entries.map (allocatedSsrc timeLow))

/-- What a receiver of video holds of its allocations, with its reports to the switchboard
    so far. No other function writes the two tables. -/
structure Receiver (timeLow : Uuid → UInt32) where
  channel : String
  room : String
  allocatedVideos : IndexMap Uuid (AllocatedVideo Uuid)
  allocatedSsrcs : IndexMap UInt32 (AllocatedVideoSsrc Uuid)
  reports : List (String × String × IndexMap Uuid (AllocatedVideo Uuid))
  agree : allocatedSsrcs = allocatedSsrcsOf timeLow allocatedVideos

variable {timeLow : Uuid → UInt32}

def Receiver.new (channel room : String) : Receiver timeLow :=
  ⟨channel, room, IndexMap.empty, IndexMap.empty, [], rfl⟩

def Receiver.updateAllocatedVideos (receiver : Receiver timeLow)
    (allocatedVideos : IndexMap Uuid (AllocatedVideo Uuid)) : Receiver timeLow where
  channel := receiver.channel
  room := receiver.room
  allocatedVideos := allocatedVideos
  allocatedSsrcs := allocatedSsrcsOf timeLow allocatedVideos
  reports :=
    if receiver.channel ≠ "" ∧ receiver.room ≠ ""
    then receiver.reports ++ [(receiver.channel, receiver.room, allocatedVideos)]
    else receiver.reports
  agree := rfl

/-- Where a picture loss indication of a room goes: the source and the SSRC it has there. -/
def Receiver.pictureLossRoute (receiver : Receiver timeLow) (mediaSsrc : UInt32) :
    Option (Uuid × Nat) :=
  (receiver.allocatedSsrcs.entries.lookup mediaSsrc).map fun held => (held.uuid, held.ssrc)

/-- The messages update_video_destination_layer so far, each to a source with its layer. -/
structure Diff (Uuid : Type) where
  allocationChanged : Bool
  messages : List (Uuid × Option String)
  marked : allocationChanged = true ↔ messages ≠ []

def Diff.start : Diff Uuid := ⟨false, [], by simp⟩

def Diff.send (diff : Diff Uuid) (message : Uuid × Option String) : Diff Uuid :=
  ⟨true, diff.messages ++ [message], by simp⟩

/-- A turn of the first loop, over the allocation the receiver has. -/
def compareCurrent (newAllocated : IndexMap Uuid (AllocatedVideo Uuid)) (diff : Diff Uuid)
    (entry : Uuid × AllocatedVideo Uuid) : Diff Uuid :=
  match newAllocated.entries.lookup entry.1 with
  | some new => if new.rid ≠ entry.2.rid then diff.send (entry.1, some new.rid) else diff
  | none => diff.send (entry.1, none)

/-- A turn of the second loop, over the new allocation. -/
def compareNew (allocated : IndexMap Uuid (AllocatedVideo Uuid)) (diff : Diff Uuid)
    (entry : Uuid × AllocatedVideo Uuid) : Diff Uuid :=
  if entry.1 ∈ allocated.entries.map Prod.fst then diff
  else diff.send (entry.1, some entry.2.rid)

def allocateLayers (allocated newAllocated : IndexMap Uuid (AllocatedVideo Uuid)) : Diff Uuid :=
  newAllocated.entries.foldl (compareNew allocated)
    (allocated.entries.foldl (compareCurrent newAllocated) Diff.start)

/-- The receiver once it has taken the update, if one was sent to it. -/
def Receiver.reallocate (receiver : Receiver timeLow)
    (newAllocated : IndexMap Uuid (AllocatedVideo Uuid)) : Receiver timeLow :=
  if (allocateLayers receiver.allocatedVideos newAllocated).allocationChanged
  then receiver.updateAllocatedVideos newAllocated else receiver

end Model

section Specification
variable {Uuid : Type} [DecidableEq Uuid] {timeLow : Uuid → UInt32}

def ridOf (allocated : IndexMap Uuid (AllocatedVideo Uuid)) (src : Uuid) : Option String :=
  (allocated.entries.lookup src).map AllocatedVideo.rid

def ssrcOf (allocated : IndexMap Uuid (AllocatedVideo Uuid)) (src : Uuid) : Option Nat :=
  (allocated.entries.lookup src).map AllocatedVideo.ssrc

/-- Both tables of a receiver show an allocation: the same sources, layers and SSRCs. -/
structure Shows (receiver : Receiver timeLow)
    (newAllocated : IndexMap Uuid (AllocatedVideo Uuid)) : Prop where
  rids : ∀ src, ridOf receiver.allocatedVideos src = ridOf newAllocated src
  ssrcs : ∀ src, ssrcOf receiver.allocatedVideos src = ssrcOf newAllocated src
  routes : ∀ entry, entry ∈ receiver.allocatedSsrcs.entries ↔
    entry ∈ newAllocated.entries.map (allocatedSsrc timeLow)

/-- Those whose layer differs, an absent one included, are told of it, each once. -/
structure Tells (messages : List (Uuid × Option String))
    (allocated newAllocated : IndexMap Uuid (AllocatedVideo Uuid)) : Prop where
  exactly : ∀ src rid, (src, rid) ∈ messages ↔
    ridOf allocated src ≠ ridOf newAllocated src ∧ rid = ridOf newAllocated src
  once : (messages.map Prod.fst).Nodup

/-- No two sources have the first field of their identifiers in common. -/
def DistinctFields (timeLow : Uuid → UInt32)
    (allocated : IndexMap Uuid (AllocatedVideo Uuid)) : Prop :=
  ((allocated.entries.map Prod.fst).map timeLow).Nodup

end Specification

section Loops
variable {Uuid : Type}

def Diff.note (diff : Diff Uuid) : Option (Uuid × Option String) → Diff Uuid
  | none => diff
  | some message => diff.send message

/-- A loop whose turns send what a function has for their entries. -/
theorem messages_foldl {Entry : Type} {turn : Diff Uuid → Entry → Diff Uuid}
    {message : Entry → Option (Uuid × Option String)}
    (notes : ∀ diff entry, turn diff entry = diff.note (message entry)) (entries : List Entry)
    (diff : Diff Uuid) :
    (entries.foldl turn diff).messages = diff.messages ++ entries.filterMap message := by
  induction entries generalizing diff with
  | nil => simp
  | cons entry rest ih =>
    rw [List.foldl_cons, ih, notes, List.filterMap_cons]
    cases message entry with
    | none => rfl
    | some sent => simp [Diff.note, Diff.send]

/-- A loop tells no source twice, as a map holds each of them once. -/
theorem told_sublist {message : Uuid × AllocatedVideo Uuid → Option (Uuid × Option String)}
    (own : ∀ entry sent, message entry = some sent → sent.1 = entry.1)
    (entries : List (Uuid × AllocatedVideo Uuid)) :
    ((entries.filterMap message).map Prod.fst).Sublist (entries.map Prod.fst) := by
  induction entries with
  | nil => exact List.Sublist.slnil
  | cons entry rest ih =>
    rw [List.filterMap_cons, List.map_cons]
    cases noted : message entry with
    | none => exact ih.cons _
    | some sent =>
      simp only [List.map_cons]
      rw [own entry sent noted]
      exact ih.cons_cons _

theorem keys_allocatedSsrc (timeLow : Uuid → UInt32)
    (entries : List (Uuid × AllocatedVideo Uuid)) :
    (entries.map (allocatedSsrc timeLow)).map Prod.fst = (entries.map Prod.fst).map timeLow := by
  rw [List.map_map, List.map_map]
  rfl

end Loops

section Messages
variable {Uuid : Type} [DecidableEq Uuid]
variable (allocated newAllocated : IndexMap Uuid (AllocatedVideo Uuid))

def currentMessage (entry : Uuid × AllocatedVideo Uuid) : Option (Uuid × Option String) :=
  if ridOf newAllocated entry.1 = some entry.2.rid then none
  else some (entry.1, ridOf newAllocated entry.1)

def newMessage (entry : Uuid × AllocatedVideo Uuid) : Option (Uuid × Option String) :=
  if entry.1 ∈ allocated.entries.map Prod.fst then none else some (entry.1, some entry.2.rid)

section Rids
variable {allocated} {src : Uuid}

theorem ridOf_of_mem {video : AllocatedVideo Uuid} (member : (src, video) ∈ allocated.entries) :
    ridOf allocated src = some video.rid := by
  unfold ridOf
  rw [(IndexMap.mem_iff_lookup allocated src video).mp member]
  rfl

theorem ridOf_none_iff : ridOf allocated src = none ↔ src ∉ allocated.entries.map Prod.fst := by
  unfold ridOf
  rw [Option.map_eq_none_iff, List.lookup_eq_none_iff]
  simp only [List.mem_map, bne_iff_ne]
  constructor
  · rintro absent ⟨entry, member, same⟩
    exact absent entry member same.symm
  · intro absent entry member same
    exact absent ⟨entry, member, same.symm⟩

end Rids

variable {newAllocated} in
theorem currentMessage_own {entry : Uuid × AllocatedVideo Uuid} {sent : Uuid × Option String}
    (noted : currentMessage newAllocated entry = some sent) : sent.1 = entry.1 := by
  unfold currentMessage at noted
  split at noted
  · cases noted
  · cases noted
    rfl

variable {allocated} in
theorem newMessage_own {entry : Uuid × AllocatedVideo Uuid} {sent : Uuid × Option String}
    (noted : newMessage allocated entry = some sent) : sent.1 = entry.1 := by
  unfold newMessage at noted
  split at noted
  · cases noted
  · cases noted
    rfl

theorem compareCurrent_note (diff : Diff Uuid) (entry : Uuid × AllocatedVideo Uuid) :
    compareCurrent newAllocated diff entry = diff.note (currentMessage newAllocated entry) := by
  unfold compareCurrent currentMessage ridOf
  cases newAllocated.entries.lookup entry.1 with
  | none => rfl
  | some new =>
    by_cases same : new.rid = entry.2.rid
    · simp [same, Diff.note]
    · simp [same, Diff.note]

theorem compareNew_note (diff : Diff Uuid) (entry : Uuid × AllocatedVideo Uuid) :
    compareNew allocated diff entry = diff.note (newMessage allocated entry) := by
  unfold compareNew newMessage
  split
  · rfl
  · rfl

theorem allocateLayers_messages :
    (allocateLayers allocated newAllocated).messages =
      allocated.entries.filterMap (currentMessage newAllocated) ++
        newAllocated.entries.filterMap (newMessage allocated) := by
  unfold allocateLayers
  rw [messages_foldl (compareNew_note allocated), messages_foldl (compareCurrent_note newAllocated)]
  rfl

variable {allocated newAllocated} {src : Uuid} {rid : Option String}

theorem mem_currentMessages :
    (src, rid) ∈ allocated.entries.filterMap (currentMessage newAllocated) ↔
      src ∈ allocated.entries.map Prod.fst ∧
        ridOf allocated src ≠ ridOf newAllocated src ∧ rid = ridOf newAllocated src := by
  rw [List.mem_filterMap]
  constructor
  · rintro ⟨⟨key, video⟩, member, noted⟩
    unfold currentMessage at noted
    split at noted
    · cases noted
    · rename_i differs
      cases noted
      refine ⟨List.mem_map_of_mem member, ?_, rfl⟩
      intro same
      exact differs (same.symm.trans (ridOf_of_mem member))
  · rintro ⟨known, differs, rfl⟩
    obtain ⟨⟨key, video⟩, member, rfl⟩ := List.mem_map.mp known
    refine ⟨(key, video), member, if_neg ?_⟩
    intro same
    exact differs ((ridOf_of_mem member).trans same.symm)

theorem mem_newMessages :
    (src, rid) ∈ newAllocated.entries.filterMap (newMessage allocated) ↔
      src ∉ allocated.entries.map Prod.fst ∧
        ridOf allocated src ≠ ridOf newAllocated src ∧ rid = ridOf newAllocated src := by
  rw [List.mem_filterMap]
  constructor
  · rintro ⟨⟨key, video⟩, member, noted⟩
    unfold newMessage at noted
    split at noted
    · cases noted
    · rename_i absent
      cases noted
      have found := ridOf_of_mem member
      rw [ridOf_none_iff.mpr absent, found]
      exact ⟨absent, nofun, rfl⟩
  · rintro ⟨absent, differs, rfl⟩
    rw [ridOf_none_iff.mpr absent] at differs
    cases held : newAllocated.entries.lookup src with
    | none => exact absurd (by simp [ridOf, held]) differs
    | some video =>
      refine ⟨(src, video), (IndexMap.mem_iff_lookup newAllocated src video).mpr held, ?_⟩
      unfold newMessage
      rw [if_neg absent]
      simp [ridOf, held]

theorem allocateLayers_tells :
    Tells (allocateLayers allocated newAllocated).messages allocated newAllocated := by
  rw [allocateLayers_messages]
  constructor
  · intro src rid
    rw [List.mem_append, mem_currentMessages, mem_newMessages, ← or_and_right]
    exact and_iff_right (Classical.em _)
  · rw [List.map_append]
    refine List.Nodup.append ?_ ?_ ?_
    · exact allocated.nodup.sublist (told_sublist (fun _ _ noted => currentMessage_own noted) _)
    · exact newAllocated.nodup.sublist (told_sublist (fun _ _ noted => newMessage_own noted) _)
    · intro src first second
      obtain ⟨⟨_, rid⟩, member, rfl⟩ := List.mem_map.mp first
      obtain ⟨⟨other, other_rid⟩, later, same⟩ := List.mem_map.mp second
      cases same
      exact (mem_newMessages.mp later).1 (mem_currentMessages.mp member).1

theorem changed_iff : (allocateLayers allocated newAllocated).allocationChanged = true ↔
    ∃ src, ridOf allocated src ≠ ridOf newAllocated src := by
  rw [Diff.marked]
  constructor
  · intro some_sent
    obtain ⟨⟨src, rid⟩, member⟩ := List.exists_mem_of_ne_nil _ some_sent
    exact ⟨src, ((allocateLayers_tells.exactly src rid).mp member).1⟩
  · rintro ⟨src, differs⟩
    have member := (allocateLayers_tells.exactly src _).mpr ⟨differs, rfl⟩
    exact List.ne_nil_of_mem member

end Messages

section Tables
variable {Uuid : Type} [DecidableEq Uuid] {timeLow : Uuid → UInt32}
variable {allocated newAllocated : IndexMap Uuid (AllocatedVideo Uuid)}

theorem mem_allocatedSsrc {key : UInt32} {held : AllocatedVideoSsrc Uuid} :
    (key, held) ∈ allocated.entries.map (allocatedSsrc timeLow) ↔
      timeLow held.uuid = key ∧ ridOf allocated held.uuid = some held.rid ∧
        ssrcOf allocated held.uuid = some held.ssrc := by
  obtain ⟨uuid, ssrc, rid⟩ := held
  simp only [List.mem_map, allocatedSsrc, ridOf, ssrcOf]
  constructor
  · rintro ⟨⟨src, video⟩, member, same⟩
    cases same
    rw [(IndexMap.mem_iff_lookup allocated src video).mp member]
    exact ⟨rfl, rfl, rfl⟩
  · rintro ⟨rfl, rid_held, ssrc_held⟩
    obtain ⟨video, found, rfl⟩ := Option.map_eq_some_iff.mp rid_held
    rw [found] at ssrc_held
    cases ssrc_held
    exact ⟨(uuid, video), (IndexMap.mem_iff_lookup allocated uuid video).mpr found, rfl⟩

theorem shows_own (receiver : Receiver timeLow)
    (distinct : DistinctFields timeLow receiver.allocatedVideos) :
    Shows receiver receiver.allocatedVideos := by
  refine ⟨fun src => rfl, fun src => rfl, fun entry => ?_⟩
  unfold DistinctFields at distinct
  rw [← keys_allocatedSsrc] at distinct
  have whole := congrArg IndexMap.entries (IndexMap.rebuild ⟨_, distinct⟩)
  rw [receiver.agree]
  unfold allocatedSsrcsOf collect
  rw [whole]

/-- An allocation is shown by its layers and SSRCs. -/
theorem Shows.congr {receiver : Receiver timeLow} (shows_old : Shows receiver allocated)
    (rids : ∀ src, ridOf allocated src = ridOf newAllocated src)
    (ssrcs : ∀ src, ssrcOf allocated src = ssrcOf newAllocated src) :
    Shows receiver newAllocated where
  rids src := (shows_old.rids src).trans (rids src)
  ssrcs src := (shows_old.ssrcs src).trans (ssrcs src)
  routes := by
    rintro ⟨key, held⟩
    rw [shows_old.routes, mem_allocatedSsrc, mem_allocatedSsrc, rids, ssrcs]

theorem DistinctFields.congr (rids : ∀ src, ridOf allocated src = ridOf newAllocated src)
    (distinct : DistinctFields timeLow newAllocated) : DistinctFields timeLow allocated := by
  have same : (allocated.entries.map Prod.fst).Perm (newAllocated.entries.map Prod.fst) := by
    refine (List.perm_ext_iff_of_nodup allocated.nodup newAllocated.nodup).mpr fun src => ?_
    rw [← not_iff_not, ← ridOf_none_iff, ← ridOf_none_iff, rids]
  exact (same.map timeLow).nodup_iff.mpr distinct

/-- A table has one source to a field, so it cannot show two that share theirs. -/
theorem Shows.distinct {receiver : Receiver timeLow} (shown : Shows receiver newAllocated) :
    DistinctFields timeLow newAllocated := by
  refine List.Nodup.map_on ?_ newAllocated.nodup
  intro first first_known second second_known shared
  obtain ⟨⟨_, video⟩, member, rfl⟩ := List.mem_map.mp first_known
  obtain ⟨⟨_, other⟩, later, rfl⟩ := List.mem_map.mp second_known
  have here := (shown.routes _).mpr (List.mem_map_of_mem (f := allocatedSsrc timeLow) member)
  have there := (shown.routes _).mpr (List.mem_map_of_mem (f := allocatedSsrc timeLow) later)
  have found := (IndexMap.mem_iff_lookup _ _ _).mp here
  have found_there := (IndexMap.mem_iff_lookup _ _ _).mp there
  rw [shared, found_there] at found
  simp only [Option.some.injEq, AllocatedVideoSsrc.mk.injEq] at found
  exact found.1.symm

theorem pictureLossRoute_of_shows {receiver : Receiver timeLow} {src : Uuid}
    {video : AllocatedVideo Uuid} (shown : Shows receiver newAllocated)
    (member : (src, video) ∈ newAllocated.entries) :
    receiver.pictureLossRoute (timeLow src) = some (src, video.ssrc) := by
  have held := (shown.routes _).mpr (List.mem_map.mpr ⟨(src, video), member, rfl⟩)
  unfold Receiver.pictureLossRoute
  rw [(IndexMap.mem_iff_lookup _ _ _).mp held]
  rfl

theorem reallocate_shows_iff (receiver : Receiver timeLow) :
    Shows (receiver.reallocate newAllocated) newAllocated ↔
      DistinctFields timeLow newAllocated ∧
        ((∃ src, ridOf receiver.allocatedVideos src ≠ ridOf newAllocated src) ∨
          ∀ src, ssrcOf receiver.allocatedVideos src = ssrcOf newAllocated src) := by
  unfold Receiver.reallocate
  by_cases differs : ∃ src, ridOf receiver.allocatedVideos src ≠ ridOf newAllocated src
  · rw [if_pos (changed_iff.mpr differs)]
    constructor
    · intro shown
      exact ⟨shown.distinct, Or.inl differs⟩
    · rintro ⟨distinct, -⟩
      exact shows_own (receiver.updateAllocatedVideos newAllocated) distinct
  · rw [if_neg fun changed => differs (changed_iff.mp changed)]
    have rids : ∀ src, ridOf receiver.allocatedVideos src = ridOf newAllocated src := by
      simpa using differs
    constructor
    · intro shown
      exact ⟨shown.distinct, Or.inr shown.ssrcs⟩
    · rintro ⟨distinct, changed | ssrcs⟩
      · exact absurd changed differs
      · exact (shows_own receiver (distinct.congr rids)).congr rids ssrcs

/-- After an allocation the sources are told of their layers, and the tables show it whenever
    its sources differ in the first field of their identifiers and, where no layer changed,
    no SSRC did either. -/
theorem reallocated_iff (receiver : Receiver timeLow)
    (newAllocated : IndexMap Uuid (AllocatedVideo Uuid)) :
    (Tells (allocateLayers receiver.allocatedVideos newAllocated).messages
        receiver.allocatedVideos newAllocated ∧
      Shows (receiver.reallocate newAllocated) newAllocated) ↔
      DistinctFields timeLow newAllocated ∧
        ((∃ src, ridOf receiver.allocatedVideos src ≠ ridOf newAllocated src) ∨
          ∀ src, ssrcOf receiver.allocatedVideos src = ssrcOf newAllocated src) := by
  rw [← reallocate_shows_iff]
  exact and_iff_right allocateLayers_tells

end Tables

section Republished

/-- The first field of an identifier is its first 32 bits. -/
def firstField (uuid : BitVec 128) : UInt32 := ⟨uuid.extractLsb' 96 32⟩

def published (ssrc : Nat) : IndexMap (BitVec 128) (AllocatedVideo (BitVec 128)) :=
  IndexMap.empty.insert 5 ⟨5, "h", ssrc, 900000, ⟨1280, 720⟩⟩

/-- The source publishes its layer again, under another SSRC. -/
theorem republished_ssrc_missed :
    ¬ ∀ (receiver : Receiver firstField)
      (newAllocated : IndexMap (BitVec 128) (AllocatedVideo (BitVec 128))),
      Tells (allocateLayers receiver.allocatedVideos newAllocated).messages
          receiver.allocatedVideos newAllocated ∧
        Shows (receiver.reallocate newAllocated) newAllocated := by
  intro always
  have held := (always (((Receiver.new "" "").reallocate (published 1000))) (published 2000)).2.ssrcs
  exact absurd (held 5) (by decide)

end Republished

end VideoAllocation
