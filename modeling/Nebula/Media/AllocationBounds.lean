import Nebula.Media.VideoAllocation
import Mathlib.Data.List.Nodup

/- What the rounds of an allocation keep: the sum of the rates, where each layer comes from,
   and that a source that reached its height gets no more. -/
namespace VideoAllocation

variable {Uuid : Type}

abbrev Sources (Uuid : Type) := List (Uuid × VideoSourceState)

section Rates

def layersRate (layers : List (Nat × IncomingVideoInfo)) : Nat :=
  (layers.map fun layer => layerRate layer.2).sum

def sourcesRate (sources : Sources Uuid) : Nat :=
  (sources.map fun source => layersRate source.2.layers).sum

def layersLeft (sources : Sources Uuid) : Nat :=
  (sources.map fun source => source.2.layers.length).sum

def allocatedRates (allocation : Allocation Uuid) : Nat :=
  (allocation.allocated.entries.map fun entry => entry.2.rate).sum

/-- A layer that can be allocated: it has a width and, but for screen shares, was updated in
    the last seconds. -/
def Eligible (clock : Nat → Nat) (isScreenShare : Bool) (updated : Nat)
    (layer : IncomingVideoInfo) : Prop :=
  layer.size.width ≠ 0 ∧ (isScreenShare = true ∨ ∃ reading, clock reading - updated ≤ 3)

/-- The source is done if the layer reaches the height that was requested, if one was. -/
def VideoSourceState.ended (state : VideoSourceState) (layer : IncomingVideoInfo) :
    VideoSourceState :=
  if 0 < state.requestedSize.height ∧ Reaches layer.size.height state.requestedSize.height
  then { state with layers := [] } else state

theorem sourcesRate_append (left right : Sources Uuid) :
    sourcesRate (left ++ right) = sourcesRate left + sourcesRate right := by
  unfold sourcesRate
  rw [List.map_append, List.sum_append]

theorem sourcesRate_cons (src : Uuid) (state : VideoSourceState) (rest : Sources Uuid) :
    sourcesRate ((src, state) :: rest) = layersRate state.layers + sourcesRate rest := rfl

theorem layersRate_suffix {some layers : List (Nat × IncomingVideoInfo)} (rest : some <:+ layers) :
    layersRate some ≤ layersRate layers := by
  obtain ⟨front, rfl⟩ := rest
  unfold layersRate
  rw [List.map_append, List.sum_append]
  exact Nat.le_add_left _ _

/-- An element after the one source is changed: the source as it is now, or another one. -/
theorem mem_changed {others rest : Sources Uuid} {src : Uuid} {state changed : VideoSourceState}
    (distinct : ((others ++ (src, state) :: rest).map Prod.fst).Nodup) {id : Uuid}
    {found : VideoSourceState} (member : (id, found) ∈ others ++ (src, changed) :: rest) :
    (id = src ∧ found = changed) ∨ (id ≠ src ∧ (id, found) ∈ others ++ (src, state) :: rest) := by
  rw [List.map_append, List.map_cons] at distinct
  have apart := List.nodup_middle.mp distinct
  rw [List.nodup_cons, List.mem_append, not_or] at apart
  rcases List.mem_append.mp member with before | later
  · refine Or.inr ⟨?_, List.mem_append_left _ before⟩
    rintro rfl
    have inside : (id, found).1 ∈ others.map Prod.fst := List.mem_map_of_mem before
    exact apart.1.1 inside
  · rcases List.mem_cons.mp later with same | after
    · exact Or.inl (Prod.mk.inj same)
    · refine Or.inr ⟨?_, List.mem_append_right _ (List.mem_cons_of_mem _ after)⟩
      rintro rfl
      have inside : (id, found).1 ∈ rest.map Prod.fst := List.mem_map_of_mem after
      exact apart.1.2 inside

theorem ended_suffix (state : VideoSourceState) (layer : IncomingVideoInfo) :
    (state.ended layer).layers <:+ state.layers ∧
      (state.ended layer).requestedSize = state.requestedSize ∧
        (state.ended layer).isScreenShare = state.isScreenShare := by
  unfold VideoSourceState.ended
  split
  · exact ⟨List.nil_suffix, rfl, rfl⟩
  · exact ⟨List.suffix_refl _, rfl, rfl⟩

end Rates

section Turns

variable [DecidableEq Uuid]

/-- The variables after an insertion. -/
def Allocation.put (allocation : Allocation Uuid) (src : Uuid) (layer : IncomingVideoInfo)
    (readings : Nat) : Allocation Uuid where
  allocated := allocation.allocated.insert src (videoOf src layer)
  totalAllocatedRate := allocation.totalAllocatedRate + layerRate layer - allocatedRate allocation src
  readings := readings
  inserted := (src, videoOf src layer) :: allocation.inserted

inductive Effect (clock : Nat → Nat) (availableRate : Nat) (src : Uuid) (state : VideoSourceState)
    (updated : Nat) (layer : IncomingVideoInfo) (allocation : Allocation Uuid) : Turn Uuid → Prop
  | skipped (readings : Nat) :
      Effect clock availableRate src state updated layer allocation
        (.goesOn state { allocation with readings })
  | full (total readings : Nat) (some : allocation.allocated.entries ≠ []) :
      Effect clock availableRate src state updated layer allocation
        (.returned { allocation with totalAllocatedRate := total, readings })
  | put (readings : Nat) (eligible : Eligible clock state.isScreenShare updated layer)
      (fits : (allocation.put src layer readings).totalAllocatedRate ≤ availableRate ∨
        allocation.allocated.entries = []) :
      Effect clock availableRate src state updated layer allocation
        (.goesOn (state.ended layer) (allocation.put src layer readings))

theorem allocate_effect {clock : Nat → Nat} {availableRate : Nat} {src : Uuid}
    {state : VideoSourceState} {updated : Nat} {layer : IncomingVideoInfo}
    {allocation : Allocation Uuid} (readings : Nat)
    (eligible : Eligible clock state.isScreenShare updated layer)
    (room : allocation.totalAllocatedRate + layerRate layer < 2 ^ 64)
    (counted : allocatedRate allocation src ≤ allocation.totalAllocatedRate) :
    Effect clock availableRate src state updated layer allocation
      (allocate availableRate src state layer { allocation with readings }) := by
  have same : allocatedRate { allocation with readings } src = allocatedRate allocation src := rfl
  unfold allocate
  simp only [same]
  rw [if_neg (by omega)]
  split
  · rename_i full
    exact .full _ readings full.2
  · rename_i fits
    have room : (allocation.put src layer readings).totalAllocatedRate ≤ availableRate ∨
        allocation.allocated.entries = [] := by
      unfold Allocation.put
      by_cases empty : allocation.allocated.entries = []
      · exact Or.inr empty
      · exact Or.inl (Nat.not_lt.mp fun above => fits ⟨above, empty⟩)
    have put : Effect clock availableRate src state updated layer allocation
        (.goesOn (state.ended layer) (allocation.put src layer readings)) :=
      .put readings eligible room
    unfold VideoSourceState.ended at put
    split
    · rename_i reached
      rw [if_pos reached] at put
      exact put
    · rename_i misses
      rw [if_neg misses] at put
      exact put

theorem turn_effect {clock : Nat → Nat} {availableRate : Nat} {src : Uuid}
    {state : VideoSourceState} {updated : Nat} {layer : IncomingVideoInfo}
    {allocation : Allocation Uuid}
    (room : allocation.totalAllocatedRate + layerRate layer < 2 ^ 64)
    (counted : allocatedRate allocation src ≤ allocation.totalAllocatedRate) :
    Effect clock availableRate src state updated layer allocation
      (turn clock availableRate src state updated layer allocation) := by
  unfold turn
  split
  · exact .skipped allocation.readings
  rename_i wide
  split
  · rename_i shared
    exact allocate_effect allocation.readings ⟨wide, Or.inl shared⟩ room counted
  · simp only
    split
    · exact .skipped (allocation.readings + 1)
    rename_i recent
    split
    · exact .skipped (allocation.readings + 1)
    · exact allocate_effect (allocation.readings + 1)
        ⟨wide, Or.inr ⟨allocation.readings, Nat.not_lt.mp recent⟩⟩ room counted

end Turns

section Invariants

variable {clock : Nat → Nat} {availableRate : Nat} {sources : Sources Uuid}

/-- The layer comes from the source it is allocated to, and was eligible. -/
def FromSource (clock : Nat → Nat) (sources : Sources Uuid)
    (entry : Uuid × AllocatedVideo Uuid) : Prop :=
  ∃ state, (entry.1, state) ∈ sources ∧ ∃ updated layer, (updated, layer) ∈ state.layers ∧
    Eligible clock state.isScreenShare updated layer ∧ entry.2 = videoOf entry.1 layer

/-- Nothing was inserted for a source above an inserted layer that reaches its height. -/
def NoneAbove (sources : Sources Uuid) (inserted : List (Uuid × AllocatedVideo Uuid)) : Prop :=
  ∀ src state, (src, state) ∈ sources → 0 < state.requestedSize.height →
    ∀ video, (src, video) ∈ inserted → Reaches video.size.height state.requestedSize.height →
      ∀ other, (src, other) ∈ inserted → other.size.height ≤ video.size.height

/-- Layers from the lowest to the highest. -/
def Ascending (layers : List (Nat × IncomingVideoInfo)) : Prop :=
  layers.Pairwise fun a b => a.2.size.height ≤ b.2.size.height

/-- What is left of a source: the rest of its layers, none below what was inserted for it,
    and nothing if that reaches the height that was requested. -/
structure Remains (first state : VideoSourceState) (videos : AllocatedVideo Uuid → Prop) : Prop where
  requested : state.requestedSize = first.requestedSize
  shared : state.isScreenShare = first.isScreenShare
  rest : state.layers <:+ first.layers
  above : ∀ video, videos video → ∀ layer ∈ state.layers, video.size.height ≤ layer.2.size.height
  done : ∀ video, videos video → 0 < first.requestedSize.height →
    Reaches video.size.height first.requestedSize.height → state.layers = []

/-- What holds of the variables and of the sources as they are between two turns. -/
structure Invariant (clock : Nat → Nat) (availableRate : Nat) (sources current : Sources Uuid)
    (allocation : Allocation Uuid) : Prop where
  ids : current.map Prod.fst = sources.map Prod.fst
  remains : ∀ src state, (src, state) ∈ current → ∃ first, (src, first) ∈ sources ∧
    Remains first state fun video => (src, video) ∈ allocation.inserted
  total : allocation.totalAllocatedRate = allocatedRates allocation
  room : allocation.totalAllocatedRate + sourcesRate current ≤ sourcesRate sources
  within : allocation.totalAllocatedRate ≤ availableRate ∨
    allocation.allocated.entries.length = 1
  members : ∀ entry ∈ allocation.allocated.entries, entry ∈ allocation.inserted
  own : ∀ entry ∈ allocation.inserted, FromSource clock sources entry
  smallest : NoneAbove sources allocation.inserted

/-- What the result of the loop is like. -/
structure Sound (clock : Nat → Nat) (availableRate : Nat) (sources : Sources Uuid)
    (allocation : Allocation Uuid) : Prop where
  within : allocatedRates allocation ≤ availableRate ∨ allocation.allocated.entries.length = 1
  members : ∀ entry ∈ allocation.allocated.entries, entry ∈ allocation.inserted
  own : ∀ entry ∈ allocation.inserted, FromSource clock sources entry
  smallest : NoneAbove sources allocation.inserted

theorem sound_of_invariant {current : Sources Uuid} {allocation : Allocation Uuid}
    (inv : Invariant clock availableRate sources current allocation) :
    Sound clock availableRate sources allocation :=
  ⟨by rw [← inv.total]; exact inv.within, inv.members, inv.own, inv.smallest⟩

theorem same_of_id {list : Sources Uuid} (distinct : (list.map Prod.fst).Nodup) {src : Uuid}
    {left right : VideoSourceState} (member : (src, left) ∈ list) (also : (src, right) ∈ list) :
    left = right :=
  (Prod.mk.inj (List.inj_on_of_nodup_map distinct member also rfl)).2

theorem invariant_start (clock : Nat → Nat) (availableRate : Nat) (sources : Sources Uuid) :
    Invariant clock availableRate sources sources start where
  ids := rfl
  remains src state member := ⟨state, member, rfl, rfl, List.suffix_refl _, by simp [start], by simp [start]⟩
  total := rfl
  room := by simp [start]
  within := Or.inl (Nat.zero_le _)
  members := by simp [start]
  own := by simp [start]
  smallest := by simp [start, NoneAbove]

/-- A source may lose layers. -/
theorem invariant_shrink {others rest : Sources Uuid} {src : Uuid} {state : VideoSourceState}
    {allocation : Allocation Uuid} (distinct : (sources.map Prod.fst).Nodup)
    (inv : Invariant clock availableRate sources (others ++ (src, state) :: rest) allocation)
    {layers : List (Nat × IncomingVideoInfo)} (suffix : layers <:+ state.layers) (readings : Nat) :
    Invariant clock availableRate sources (others ++ (src, { state with layers }) :: rest)
      { allocation with readings } where
  ids := by
    rw [← inv.ids]
    simp
  remains id found member := by
    rcases mem_changed (by rw [inv.ids]; exact distinct) member with ⟨rfl, rfl⟩ | ⟨_, before⟩
    · obtain ⟨first, known, remains⟩ := inv.remains id state (List.mem_append_right _ List.mem_cons_self)
      refine ⟨first, known, remains.requested, remains.shared, suffix.trans remains.rest, ?_, ?_⟩
      · exact fun video inserted layer inside =>
          remains.above video inserted layer (suffix.subset inside)
      · intro video inserted requested reaches
        have empty := remains.done video inserted requested reaches
        rw [empty] at suffix
        exact List.suffix_nil.mp suffix
    · exact inv.remains id found before
  total := inv.total
  room := by
    have before := inv.room
    rw [sourcesRate_append, sourcesRate_cons] at before ⊢
    have less := layersRate_suffix suffix
    simp only
    omega
  within := inv.within
  members := inv.members
  own := inv.own
  smallest := inv.smallest

theorem remains_fewer {first state : VideoSourceState} {old new : AllocatedVideo Uuid → Prop}
    (remains : Remains first state old) (fewer : ∀ video, new video → old video) :
    Remains first state new :=
  ⟨remains.requested, remains.shared, remains.rest,
    fun video inserted => remains.above video (fewer video inserted),
    fun video inserted => remains.done video (fewer video inserted)⟩

/-- What is left of a source whose lowest layer has just been inserted. -/
theorem remains_put {first state : VideoSourceState} {videos : AllocatedVideo Uuid → Prop}
    (remains : Remains first state videos) (ascending : Ascending first.layers) {updated : Nat}
    {layer : IncomingVideoInfo} {layers : List (Nat × IncomingVideoInfo)}
    (top : state.layers = (updated, layer) :: layers) (src : Uuid) :
    Remains first (({ state with layers } : VideoSourceState).ended layer)
      fun video => video = videoOf src layer ∨ videos video := by
  obtain ⟨suffix, requested, shared⟩ := ended_suffix { state with layers } layer
  have shorter : layers <:+ state.layers := ⟨[(updated, layer)], by rw [top]; rfl⟩
  refine ⟨requested.trans remains.requested, shared.trans remains.shared,
    (suffix.trans shorter).trans remains.rest, ?_, ?_⟩
  · rintro video (rfl | old) other inside
    · have sorted := ascending.sublist remains.rest.sublist
      rw [top] at sorted
      exact (List.pairwise_cons.mp sorted).1 other (suffix.subset inside)
    · exact remains.above video old other (shorter.subset (suffix.subset inside))
  · rintro video (rfl | old) wanted reaches
    · rw [← remains.requested] at wanted reaches
      unfold VideoSourceState.ended
      rw [if_pos ⟨wanted, reaches⟩]
    · have empty := remains.done video old wanted reaches
      rw [top] at empty
      cases empty

end Invariants

section Insertions

variable [DecidableEq Uuid] {clock : Nat → Nat} {availableRate : Nat} {sources : Sources Uuid}

theorem allocatedRate_le (allocation : Allocation Uuid) (src : Uuid) :
    allocatedRate allocation src ≤ allocatedRates allocation := by
  unfold allocatedRate allocatedRates
  cases found : allocation.allocated.entries.lookup src with
  | none => exact Nat.zero_le _
  | some video =>
    obtain ⟨front, back, split, _⟩ := List.lookup_eq_some_iff.mp found
    rw [split]
    simp only [List.map_append, List.map_cons, List.sum_append, List.sum_cons, Option.map_some,
      Option.getD_some]
    omega

theorem allocatedRates_put (allocation : Allocation Uuid) (src : Uuid) (layer : IncomingVideoInfo)
    (readings : Nat) :
    allocatedRates (allocation.put src layer readings) + allocatedRate allocation src =
      allocatedRates allocation + layerRate layer := by
  have sum := IndexMap.sum_insert_old (fun entry => entry.2.rate) src (videoOf src layer)
    allocation.allocated
  exact sum

/-- A source may have its lowest layer inserted. -/
theorem invariant_put {others rest : Sources Uuid} {src : Uuid} {state : VideoSourceState}
    {allocation : Allocation Uuid} (distinct : (sources.map Prod.fst).Nodup)
    (ascending : ∀ source ∈ sources, Ascending source.2.layers)
    (inv : Invariant clock availableRate sources (others ++ (src, state) :: rest) allocation)
    {updated : Nat} {layer : IncomingVideoInfo} {layers : List (Nat × IncomingVideoInfo)}
    (top : state.layers = (updated, layer) :: layers) (readings : Nat)
    (eligible : Eligible clock state.isScreenShare updated layer)
    (fits : (allocation.put src layer readings).totalAllocatedRate ≤ availableRate ∨
      allocation.allocated.entries = []) :
    Invariant clock availableRate sources
      (others ++ (src, ({ state with layers } : VideoSourceState).ended layer) :: rest)
      (allocation.put src layer readings) := by
  obtain ⟨first, known, remains⟩ := inv.remains src state (List.mem_append_right _ List.mem_cons_self)
  have lowest : (updated, layer) ∈ state.layers := by
    rw [top]
    exact List.mem_cons_self
  have total := inv.total
  have sums := allocatedRates_put allocation src layer readings
  have part := allocatedRate_le allocation src
  refine ⟨?_, ?_, ?_, ?_, ?_, ?_, ?_, ?_⟩
  · rw [← inv.ids]
    simp
  · intro id found member
    rcases mem_changed (by rw [inv.ids]; exact distinct) member with ⟨rfl, rfl⟩ | ⟨other, before⟩
    · refine ⟨first, known, remains_fewer
        (remains_put remains (ascending _ known) top id) fun video inserted => ?_⟩
      rcases List.mem_cons.mp inserted with new | old
      · exact Or.inl (Prod.mk.inj new).2
      · exact Or.inr old
    · obtain ⟨start, its, kept⟩ := inv.remains id found before
      refine ⟨start, its, remains_fewer kept fun video inserted => ?_⟩
      rcases List.mem_cons.mp inserted with new | old
      · exact absurd (Prod.mk.inj new).1 other
      · exact old
  · show allocation.totalAllocatedRate + layerRate layer - allocatedRate allocation src = _
    omega
  · have before := inv.room
    rw [sourcesRate_append, sourcesRate_cons] at before ⊢
    have less := layersRate_suffix (ended_suffix { state with layers } layer).1
    have rates : layersRate state.layers = layerRate layer + layersRate layers := by
      rw [top]
      rfl
    show allocation.totalAllocatedRate + layerRate layer - allocatedRate allocation src + _ ≤ _
    simp only at less
    omega
  · rcases fits with fits | empty
    · exact Or.inl fits
    · refine Or.inr ?_
      show (IndexMap.put src (videoOf src layer) allocation.allocated.entries).length = 1
      rw [empty]
      rfl
  · intro entry member
    rcases IndexMap.mem_insert member with rfl | before
    · exact List.mem_cons_self
    · exact List.mem_cons_of_mem _ (inv.members entry before)
  · intro entry member
    rcases List.mem_cons.mp member with rfl | before
    · refine ⟨first, known, updated, layer, remains.rest.subset lowest, ?_, rfl⟩
      rw [← remains.shared]
      exact eligible
    · exact inv.own entry before
  · intro id wanted asked requested video inserted reaches other also
    rcases List.mem_cons.mp inserted with new | old
    · obtain ⟨rfl, rfl⟩ := Prod.mk.inj new
      rcases List.mem_cons.mp also with same | before
      · obtain ⟨_, rfl⟩ := Prod.mk.inj same
        exact Nat.le_refl _
      · exact remains.above other before _ lowest
    · rcases List.mem_cons.mp also with new | before
      · obtain ⟨rfl, rfl⟩ := Prod.mk.inj new
        obtain rfl := same_of_id distinct known asked
        have empty := remains.done video old requested reaches
        rw [top] at empty
        cases empty
      · exact inv.smallest id wanted asked requested video old reaches other before

end Insertions

section Rounds

variable {clock : Nat → Nat} {availableRate : Nat} {sources : Sources Uuid}

/-- What a round may come to, for sources after the others. -/
def Keeps (clock : Nat → Nat) (availableRate : Nat) (sources others current : Sources Uuid) :
    Round Uuid → Prop
  | .failed => False
  | .returned allocation => Sound clock availableRate sources allocation
  | .goesOn next popped allocation =>
    Invariant clock availableRate sources (others ++ next) allocation ∧
      layersLeft next + popped.toNat ≤ layersLeft current

theorem after_keeps {others rest current : Sources Uuid} {src : Uuid} {state : VideoSourceState}
    {popped : Bool} {result : Round Uuid}
    (keeps : Keeps clock availableRate sources (others ++ [(src, state)]) rest result)
    (less : state.layers.length + layersLeft rest + popped.toNat ≤ layersLeft current) :
    Keeps clock availableRate sources others current (result.after src state popped) := by
  cases result with
  | failed => exact keeps
  | returned allocation => exact keeps
  | goesOn next flag allocation =>
    obtain ⟨inv, fewer⟩ := keeps
    rw [List.append_assoc] at inv
    refine ⟨inv, ?_⟩
    have left : layersLeft ((src, state) :: next) = state.layers.length + layersLeft next := rfl
    have either : (popped || flag).toNat ≤ popped.toNat + flag.toNat := by
      cases popped <;> cases flag <;> decide
    omega

variable [DecidableEq Uuid]

/-- A round over sources whose rates fit in a word keeps the invariant, turn by turn. -/
theorem round_keeps (distinct : (sources.map Prod.fst).Nodup)
    (ascending : ∀ source ∈ sources, Ascending source.2.layers)
    (bounded : sourcesRate sources < 2 ^ 64) (current : Sources Uuid) {others : Sources Uuid}
    {allocation : Allocation Uuid}
    (inv : Invariant clock availableRate sources (others ++ current) allocation) :
    Keeps clock availableRate sources others current (round clock availableRate current allocation) := by
  induction current generalizing others allocation with
  | nil => exact ⟨inv, Nat.le_refl _⟩
  | cons source rest ih =>
    obtain ⟨src, state⟩ := source
    have left : layersLeft ((src, state) :: rest) = state.layers.length + layersLeft rest := rfl
    have onward : ∀ {state : VideoSourceState} {allocation : Allocation Uuid},
        Invariant clock availableRate sources (others ++ (src, state) :: rest) allocation →
          Keeps clock availableRate sources (others ++ [(src, state)]) rest
            (round clock availableRate rest allocation) := by
      intro state allocation inv
      refine ih ?_
      rw [List.append_assoc]
      exact inv
    unfold round
    cases top : state.layers with
    | nil =>
      refine after_keeps (onward inv) ?_
      rw [left]
      exact Nat.le_refl _
    | cons layer layers =>
      obtain ⟨updated, layer⟩ := layer
      have size : state.layers.length = layers.length + 1 := by rw [top]; rfl
      have shorter : layers <:+ state.layers := ⟨[(updated, layer)], by rw [top]; rfl⟩
      have room : allocation.totalAllocatedRate + layerRate layer < 2 ^ 64 := by
        have before := inv.room
        rw [sourcesRate_append, sourcesRate_cons, top] at before
        have rates : layersRate ((updated, layer) :: layers) =
          layerRate layer + layersRate layers := rfl
        omega
      have counted : allocatedRate allocation src ≤ allocation.totalAllocatedRate := by
        rw [inv.total]
        exact allocatedRate_le allocation src
      have effect := @turn_effect _ _ clock availableRate src { state with layers } updated layer
        allocation room counted
      revert effect
      simp only
      generalize turn clock availableRate src { state with layers } updated layer allocation = result
      intro effect
      cases effect with
      | skipped readings =>
        refine after_keeps (onward (invariant_shrink distinct inv shorter readings)) ?_
        rw [left, size]
        simp only [Bool.toNat_true]
        omega
      | full total readings some =>
        have sound := sound_of_invariant inv
        exact ⟨sound.within, sound.members, sound.own, sound.smallest⟩
      | put readings eligible fits =>
        refine after_keeps (onward
          (invariant_put distinct ascending inv top readings eligible fits)) ?_
        have fewer := (ended_suffix { state with layers } layer).1.length_le
        rw [left, size]
        simp only [Bool.toNat_true] at fewer ⊢
        omega

/-- More rounds than layers are enough, and the result is the same for any number of them. -/
theorem rounds_return (distinct : (sources.map Prod.fst).Nodup)
    (ascending : ∀ source ∈ sources, Ascending source.2.layers)
    (bounded : sourcesRate sources < 2 ^ 64) (enough : Nat) {current : Sources Uuid}
    {allocation : Allocation Uuid}
    (inv : Invariant clock availableRate sources current allocation)
    (more : layersLeft current < enough) :
    ∃ result, (∀ fuel, enough ≤ fuel →
      rounds clock availableRate fuel current allocation = some (some result)) ∧
        Sound clock availableRate sources result := by
  induction enough generalizing current allocation with
  | zero => omega
  | succ enough ih =>
    have keeps : Keeps clock availableRate sources [] current
        (round clock availableRate current allocation) :=
      round_keeps distinct ascending bounded current inv
    have unfolds : ∀ fuel, enough + 1 ≤ fuel → ∃ less, enough ≤ less ∧ fuel = less + 1 :=
      fun fuel above => ⟨fuel - 1, by omega, by omega⟩
    cases result : round clock availableRate current allocation with
    | failed =>
      rw [result] at keeps
      exact keeps.elim
    | returned last =>
      rw [result] at keeps
      refine ⟨last, fun fuel above => ?_, keeps⟩
      obtain ⟨less, _, rfl⟩ := unfolds fuel above
      rw [rounds, result]
    | goesOn next popped last =>
      rw [result] at keeps
      obtain ⟨kept, fewer⟩ := keeps
      cases popped with
      | false =>
        refine ⟨last, fun fuel above => ?_, sound_of_invariant kept⟩
        obtain ⟨less, _, rfl⟩ := unfolds fuel above
        rw [rounds, result]
        rfl
      | true =>
        simp only [Bool.toNat_true] at fewer
        have shrunk : layersLeft next < enough := by omega
        obtain ⟨final, returns, sound⟩ := ih kept shrunk
        refine ⟨final, fun fuel above => ?_, sound⟩
        obtain ⟨less, enough, rfl⟩ := unfolds fuel above
        rw [rounds, result]
        exact returns less enough

/-- The loop ends without leaving 64 bits. What is allocated stays within the rate, but for
    one source alone; each layer comes from its source and was eligible; and none is above an
    allocated one that reaches the height that its source requested. -/
theorem loopAllocatoins_sound (clock : Nat → Nat) (availableRate : Nat) (sources : Sources Uuid)
    (distinct : (sources.map Prod.fst).Nodup)
    (ascending : ∀ source ∈ sources, Ascending source.2.layers)
    (bounded : sourcesRate sources < 2 ^ 64) :
    ∃ result, (∀ fuel, layersLeft sources < fuel →
      loopAllocatoins clock availableRate fuel sources = some (some result)) ∧
        Sound clock availableRate sources result :=
  rounds_return distinct ascending bounded _ (invariant_start clock availableRate sources)
    (Nat.lt_succ_self _)

/-- A source with two layers of its own rates. -/
def twoLayers (requested : Nat) : VideoSourceState where
  requestedSize := ⟨0, requested⟩
  layers := [(0, ⟨10, ⟨320, 180⟩, "l", some 500⟩), (0, ⟨11, ⟨640, 360⟩, "h", some 900⟩)]
  isScreenShare := false

theorem loopAllocatoins_two_sources :
    ∃ result, (∀ fuel, layersLeft [(0, twoLayers 360), (1, twoLayers 180)] < fuel →
      loopAllocatoins (fun _ => 0) 1200 fuel [(0, twoLayers 360), (1, twoLayers 180)] =
        some (some result)) ∧
        Sound (fun _ => 0) 1200 [(0, twoLayers 360), (1, twoLayers 180)] result :=
  loopAllocatoins_sound (fun _ => 0) 1200 [(0, twoLayers 360), (1, twoLayers 180)] (by decide)
    (by unfold Ascending; decide) (by decide)

/-- Any layer reaches the height zero, but the larger one is allocated after it. -/
theorem no_height_goes_on :
    ([(0, twoLayers 0)].map Prod.fst).Nodup ∧
      (∀ source ∈ [(0, twoLayers 0)], Ascending source.2.layers) ∧
        sourcesRate [(0, twoLayers 0)] < 2 ^ 64 ∧
          ∃ result, loopAllocatoins (fun _ => 0) 1200 3 [(0, twoLayers 0)] = some (some result) ∧
            ∃ video other, (0, video) ∈ result.inserted ∧ (0, other) ∈ result.allocated.entries ∧
              Reaches video.size.height (twoLayers 0).requestedSize.height ∧
                video.size.height < other.size.height :=
  ⟨by decide, by unfold Ascending; decide, by decide, _, rfl,
    videoOf 0 ⟨10, ⟨320, 180⟩, "l", some 500⟩, videoOf 0 ⟨11, ⟨640, 360⟩, "h", some 900⟩,
    by decide +kernel, by decide +kernel, by decide +kernel, by decide⟩

end Rounds

end VideoAllocation
