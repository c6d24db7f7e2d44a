import Nebula.Lib.IndexMap
import Nebula.Media.Vp8
import Mathlib.Tactic.Common

/- How the available rate is shared among the layers of video sources, in rounds over the
   sources. Numbers are 64-bit words; an addition or a subtraction that leaves them fails. -/
namespace VideoAllocation
open Vp8 (PixelSize)

section Model

structure IncomingVideoInfo where
  ssrc : Nat
  size : PixelSize
  rid : String
  rate : Option Nat
  deriving DecidableEq

/-- Each layer has the second in which it was updated. -/
structure VideoSourceState where
  requestedSize : PixelSize
  layers : List (Nat × IncomingVideoInfo)
  isScreenShare : Bool
  deriving DecidableEq

variable (Uuid : Type)

structure AllocatedVideo where
  uuid : Uuid
  rid : String
  ssrc : Nat
  rate : Nat
  size : PixelSize
  deriving DecidableEq

/-- The variables of the loop, with the readings of the clock so far and, for its laws,
    whatever was inserted. -/
structure Allocation where
  allocated : IndexMap Uuid (AllocatedVideo Uuid)
  totalAllocatedRate : Nat
  readings : Nat
  inserted : List (Uuid × AllocatedVideo Uuid)

variable {Uuid}

/-- An integer as a double: 53 bits, to the nearest one, to the even one between two. -/
def toF64 (n : Nat) : Nat :=
  if n < 2 ^ 53 then n
  else
    let unit := 2 ^ (n.log2 - 52)
    if unit < 2 * (n % unit) ∨ (unit = 2 * (n % unit) ∧ n / unit % 2 = 1)
    then (n / unit + 1) * unit else n / unit * unit

/-- height * 1.5 >= requested on doubles, both sides doubled. -/
def Reaches (height requested : Nat) : Prop := 2 * toF64 requested ≤ toF64 (3 * toF64 height)

instance (height requested : Nat) : Decidable (Reaches height requested) :=
  inferInstanceAs (Decidable (_ ≤ _))

theorem reaches_iff {height requested : Nat} (low : height < 2 ^ 51) (small : requested < 2 ^ 53) :
    Reaches height requested ↔ 2 * requested ≤ 3 * height := by
  have first : toF64 height = height := if_pos (by omega)
  have second : toF64 (3 * height) = 3 * height := if_pos (by omega)
  have third : toF64 requested = requested := if_pos small
  unfold Reaches
  rw [first, second, third]

def layerRate (layer : IncomingVideoInfo) : Nat :=
  layer.rate.getD (if layer.size.height ≤ 180 then 200000
    else if layer.size.height ≤ 360 then 400000 else 900000)

def videoOf (src : Uuid) (layer : IncomingVideoInfo) : AllocatedVideo Uuid :=
  ⟨src, layer.rid, layer.ssrc, layerRate layer, layer.size⟩

/-- What the turn of a source comes to. -/
inductive Turn (Uuid : Type) where
  | failed
  | returned (allocation : Allocation Uuid)
  | goesOn (state : VideoSourceState) (allocation : Allocation Uuid)

variable [DecidableEq Uuid]

def allocatedRate (allocation : Allocation Uuid) (src : Uuid) : Nat :=
  ((allocation.allocated.entries.lookup src).map AllocatedVideo.rate).getD 0

/-- A layer that was found wide, recent and fast enough. -/
def allocate (availableRate : Nat) (src : Uuid) (state : VideoSourceState)
    (layer : IncomingVideoInfo) (allocation : Allocation Uuid) : Turn Uuid :=
  let old := allocatedRate allocation src
  let sum := allocation.totalAllocatedRate + layerRate layer
  if 2 ^ 64 ≤ sum ∨ sum < old then .failed
  else
    let allocation := { allocation with totalAllocatedRate := sum - old }
    if availableRate < sum - old ∧ allocation.allocated.entries ≠ [] then .returned allocation
    else
      let allocation := { allocation with
        allocated := allocation.allocated.insert src (videoOf src layer)
        inserted := (src, videoOf src layer) :: allocation.inserted }
      if 0 < state.requestedSize.height ∧ Reaches layer.size.height state.requestedSize.height
      then .goesOn { state with layers := [] } allocation
      else .goesOn state allocation

/-- The turn of a source whose layer was popped. -/
def turn (clock : Nat → Nat) (availableRate : Nat) (src : Uuid) (state : VideoSourceState)
    (updated : Nat) (layer : IncomingVideoInfo) (allocation : Allocation Uuid) : Turn Uuid :=
  if layer.size.width = 0 then .goesOn state allocation
  else if state.isScreenShare then allocate availableRate src state layer allocation
  else
    let now := clock allocation.readings
    let allocation := { allocation with readings := allocation.readings + 1 }
    if 3 < now - updated then .goesOn state allocation
    else if layerRate layer < allocatedRate allocation src then .goesOn state allocation
    else allocate availableRate src state layer allocation

/-- What a round over the sources comes to: it goes on with the sources as they are then and
    with whether a layer was popped. -/
inductive Round (Uuid : Type) where
  | failed
  | returned (allocation : Allocation Uuid)
  | goesOn (sources : List (Uuid × VideoSourceState)) (layerAllocated : Bool)
      (allocation : Allocation Uuid)

def Round.after (src : Uuid) (state : VideoSourceState) (popped : Bool) : Round Uuid → Round Uuid
  | .goesOn sources layerAllocated allocation =>
    .goesOn ((src, state) :: sources) (popped || layerAllocated) allocation
  | other => other

def round (clock : Nat → Nat) (availableRate : Nat) :
    List (Uuid × VideoSourceState) → Allocation Uuid → Round Uuid
  | [], allocation => .goesOn [] false allocation
  | (src, state) :: rest, allocation =>
    match state.layers with
    | [] => (round clock availableRate rest allocation).after src state false
    | (updated, layer) :: layers =>
      match turn clock availableRate src { state with layers } updated layer allocation with
      | .failed => .failed
      | .returned allocation => .returned allocation
      | .goesOn state allocation => (round clock availableRate rest allocation).after src state true

/-- There is nothing when the rounds run out, and in it nothing when a sum fails. -/
def rounds (clock : Nat → Nat) (availableRate : Nat) :
    Nat → List (Uuid × VideoSourceState) → Allocation Uuid → Option (Option (Allocation Uuid))
  | 0, _, _ => none
  | fuel + 1, sources, allocation =>
    match round clock availableRate sources allocation with
    | .failed => some none
    | .returned allocation => some (some allocation)
    | .goesOn sources layerAllocated allocation =>
      if layerAllocated then rounds clock availableRate fuel sources allocation
      else some (some allocation)

def start : Allocation Uuid := ⟨IndexMap.empty, 0, 0, []⟩

def loopAllocatoins (clock : Nat → Nat) (availableRate fuel : Nat)
    (sources : List (Uuid × VideoSourceState)) : Option (Option (Allocation Uuid)) :=
  rounds clock availableRate fuel sources start

end Model

end VideoAllocation
