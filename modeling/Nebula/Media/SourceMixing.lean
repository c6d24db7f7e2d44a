import Nebula.Lib.ByteStrings
import Mathlib.Data.List.Perm.Basic

/- The frame that an audio stream sends: one frame is popped for each of its sources, and frames
   of several sources are mixed. What the soft clip makes of a sum outside the threshold is
   floating-point arithmetic, a parameter. -/
namespace SourceMixing
open ByteStrings

section Model

abbrev Frame := List Int16

/-- The largest sum of two samples that is not bent, from 0.6 * 0x7fff. -/
def ACTUAL_THRESHOLD : Int := 19660

variable (bend : Int → Int16)

def mix (x y : Int16) : Int16 :=
  let buf := x.toInt + y.toInt
  if ACTUAL_THRESHOLD < buf then bend buf
  else if buf < -ACTUAL_THRESHOLD then bend buf
  else Int16.ofInt buf

/-- An index past the accumulated frame panics, here and below. -/
def mixFrame (acc pcm : Frame) : Option Frame :=
  pcm.zipIdx.mapM fun (v, i) => acc[i]?.map fun x => mix bend x v

/-- The fax modem of a stream; its data is what it makes of a frame of a length, or of none. -/
structure Fax where
  isT38 : Bool
  processData : Option Frame → Nat → Frame

structure Sender where
  rate : Nat
  ptime : Nat
  fax : Option Fax

structure Source where
  payload : Option Bytes
  pcm : Frame
  silent : Bool
  t38 : Bool

/-- The results of the tasks, one for each source and in the order in which they end; a task that
    failed has none. -/
def collect (results : List (Option (Option Bytes × Option Frame))) : List Source :=
  results.filterMap fun result =>
    result.bind fun (payload, pcm) => pcm.map fun pcm => ⟨payload, pcm, false, false⟩

def mixSources (first : Source) (sources : List Source) : Option Frame :=
  sources.foldlM (fun acc source => mixFrame bend acc source.pcm) first.pcm

def getSrcRtp (sender : Sender) (results : List (Option (Option Bytes × Option Frame))) :
    Option Source :=
  let sources := collect results
  let pcmLen := sender.rate / 1000 * sender.ptime
  match sender.fax with
  | some fax =>
    let pcm := sources.head?.map Source.pcm
    if !fax.isT38 then some ⟨none, fax.processData pcm pcmLen, false, false⟩
    else some ⟨none, pcm.getD (List.replicate pcmLen 0), false, true⟩
  | none =>
    match sources with
    | [] => some ⟨none, List.replicate pcmLen 0, !results.isEmpty, false⟩
    | [source] => some source
    | first :: second :: rest =>
      (mixSources bend first (first :: second :: rest)).map fun pcm => ⟨none, pcm, false, false⟩

end Model

section Sums

/-- The sum of all samples at a position. -/
def total : List Frame → Nat → Int
  | [], _ => 0
  | frame :: rest, i => (frame.getD i 0).toInt + total rest i

structure IsSum (length : Nat) (frames : List Frame) (frame : Frame) : Prop where
  long : frame.length = length
  sum : ∀ i < length, (frame.getD i 0).toInt = total frames i

def Silent (length : Nat) (frame : Frame) : Prop := ∀ i < length, frame.getD i 0 = 0

theorem total_perm {first second : List Frame} (same : first.Perm second) (i : Nat) :
    total first i = total second i := by
  induction same with
  | nil => rfl
  | cons frame _ ih => rw [total, total, ih]
  | swap a b rest =>
    simp only [total]
    omega
  | trans _ _ ihFirst ihSecond => rw [ihFirst, ihSecond]

theorem total_append (first second : List Frame) (i : Nat) :
    total (first ++ second) i = total first i + total second i := by
  induction first with
  | nil => simp [total]
  | cons frame rest ih =>
    simp only [List.cons_append, total, ih]
    omega

theorem total_silent {length : Nat} {frames : List Frame}
    (silent : ∀ frame ∈ frames, Silent length frame) {i : Nat} (inside : i < length) :
    total frames i = 0 := by
  induction frames with
  | nil => rfl
  | cons frame rest ih =>
    have zero := silent frame List.mem_cons_self i inside
    have others := ih fun other member => silent other (.tail _ member)
    rw [total, zero, others]
    rfl

/-- Frames that are all the same at a position. -/
theorem total_same {frames : List Frame} {i : Nat} {value : Int}
    (same : ∀ frame ∈ frames, (frame.getD i 0).toInt = value) :
    total frames i = frames.length * value := by
  induction frames with
  | nil => simp [total]
  | cons frame rest ih =>
    have own := same frame List.mem_cons_self
    have others := ih fun other member => same other (.tail _ member)
    rw [total, own, others, List.length_cons, Int.natCast_succ, Int.add_mul]
    omega

end Sums

section Mixing

variable (bend : Int → Int16)

theorem mapM_zipIdx (acc pcm : Frame) (k : Nat) (long : k + pcm.length ≤ acc.length) :
    (pcm.zipIdx k).mapM (fun (entry : Int16 × Nat) => acc[entry.2]?.map fun x => mix bend x entry.1) =
      some (List.zipWith (mix bend) (acc.drop k) pcm) := by
  induction pcm generalizing k with
  | nil => simp
  | cons v rest ih =>
    rw [List.length_cons] at long
    have inside : k < acc.length := by omega
    have first : acc[k]? = some acc[k] := List.getElem?_eq_getElem inside
    rw [List.zipIdx_cons, List.mapM_cons, ih (k + 1) (by omega), List.drop_eq_getElem_cons inside]
    simp only [first, Option.map_some, List.zipWith_cons_cons]
    rfl

theorem mixFrame_eq {acc pcm : Frame} (long : pcm.length ≤ acc.length) :
    mixFrame bend acc pcm = some (List.zipWith (mix bend) acc pcm) :=
  mapM_zipIdx bend acc pcm 0 (by omega)

theorem mix_exact {x y : Int16} (low : -ACTUAL_THRESHOLD ≤ x.toInt + y.toInt)
    (high : x.toInt + y.toInt ≤ ACTUAL_THRESHOLD) :
    (mix bend x y).toInt = x.toInt + y.toInt := by
  unfold mix
  rw [if_neg (by omega), if_neg (by omega)]
  unfold ACTUAL_THRESHOLD at low high
  exact Int16.toInt_ofInt_of_le (by omega) (by omega)

/-- The sums that the fold builds, which starts with the first frame and then adds every frame,
    are all inside the threshold: each mix is exact addition. -/
def BelowThreshold (length : Nat) (order : List Frame) : Prop :=
  ∀ first rest, order = first :: rest → ∀ front, front <+: order → ∀ i < length,
    -ACTUAL_THRESHOLD ≤ (first.getD i 0).toInt + total front i ∧
      (first.getD i 0).toInt + total front i ≤ ACTUAL_THRESHOLD

theorem getD_mixed {acc pcm : Frame} {i : Nat} (accLong : i < acc.length)
    (pcmLong : i < pcm.length) :
    (List.zipWith (mix bend) acc pcm).getD i 0 = mix bend (acc.getD i 0) (pcm.getD i 0) := by
  rw [List.getD_eq_getElem?_getD, List.getElem?_zipWith]
  simp [accLong, pcmLong]

/-- One round of the fold. -/
theorem mixFrame_sum {length : Nat} {acc pcm : Frame} (accLong : acc.length = length)
    (pcmLong : pcm.length = length)
    (below : ∀ i < length, -ACTUAL_THRESHOLD ≤ (acc.getD i 0).toInt + (pcm.getD i 0).toInt ∧
      (acc.getD i 0).toInt + (pcm.getD i 0).toInt ≤ ACTUAL_THRESHOLD) :
    ∃ mixed, mixFrame bend acc pcm = some mixed ∧ mixed.length = length ∧
      ∀ i < length, (mixed.getD i 0).toInt = (acc.getD i 0).toInt + (pcm.getD i 0).toInt := by
  refine ⟨_, mixFrame_eq bend (by omega), by simp [accLong, pcmLong], ?_⟩
  intro i inside
  rw [getD_mixed bend (by omega) (by omega)]
  exact mix_exact bend (below i inside).1 (below i inside).2

theorem mixAll_sum {length : Nat} (seed : Nat → Int) (done todo : List Frame) {acc : Frame}
    (long : acc.length = length)
    (sum : ∀ i < length, (acc.getD i 0).toInt = seed i + total done i)
    (same : ∀ frame ∈ todo, frame.length = length)
    (below : ∀ front, front <+: done ++ todo → ∀ i < length,
      -ACTUAL_THRESHOLD ≤ seed i + total front i ∧ seed i + total front i ≤ ACTUAL_THRESHOLD) :
    ∃ mixed, todo.foldlM (mixFrame bend) acc = some mixed ∧ mixed.length = length ∧
      ∀ i < length, (mixed.getD i 0).toInt = seed i + total (done ++ todo) i := by
  induction todo generalizing done acc with
  | nil => exact ⟨acc, rfl, long, by simpa using sum⟩
  | cons frame rest ih =>
    have added : ∀ i < length, (acc.getD i 0).toInt + (frame.getD i 0).toInt =
        seed i + total (done ++ [frame]) i := by
      intro i inside
      rw [sum i inside, total_append]
      simp only [total]
      omega
    have reached : done ++ [frame] <+: done ++ frame :: rest :=
      ⟨rest, by rw [List.append_assoc, List.singleton_append]⟩
    obtain ⟨mixed, first, mixedLong, mixedSum⟩ := mixFrame_sum bend long
      (same frame List.mem_cons_self)
      (fun i inside => added i inside ▸ below _ reached i inside)
    have whole : done ++ frame :: rest = (done ++ [frame]) ++ rest := by
      rw [List.append_assoc, List.singleton_append]
    obtain ⟨last, ran, lastLong, lastSum⟩ := ih (done ++ [frame]) mixedLong
      (fun i inside => (mixedSum i inside).trans (added i inside))
      (fun other member => same other (.tail _ member)) (whole ▸ below)
    refine ⟨last, ?_, lastLong, whole ▸ lastSum⟩
    rw [List.foldlM_cons, first]
    exact ran

/-- The first of the collected frames counts twice. -/
theorem mixSources_sum {length : Nat} {first : Source} {sources : List Source}
    (same : ∀ source ∈ first :: sources, source.pcm.length = length)
    (below : BelowThreshold length ((first :: sources).map Source.pcm)) :
    ∃ mixed, mixSources bend first (first :: sources) = some mixed ∧ mixed.length = length ∧
      ∀ i < length, (mixed.getD i 0).toInt =
        (first.pcm.getD i 0).toInt + total ((first :: sources).map Source.pcm) i := by
  have frames : ∀ frame ∈ (first :: sources).map Source.pcm, frame.length = length := by
    intro frame member
    obtain ⟨source, held, rfl⟩ := List.mem_map.mp member
    exact same source held
  have ran := mixAll_sum bend (fun i => (first.pcm.getD i 0).toInt) []
    ((first :: sources).map Source.pcm) (same first List.mem_cons_self) (fun i _ => by simp [total])
    frames (below first.pcm (sources.map Source.pcm) rfl)
  rw [List.foldlM_map] at ran
  exact ran

end Mixing

section Once

/-- In whatever order the sources of some frames end, what is sent is the sum of the frames. -/
def MixedOnce (bend : Int → Int16) (sender : Sender) (length : Nat) (frames : List Frame) : Prop :=
  ∀ results, ((collect results).map Source.pcm).Perm frames →
    ∃ source, getSrcRtp bend sender results = some source ∧ IsSum length frames source.pcm

/-- Every frame is silent; or a modem that is not yet in T.38 makes the sum of every frame. -/
def Undisturbed (sender : Sender) (length : Nat) (frames : List Frame) : Prop :=
  match sender.fax with
  | none => ∀ frame ∈ frames, Silent length frame
  | some fax =>
    if fax.isT38 then ∀ frame ∈ frames, Silent length frame
    else ∀ frame ∈ frames,
      IsSum length frames (fax.processData (some frame) (sender.rate / 1000 * sender.ptime))

variable {length : Nat} {frames : List Frame}

def resultsOf (order : List Frame) : List (Option (Option Bytes × Option Frame)) :=
  order.map fun frame => some (none, some frame)

theorem collect_resultsOf (order : List Frame) :
    (collect (resultsOf order)).map Source.pcm = order := by
  induction order with
  | nil => rfl
  | cons frame rest ih =>
    rw [resultsOf, List.map_cons, collect, List.filterMap_cons]
    exact congrArg (frame :: ·) ih

/-- Any of the sources can be the first to end. -/
theorem exists_first {frame : Frame} (member : frame ∈ frames) :
    ∃ results, ((collect results).map Source.pcm).Perm frames ∧
      ((collect results).map Source.pcm).head? = some frame := by
  refine ⟨resultsOf (frame :: frames.erase frame), ?_, ?_⟩
  · rw [collect_resultsOf]
    exact (List.perm_cons_erase member).symm
  · rw [collect_resultsOf]
    rfl

theorem collect_cons {results : List (Option (Option Bytes × Option Frame))}
    (two : 2 ≤ frames.length) (perm : ((collect results).map Source.pcm).Perm frames) :
    ∃ first second rest, collect results = first :: second :: rest := by
  have long := perm.length_eq
  rw [List.length_map] at long
  rcases shape : collect results with _ | ⟨first, _ | ⟨second, rest⟩⟩
  · rw [shape, List.length_nil] at long
    omega
  · rw [shape, List.length_singleton] at long
    omega
  · exact ⟨first, second, rest, rfl⟩

theorem getSrcRtp_mixed (bend : Int → Int16) {sender : Sender} (voice : sender.fax = none)
    (two : 2 ≤ frames.length) (same : ∀ frame ∈ frames, frame.length = length)
    (below : ∀ order : List Frame, order.Perm frames → BelowThreshold length order)
    {results : List (Option (Option Bytes × Option Frame))}
    (perm : ((collect results).map Source.pcm).Perm frames) :
    ∃ source first, getSrcRtp bend sender results = some source ∧
      ((collect results).map Source.pcm).head? = some first ∧ source.pcm.length = length ∧
      ∀ i < length,
        (source.pcm.getD i 0).toInt = (first.getD i 0).toInt + total frames i := by
  obtain ⟨first, second, rest, shape⟩ := collect_cons two perm
  have whole := below _ perm
  rw [shape] at perm whole
  have long : ∀ source ∈ first :: second :: rest, source.pcm.length = length := by
    intro source member
    exact same _ (perm.mem_iff.mp (List.mem_map_of_mem member))
  obtain ⟨mixed, ran, mixedLong, sum⟩ := mixSources_sum bend long whole
  refine ⟨⟨none, mixed, false, false⟩, first.pcm, ?_, by rw [shape]; rfl, mixedLong, ?_⟩
  · unfold getSrcRtp
    rw [voice, shape]
    simp only [ran, Option.map_some]
  · intro i inside
    rw [sum i inside, total_perm perm]

theorem getSrcRtp_fax (bend : Int → Int16) {sender : Sender} {fax : Fax}
    (attached : sender.fax = some fax) (two : 2 ≤ frames.length)
    {results : List (Option (Option Bytes × Option Frame))}
    (perm : ((collect results).map Source.pcm).Perm frames) :
    ∃ source first, getSrcRtp bend sender results = some source ∧
      ((collect results).map Source.pcm).head? = some first ∧ first ∈ frames ∧
      source.pcm = if fax.isT38 then first
        else fax.processData (some first) (sender.rate / 1000 * sender.ptime) := by
  obtain ⟨first, second, rest, shape⟩ := collect_cons two perm
  rw [shape] at perm
  have member : first.pcm ∈ frames := perm.mem_iff.mp List.mem_cons_self
  cases t38 : fax.isT38 with
  | true =>
    refine ⟨⟨none, first.pcm, false, true⟩, first.pcm, ?_, by rw [shape]; rfl, member, rfl⟩
    unfold getSrcRtp
    simp [attached, shape, t38]
  | false =>
    refine ⟨⟨none, fax.processData (some first.pcm) (sender.rate / 1000 * sender.ptime), false,
      false⟩, first.pcm, ?_, by rw [shape]; rfl, member, rfl⟩
    unfold getSrcRtp
    simp [attached, shape, t38]

theorem silent_of_toInt {frame : Frame} (zero : ∀ i < length, (frame.getD i 0).toInt = 0) :
    Silent length frame := by
  intro i inside
  exact Int16.toInt_inj.mp (zero i inside)

/-- Frames that are each their own sum are silent, where there are two or more. -/
theorem silent_of_each_sum (two : 2 ≤ frames.length)
    (each : ∀ frame ∈ frames, IsSum length frames frame) :
    ∀ frame ∈ frames, Silent length frame := by
  intro frame member
  refine silent_of_toInt fun i inside => ?_
  have own := (each frame member).sum i inside
  have all := total_same fun other held => (each other held).sum i inside
  have zero : ((frames.length : Int) - 1) * total frames i = 0 := by
    rw [Int.sub_mul, ← all]
    omega
  rcases Int.mul_eq_zero.mp zero with none_ | zero
  · omega
  · rw [own, zero]

theorem mixed_iff (bend : Int → Int16) {sender : Sender} (voice : sender.fax = none)
    (two : 2 ≤ frames.length) (same : ∀ frame ∈ frames, frame.length = length)
    (below : ∀ order : List Frame, order.Perm frames → BelowThreshold length order) :
    MixedOnce bend sender length frames ↔ ∀ frame ∈ frames, Silent length frame := by
  constructor
  · intro once frame member
    obtain ⟨results, perm, begins⟩ := exists_first member
    obtain ⟨source, sent, isSum⟩ := once results perm
    obtain ⟨source', first, sent', head, -, sum⟩ :=
      getSrcRtp_mixed bend voice two same below perm
    obtain rfl := Option.some.inj (sent.symm.trans sent')
    obtain rfl := Option.some.inj (begins.symm.trans head)
    refine silent_of_toInt fun i inside => ?_
    have twice := sum i inside
    rw [isSum.sum i inside] at twice
    omega
  · intro silent results perm
    obtain ⟨source, first, sent, head, long, sum⟩ :=
      getSrcRtp_mixed bend voice two same below perm
    have member : first ∈ frames := perm.mem_iff.mp (List.mem_of_head? head)
    refine ⟨source, sent, long, fun i inside => ?_⟩
    rw [sum i inside, silent first member i inside]
    exact Int.zero_add _

theorem fax_iff (bend : Int → Int16) {sender : Sender} {fax : Fax}
    (attached : sender.fax = some fax) (two : 2 ≤ frames.length)
    (same : ∀ frame ∈ frames, frame.length = length) :
    MixedOnce bend sender length frames ↔ Undisturbed sender length frames := by
  have answers : MixedOnce bend sender length frames ↔ ∀ frame ∈ frames,
      IsSum length frames (if fax.isT38 then frame
        else fax.processData (some frame) (sender.rate / 1000 * sender.ptime)) := by
    constructor
    · intro once frame member
      obtain ⟨results, perm, begins⟩ := exists_first member
      obtain ⟨source, sent, isSum⟩ := once results perm
      obtain ⟨source', first, sent', head, -, pcm⟩ := getSrcRtp_fax bend attached two perm
      obtain rfl := Option.some.inj (sent.symm.trans sent')
      obtain rfl := Option.some.inj (begins.symm.trans head)
      rw [← pcm]
      exact isSum
    · intro each results perm
      obtain ⟨source, first, sent, -, member, pcm⟩ := getSrcRtp_fax bend attached two perm
      exact ⟨source, sent, pcm ▸ each first member⟩
  rw [answers, Undisturbed, attached]
  cases t38 : fax.isT38 with
  | false => simp [t38]
  | true =>
    simp only [t38, if_true]
    constructor
    · exact silent_of_each_sum two
    · intro silent frame member
      refine ⟨same frame member, fun i inside => ?_⟩
      rw [silent frame member i inside, total_silent silent inside]
      rfl

/-- The frames of two or more sources come out as their sum, in whatever order they are collected,
    exactly where none of them is heard; a fax modem, which is given the first frame only, apart. -/
theorem mixedOnce_iff (bend : Int → Int16) (sender : Sender) (two : 2 ≤ frames.length)
    (same : ∀ frame ∈ frames, frame.length = length)
    (below : ∀ order : List Frame, order.Perm frames → BelowThreshold length order) :
    MixedOnce bend sender length frames ↔ Undisturbed sender length frames := by
  cases attached : sender.fax with
  | none =>
    rw [mixed_iff bend attached two same below, Undisturbed, attached]
  | some fax => exact fax_iff bend attached two same

/-- Two sources at 8000 Hz with one sample each, 1 and 2. -/
def voice : Sender := ⟨8000, 20, none⟩

theorem two_below : ∀ order : List Frame, order.Perm [[1], [2]] → BelowThreshold 1 order := by
  rintro order perm first rest rfl front ⟨last, whole⟩ i inside
  obtain rfl : i = 0 := by omega
  have long := perm.length_eq
  obtain ⟨second, rfl⟩ : ∃ second, rest = [second] :=
    List.length_eq_one_iff.mp (by simpa using long)
  have ofFirst := perm.mem_iff.mp (List.mem_cons_self (a := first))
  have ofSecond := perm.mem_iff.mp (List.mem_cons_of_mem first (List.mem_singleton_self second))
  simp only [List.mem_cons, List.not_mem_nil, or_false] at ofFirst ofSecond
  rcases front with _ | ⟨a, _ | ⟨b, front⟩⟩
  · rcases ofFirst with rfl | rfl <;> decide
  · obtain ⟨rfl, -⟩ := List.cons.inj whole
    rcases ofFirst with rfl | rfl <;> decide
  · obtain ⟨rfl, more⟩ := List.cons.inj whole
    obtain ⟨rfl, none_⟩ := List.cons.inj more
    obtain ⟨rfl, -⟩ := List.append_eq_nil_iff.mp none_
    rcases ofFirst with rfl | rfl <;> rcases ofSecond with rfl | rfl <;> decide

theorem mixedOnce_iff_two :
    MixedOnce (fun _ => 0) voice 1 [[1], [2]] ↔ Undisturbed voice 1 [[1], [2]] :=
  mixedOnce_iff (fun _ => 0) voice (by decide) (by decide) two_below

theorem first_source_twice : ¬ MixedOnce (fun _ => 0) voice 1 [[1], [2]] := by
  intro once
  obtain ⟨source, sent, isSum⟩ := once (resultsOf [[1], [2]]) (by decide)
  obtain rfl : source = ⟨none, [4], false, false⟩ := Option.some.inj (sent.symm.trans (by rfl))
  have sum := isSum.sum 0 (by decide)
  revert sum
  decide

end Once

end SourceMixing
