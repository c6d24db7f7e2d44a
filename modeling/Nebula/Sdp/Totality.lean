import Nebula.Sdp.Attributes
import Nebula.Sdp.Sections

/- Which texts make the parsers, or the accessors that are called on what they return, panic. -/
namespace Sdp
open TextScan TextParts DecimalText
open SipText (Text byteLength dropBytes dropBytes_append)
open ByteStrings (Bytes)

section Calls
variable (base64 : Text → Option Bytes)

structure MediaReadings where
  cryptos : List Crypto
  rtpmaps : List Rtpmap
  track : MediaStreamTrack
  ice : Option Ice
  dtls : Option Dtls

/-- All that is asked of a media description once it was read. -/
def MediaDescription.readings (media : MediaDescription) : Outcome MediaReadings :=
  (media.cryptos base64).bind fun cryptos =>
    media.streamTrack.map fun track =>
      { cryptos, rtpmaps := media.getRtpmaps, track, ice := extractIce media.attributes,
        dtls := extractDtls media.attributes }

structure SessionReadings where
  bundle : Option (List Text)
  ice : Option Ice
  dtls : Option Dtls
  medias : List MediaReadings

def SessionDescription.readings (sdp : SessionDescription) : Outcome SessionReadings :=
  sdp.bundle.bind fun bundle =>
    (sdp.mediaDescriptions.mapM (MediaDescription.readings base64)).map fun medias =>
      { bundle, ice := sdp.ice, dtls := sdp.dtls, medias }

def readSession (s : Text) : Outcome SessionReadings :=
  (SessionDescription.fromStr s).bind (SessionDescription.readings base64)

def readMedia (s : Text) : Outcome MediaReadings :=
  (MediaDescription.fromStr s).bind (MediaDescription.readings base64)

end Calls

section Conditions

/-- A line can be cut behind its first and its second byte, or is too short to be. -/
def cuttable : Text → Bool
  | [] => true
  | [c] => c.utf8Size = 1
  | c :: d :: _ => c.utf8Size = 1 ∧ d.utf8Size = 1

/-- Data of a kind that must have a certain form, and has not. -/
def refusedData (descType : Char) (data : Text) : Bool :=
  match descType.toLower with
  | 'o' => match data.splitOn ' ' with | [_, _, _, _, _, _] => false | _ => true
  | 't' =>
    match data.splitOn ' ' with
    | [start, stop] => (readInt32 start).isNone || (readInt32 stop).isNone
    | _ => true
  | 'c' => match data.splitOn ' ' with | [_, _, _] => false | _ => true
  | _ => false

def refused : Text → Bool
  | descType :: _ :: data => refusedData descType data
  | _ => false

/-- The lines up to the first that is refused. -/
def reached : List Text → List Text
  | [] => []
  | line :: rest => if refused line then [line] else line :: reached rest

def keyCuttable (value : Text) : Bool :=
  match value.splitOn ' ' with
  | [_, suite, params] =>
    (readBelow (2 ^ 64) ((suite.splitOn '_').getLastD [])).isSome →
      (dropBytes 7 ((params.splitOn '|').headD [])).isSome
  | _ => true

def attrCuttable (attr : Attribute) : Bool :=
  attr.key = "crypto".toList → keyCuttable (attr.value.getD [])

def Entry.attribute? : Entry → Option Attribute
  | .attr own => some own
  | .media _ => none

/-- The attributes that stand behind the first section that is read. -/
def claimed : List Entry → List Attribute
  | [] => []
  | .media (some _) :: rest => rest.filterMap Entry.attribute?
  | _ :: rest => claimed rest

def SessionReadable (s : Text) : Prop :=
  (∀ line ∈ reached (splitPair '\r' '\n' s), cuttable line) ∧
    ((∀ line ∈ splitPair '\r' '\n' s, refused line = false) →
      ∀ attr ∈ claimed (entries s), attrCuttable attr)

def MediaLinesReadable : List Text → Prop
  | ('m' :: '=' :: data) :: rest =>
    (parseMedia data).toOption.isSome → ∀ line ∈ rest, cuttable line ∧
      ∀ attr ∈ (entryOf line).bind Entry.attribute?, attrCuttable attr
  | _ => True

def MediaReadable (s : Text) : Prop := MediaLinesReadable (splitPair '\r' '\n' s)

end Conditions

section Slices

theorem typeAndData_cuttable {line : Text} (whole : cuttable line) (long : ¬ byteLength line < 2) :
    ∃ c d data, line = c :: d :: data ∧ typeAndData line = .ok (c, data) := by
  rcases line with _ | ⟨c, _ | ⟨d, data⟩⟩
  · exact absurd (by decide) long
  · have size : c.utf8Size = 1 := by simpa [cuttable] using whole
    exact absurd (by simp [byteLength, size]) long
  · obtain ⟨first, second⟩ : c.utf8Size = 1 ∧ d.utf8Size = 1 := by simpa [cuttable] using whole
    refine ⟨c, d, data, rfl, ?_⟩
    have rest : dropBytes 2 (c :: d :: data) = some data :=
      @dropBytes_append [c, d] data (by simp [first, second])
    rw [typeAndData, if_pos first, rest]
    rfl

theorem typeAndData_panics {line : Text} (broken : cuttable line = false) :
    ¬ byteLength line < 2 ∧ typeAndData line = .error .panic := by
  rcases line with _ | ⟨c, _ | ⟨d, data⟩⟩
  · cases broken
  · have size : ¬ c.utf8Size = 1 := by simpa [cuttable] using broken
    have positive := c.utf8Size_pos
    refine ⟨by simp [byteLength]; omega, ?_⟩
    rw [typeAndData, if_neg size]
  · have positive := c.utf8Size_pos
    have positive' := d.utf8Size_pos
    refine ⟨by simp [byteLength]; omega, ?_⟩
    by_cases first : c.utf8Size = 1
    · have second : ¬ d.utf8Size = 1 := by simpa [cuttable, first] using broken
      have inside : ¬ d.utf8Size ≤ 1 := by omega
      have nothing : dropBytes 2 (c :: d :: data) = none := by simp [dropBytes, first, inside]
      rw [typeAndData, if_pos first, nothing]
      rfl
    · rw [typeAndData, if_neg first]

end Slices

section Lines

/-- Whether a line is refused decides between an error and the next description. -/
def Returns (refused : Bool) (result : Outcome SessionDescription) : Prop :=
  match refused with
  | true => ∃ fault, fault ≠ .panic ∧ result = .error fault
  | false => ∃ next, result = .ok next

theorem readData_returns (sdp : SessionDescription) (descType : Char) (data : Text) :
    Returns (refusedData descType data) (sdp.readData descType data) := by
  unfold refusedData
  fun_cases SessionDescription.readData sdp descType data with
  | case1 kind => rw [kind]; exact ⟨_, rfl⟩
  | case2 kind => rw [kind]; exact ⟨_, rfl⟩
  | case3 kind =>
    simp only [kind, Origin.fromStr]
    generalize data.splitOn ' ' = parts
    rcases parts with _ | ⟨_, _ | ⟨_, _ | ⟨_, _ | ⟨_, _ | ⟨_, _ | ⟨_, _ | ⟨_, rest⟩⟩⟩⟩⟩⟩⟩
    iterate 6 exact ⟨.invalidSdp, by decide, rfl⟩
    · exact ⟨_, rfl⟩
    · exact ⟨.invalidSdp, by decide, rfl⟩
  | case4 kind start stop parts =>
    rw [kind]
    simp only [parts]
    cases readInt32 start with
    | none => exact ⟨.parseInt, by decide, rfl⟩
    | some timeStart =>
      cases readInt32 stop with
      | none => exact ⟨.parseInt, by decide, rfl⟩
      | some timeStop => exact ⟨_, rfl⟩
  | case5 kind other =>
    simp only [kind]
    exact ⟨.invalidSdp, by decide, rfl⟩
  | case6 kind => rw [kind]; exact ⟨_, rfl⟩
  | case7 kind => rw [kind]; exact ⟨_, rfl⟩
  | case8 kind networkType addrType addr parts =>
    rw [kind]
    simp only [parts]
    exact ⟨_, rfl⟩
  | case9 kind other =>
    simp only [kind]
    exact ⟨.invalidSdp, by decide, rfl⟩
  | case10 kind => rw [kind]; exact ⟨_, rfl⟩
  | case11 kind => rw [kind]; exact ⟨_, rfl⟩
  | case12 notV notS notO notT notM notC notA =>
    split
    · exact (notO (by assumption)).elim
    · exact (notT (by assumption)).elim
    · exact (notC (by assumption)).elim
    · exact ⟨_, rfl⟩

theorem readLine_broken (sdp : SessionDescription) {line : Text} (broken : cuttable line = false) :
    sdp.readLine line = .error .panic := by
  obtain ⟨long, parts⟩ := typeAndData_panics broken
  rw [SessionDescription.readLine, if_neg long, parts]
  rfl

theorem refused_short {line : Text} (short : byteLength line < 2) : refused line = false := by
  rcases line with _ | ⟨c, _ | ⟨d, data⟩⟩
  · rfl
  · rfl
  · have positive := c.utf8Size_pos
    have positive' := d.utf8Size_pos
    simp [byteLength] at short
    omega

theorem readLine_returns (sdp : SessionDescription) {line : Text} (whole : cuttable line) :
    Returns (refused line) (sdp.readLine line) := by
  by_cases short : byteLength line < 2
  · rw [refused_short short, SessionDescription.readLine, if_pos short]
    exact ⟨sdp, rfl⟩
  · obtain ⟨c, d, data, rfl, parts⟩ := typeAndData_cuttable whole short
    rw [SessionDescription.readLine, if_neg short, parts]
    exact readData_returns sdp c data

theorem readLines_panics (sdp : SessionDescription) (lines : List Text) :
    lines.foldlM SessionDescription.readLine sdp = .error .panic ↔
      ∃ line ∈ reached lines, cuttable line = false := by
  induction lines generalizing sdp with
  | nil => simp [reached, pure, Except.pure]
  | cons line lines ih =>
    rw [List.foldlM_cons]
    cases whole : cuttable line with
    | false =>
      rw [readLine_broken sdp whole]
      refine ⟨fun _ => ⟨line, ?_, whole⟩, fun _ => rfl⟩
      unfold reached
      split <;> simp
    | true =>
      have returns := readLine_returns sdp whole
      unfold reached
      cases kind : refused line with
      | true =>
        rw [kind] at returns
        obtain ⟨fault, other, stop⟩ := returns
        rw [stop]
        constructor
        · intro panic
          exact absurd (Except.error.inj panic) other
        · rintro ⟨same, member, broken⟩
          have own : same = line := List.mem_singleton.mp (by simpa using member)
          rw [own, whole] at broken
          cases broken
      | false =>
        rw [kind] at returns
        obtain ⟨next, step⟩ := returns
        rw [step]
        refine (ih next).trans ?_
        simp [whole]

theorem readLines_isOk (sdp : SessionDescription) (lines : List Text) :
    (∃ last, lines.foldlM SessionDescription.readLine sdp = .ok last) ↔
      ∀ line ∈ lines, cuttable line ∧ refused line = false := by
  induction lines generalizing sdp with
  | nil => exact ⟨fun _ => by simp, fun _ => ⟨sdp, rfl⟩⟩
  | cons line lines ih =>
    rw [List.foldlM_cons, List.forall_mem_cons]
    cases whole : cuttable line with
    | false =>
      rw [readLine_broken sdp whole]
      constructor
      · rintro ⟨_, ⟨⟩⟩
      · rintro ⟨⟨⟨⟩, _⟩, _⟩
    | true =>
      have returns := readLine_returns sdp whole
      cases kind : refused line with
      | true =>
        rw [kind] at returns
        obtain ⟨fault, _, stop⟩ := returns
        rw [stop]
        constructor
        · rintro ⟨_, ⟨⟩⟩
        · rintro ⟨⟨_, ⟨⟩⟩, _⟩
      | false =>
        rw [kind] at returns
        obtain ⟨next, step⟩ := returns
        rw [step]
        exact (ih next).trans (by simp)

theorem reached_all {lines : List Text} (none_ : ∀ line ∈ lines, refused line = false) :
    reached lines = lines := by
  induction lines with
  | nil => rfl
  | cons line lines ih =>
    obtain ⟨own, later⟩ := List.forall_mem_cons.mp none_
    rw [reached, own, ih later]
    rfl

theorem readLines_ok (sdp : SessionDescription) (lines : List Text)
    (whole : ∀ line ∈ reached lines, cuttable line) :
    (∃ last, lines.foldlM SessionDescription.readLine sdp = .ok last) ↔
      ∀ line ∈ lines, refused line = false := by
  rw [readLines_isOk]
  constructor
  · intro good line member
    exact (good line member).2
  · intro none_ line member
    rw [reached_all none_] at whole
    exact ⟨whole line member, none_ line member⟩

end Lines

section Accessors

/-- Whether something panics; it is no error otherwise. -/
def Breaks {Result : Type} (bad : Bool) (result : Outcome Result) : Prop :=
  match bad with
  | true => result = .error .panic
  | false => ∃ value, result = .ok value

theorem Breaks.panics_iff {Result : Type} {bad : Bool} {result : Outcome Result}
    (breaks : Breaks bad result) : result = .error .panic ↔ bad = true := by
  cases bad with
  | true => exact ⟨fun _ => rfl, fun _ => breaks⟩
  | false =>
    obtain ⟨value, done⟩ := breaks
    rw [done]
    constructor
    · intro panic
      cases panic
    · intro bad
      cases bad

theorem Breaks.bind {First Second : Type} {bad worse : Bool} {result : Outcome First}
    {next : First → Outcome Second} (breaks : Breaks bad result)
    (later : ∀ value, Breaks worse (next value)) : Breaks (bad || worse) (result.bind next) := by
  cases bad with
  | true =>
    rw [show result = .error .panic from breaks]
    rfl
  | false =>
    obtain ⟨value, done⟩ := breaks
    rw [done]
    exact later value

theorem Breaks.map {First Second : Type} {bad : Bool} {result : Outcome First}
    (f : First → Second) (breaks : Breaks bad result) : Breaks bad (result.map f) := by
  cases bad with
  | true =>
    rw [show result = .error .panic from breaks]
    rfl
  | false =>
    obtain ⟨value, done⟩ := breaks
    rw [done]
    exact ⟨_, rfl⟩

theorem Breaks.fold {State Item : Type} {bad : Item → Bool} {step : State → Item → Outcome State}
    (steps : ∀ state item, Breaks (bad item) (step state item)) (items : List Item)
    (state : State) : Breaks (items.any bad) (items.foldlM step state) := by
  induction items generalizing state with
  | nil => exact ⟨state, rfl⟩
  | cons item items ih => exact (steps state item).bind fun next => ih next

theorem Breaks.each {Item Result : Type} {bad : Item → Bool} {f : Item → Outcome Result}
    (each : ∀ item, Breaks (bad item) (f item)) (items : List Item) :
    Breaks (items.any bad) (items.mapM f) := by
  induction items with
  | nil => exact ⟨[], rfl⟩
  | cons item items ih =>
    rw [List.mapM_cons]
    exact (each item).bind fun value => ih.map (value :: ·)

theorem after_front {front text : Text} (ascii : ∀ c ∈ front, c.utf8Size = 1)
    (starts : front.isPrefixOf text) : (dropBytes front.length text).isSome := by
  obtain ⟨rest, rfl⟩ := List.isPrefixOf_iff_prefix.mp starts
  rw [dropBytes_append rest ascii]
  rfl

theorem bundle_returns (sdp : SessionDescription) : Breaks false sdp.bundle := by
  unfold SessionDescription.bundle
  split
  · rename_i attr found
    have matched := List.find?_some found
    simp only [Bool.and_eq_true, decide_eq_true_eq, Option.any_eq_true] at matched
    obtain ⟨_, value, own, starts⟩ := matched
    obtain ⟨names, rest⟩ := Option.isSome_iff_exists.mp (after_front (by decide) starts)
    rw [own, Option.getD_some, show dropBytes 7 value = some names from rest]
    exact ⟨_, rfl⟩
  · exact ⟨none, rfl⟩

theorem readSsrc_returns (state : TrackState) (value : Text) : Breaks false (state.readSsrc value) := by
  unfold TrackState.readSsrc
  dsimp only
  split
  · exact ⟨_, rfl⟩
  · split
    · exact ⟨_, rfl⟩
    · split
      · rename_i msid trackId _
        split
        · rename_i starts
          obtain ⟨streamId, rest⟩ := Option.isSome_iff_exists.mp (after_front (by decide) starts)
          rw [show dropBytes 5 msid = some streamId from rest]
          exact ⟨_, rfl⟩
        · exact ⟨_, rfl⟩
      · exact ⟨_, rfl⟩

theorem readAttribute_returns (state : TrackState) (attr : Attribute) :
    Breaks false (state.readAttribute attr) := by
  unfold TrackState.readAttribute
  dsimp only
  split
  · exact ⟨_, rfl⟩
  · split
    · exact ⟨_, rfl⟩
    · split
      · exact readSsrc_returns state _
      · exact ⟨_, rfl⟩

theorem streamTrack_returns (media : MediaDescription) : Breaks false media.streamTrack := by
  have read := Breaks.fold readAttribute_returns media.attributes {}
  rw [List.any_eq_false.mpr fun _ _ => Bool.false_ne_true] at read
  exact read.map _

theorem cryptoFromStr_panics_iff (base64 : Text → Option Bytes) (value : Text) :
    Crypto.fromStr base64 value = .error .panic ↔ keyCuttable value = false := by
  unfold Crypto.fromStr keyCuttable
  generalize value.splitOn ' ' = parts
  rcases parts with _ | ⟨tag, _ | ⟨suite, _ | ⟨params, _ | ⟨_, rest⟩⟩⟩⟩
  iterate 3 simp
  · dsimp only
    cases readBelow (2 ^ 64) ((suite.splitOn '_').getLastD []) with
    | none => simp [orFault, Except.bind]
    | some bits =>
      cases dropBytes 7 ((params.splitOn '|').headD []) with
      | none => simp [orFault, Except.bind]
      | some encoded =>
        simp only [orFault, Except.bind]
        cases base64 encoded with
        | none => simp
        | some key =>
          dsimp only
          split <;> simp
  · simp

theorem cryptos_breaks (base64 : Text → Option Bytes) (media : MediaDescription) :
    Breaks (media.attributes.any fun attr => !attrCuttable attr) (media.cryptos base64) := by
  refine Breaks.fold (fun cryptos attr => ?_) media.attributes []
  unfold attrCuttable
  have panics := cryptoFromStr_panics_iff base64 (attr.value.getD [])
  by_cases own : attr.key = "crypto".toList
  · rw [if_pos own]
    cases whole : keyCuttable (attr.value.getD []) with
    | false =>
      rw [panics.mpr whole]
      simp [own, Breaks]
    | true =>
      have other : Crypto.fromStr base64 (attr.value.getD []) ≠ .error .panic := by
        rw [Ne, panics, whole]
        decide
      simp only [own, forall_const, decide_true, Bool.not_true]
      split
      · exact ⟨_, rfl⟩
      · exact absurd (by assumption) other
      · exact ⟨_, rfl⟩
  · rw [if_neg own]
    simp only [own, false_implies, decide_true, Bool.not_true]
    exact ⟨_, rfl⟩

theorem readings_breaks (base64 : Text → Option Bytes) (media : MediaDescription) :
    Breaks (media.attributes.any fun attr => !attrCuttable attr) (media.readings base64) := by
  have both := (cryptos_breaks base64 media).bind fun cryptos =>
    (streamTrack_returns media).map fun track : MediaStreamTrack =>
      ({ cryptos, rtpmaps := media.getRtpmaps, track, ice := extractIce media.attributes,
         dtls := extractDtls media.attributes } : MediaReadings)
  rw [Bool.or_false] at both
  exact both

theorem sessionReadings_breaks (base64 : Text → Option Bytes) (sdp : SessionDescription) :
    Breaks ((sdp.mediaDescriptions.flatMap MediaDescription.attributes).any fun attr =>
      !attrCuttable attr) (sdp.readings base64) := by
  rw [List.any_flatMap]
  exact (bundle_returns sdp).bind fun bundle =>
    (Breaks.each (readings_breaks base64) sdp.mediaDescriptions).map _

end Accessors

section Sessions

theorem addToLast_attributes (attr : Attribute) {medias : List MediaDescription}
    (some_ : medias ≠ []) : (addToLast attr medias).flatMap MediaDescription.attributes =
      medias.flatMap MediaDescription.attributes ++ [attr] := by
  fun_induction addToLast attr medias with
  | case1 => exact absurd rfl some_
  | case2 media => simp
  | case3 media next rest ih =>
    rw [List.flatMap_cons, ih (List.cons_ne_nil _ _), ← List.append_assoc, ← List.flatMap_cons]

theorem enter_attributes {state : Collected} {lines : List Entry} (fresh : Fresh lines)
    (some_ : state.2 ≠ []) :
    (lines.foldl enter state).2.flatMap MediaDescription.attributes =
      state.2.flatMap MediaDescription.attributes ++ lines.filterMap Entry.attribute? := by
  induction lines generalizing state with
  | nil => exact (List.append_nil _).symm
  | cons line lines ih =>
    have later : Fresh lines := fun media member => fresh media (.tail _ member)
    cases line with
    | attr attr =>
      have next := enter_section some_ attr
      rw [List.foldl_cons, ih later (by rw [next]; exact addToLast_ne_nil attr some_), next,
        addToLast_attributes attr some_, List.append_assoc]
      rfl
    | media read =>
      cases read with
      | none => exact ih later some_
      | some media =>
        have empty : media.attributes = [] := fresh media List.mem_cons_self
        have more : (enter state (.media (some media))).2 ≠ [] :=
          List.append_ne_nil_of_left_ne_nil some_ _
        rw [List.foldl_cons, ih later more]
        have added : (enter state (.media (some media))).2 = state.2 ++ [media] := rfl
        rw [added, List.flatMap_append, List.flatMap_singleton, empty, List.append_nil]
        rfl

theorem enter_claimed {attrs : List Attribute} {lines : List Entry} (fresh : Fresh lines) :
    (lines.foldl enter (attrs, [])).2.flatMap MediaDescription.attributes = claimed lines := by
  induction lines generalizing attrs with
  | nil => rfl
  | cons line lines ih =>
    have later : Fresh lines := fun media member => fresh media (.tail _ member)
    cases line with
    | attr attr => exact ih later
    | media read =>
      cases read with
      | none => exact ih later
      | some media =>
        have empty : media.attributes = [] := fresh media List.mem_cons_self
        have whole := @enter_attributes (attrs, [media]) lines later (List.cons_ne_nil _ _)
        rw [List.flatMap_singleton, empty] at whole
        exact whole

theorem fromStr_claimed {s : Text} {sdp : SessionDescription}
    (run : SessionDescription.fromStr s = .ok sdp) :
    sdp.mediaDescriptions.flatMap MediaDescription.attributes = claimed (entries s) := by
  have collected := congrArg Prod.snd (fromStr_collects run)
  rw [show sdp.mediaDescriptions = _ from collected]
  exact enter_claimed (entries_fresh s)

theorem any_not_iff (attrs : List Attribute) :
    (attrs.any fun attr => !attrCuttable attr) = true ↔ ¬ ∀ attr ∈ attrs, attrCuttable attr := by
  simp

theorem readSession_panics_iff (base64 : Text → Option Bytes) (s : Text) :
    readSession base64 s = .error .panic ↔ ¬ SessionReadable s := by
  have panics : SessionDescription.fromStr s = .error .panic ↔ _ :=
    readLines_panics {} (splitPair '\r' '\n' s)
  have reads := readLines_ok {} (splitPair '\r' '\n' s)
  unfold readSession SessionReadable
  by_cases whole : ∀ line ∈ reached (splitPair '\r' '\n' s), cuttable line
  · by_cases good : ∀ line ∈ splitPair '\r' '\n' s, refused line = false
    · obtain ⟨sdp, run⟩ : ∃ sdp, SessionDescription.fromStr s = .ok sdp := (reads whole).mpr good
      rw [run]
      refine (sessionReadings_breaks base64 sdp).panics_iff.trans ?_
      rw [any_not_iff, fromStr_claimed run]
      exact not_congr ⟨fun all => ⟨whole, fun _ => all⟩, fun both => both.2 good⟩
    · cases run : SessionDescription.fromStr s with
      | ok sdp => exact absurd ((reads whole).mp ⟨sdp, run⟩) good
      | error fault =>
        refine ⟨fun panic => ?_, fun bad => absurd ⟨whole, fun all => absurd all good⟩ bad⟩
        obtain rfl := Except.error.inj panic
        obtain ⟨line, member, broken⟩ := panics.mp run
        rw [whole line member] at broken
        cases broken
  · have broken : ∃ line ∈ reached (splitPair '\r' '\n' s), cuttable line = false := by
      simpa using whole
    rw [panics.mpr broken]
    exact ⟨fun _ both => whole both.1, fun _ => rfl⟩

end Sessions

section Medias

theorem mediaReadLine_breaks (media : MediaDescription) (line : Text) :
    Breaks (!cuttable line) (media.readLine line) := by
  cases whole : cuttable line with
  | false =>
    obtain ⟨long, parts⟩ := typeAndData_panics whole
    rw [MediaDescription.readLine, if_neg long, parts]
    rfl
  | true =>
    by_cases short : byteLength line < 2
    · rw [MediaDescription.readLine, if_pos short]
      exact ⟨_, rfl⟩
    · obtain ⟨c, d, data, _, parts⟩ := typeAndData_cuttable whole short
      rw [MediaDescription.readLine, if_neg short, parts]
      exact ⟨_, rfl⟩

theorem mediaReadLine_attributes {media next : MediaDescription} {line : Text}
    (run : media.readLine line = .ok next) : next.attributes =
      media.attributes ++ ((entryOf line).bind Entry.attribute?).toList := by
  unfold MediaDescription.readLine at run
  unfold entryOf
  by_cases short : byteLength line < 2
  · rw [if_pos short] at run ⊢
    obtain rfl := Except.ok.inj run
    exact (List.append_nil _).symm
  · rw [if_neg short] at run ⊢
    cases found : typeAndData line with
    | error fault => rw [found] at run; cases run
    | ok parts =>
      rw [found] at run
      obtain rfl := Except.ok.inj run
      by_cases own : parts.1.toLower = 'a'
      · simp [own, Except.toOption, entryOfData, Entry.attribute?]
      · simp only [own, if_false, Except.toOption, entryOfData, Option.bind_some]
        split
        · exact absurd (by assumption) own
        · exact (List.append_nil _).symm
        · exact (List.append_nil _).symm

theorem mediaReadLines_attributes {media last : MediaDescription} {lines : List Text}
    (run : lines.foldlM MediaDescription.readLine media = .ok last) : last.attributes =
      media.attributes ++ lines.filterMap fun line => (entryOf line).bind Entry.attribute? := by
  induction lines generalizing media with
  | nil =>
    obtain rfl := Except.ok.inj run
    simp
  | cons line lines ih =>
    rw [List.foldlM_cons] at run
    cases first : media.readLine line with
    | error fault => rw [first] at run; cases run
    | ok next =>
      rw [first] at run
      rw [ih run, mediaReadLine_attributes first, List.append_assoc, List.filterMap_cons]
      cases (entryOf line).bind Entry.attribute? <;> rfl

theorem orFault_ne_panic {Result : Type} {fault : Fault} (other : fault ≠ .panic)
    (found : Option Result) : orFault fault found ≠ .error .panic := by
  cases found with
  | none => exact fun panic => other (Except.error.inj panic)
  | some result => exact fun panic => by cases panic

theorem bind_ne_panic {First Second : Type} {result : Outcome First}
    {next : First → Outcome Second} (first : result ≠ .error .panic)
    (later : ∀ value, next value ≠ .error .panic) : result.bind next ≠ .error .panic := by
  cases result with
  | error fault => exact fun panic => first (congrArg _ (Except.error.inj panic))
  | ok value => exact later value

theorem map_ne_panic {First Second : Type} {result : Outcome First} (f : First → Second)
    (first : result ≠ .error .panic) : result.map f ≠ .error .panic := by
  cases result with
  | error fault => exact fun panic => first (congrArg _ (Except.error.inj panic))
  | ok value => exact fun panic => by cases panic

theorem readPorts_ne_panic (text : Text) : readPorts text ≠ .error .panic := by
  unfold readPorts
  refine bind_ne_panic (orFault_ne_panic (by decide) _) fun port => ?_
  split
  · exact map_ne_panic _ (orFault_ne_panic (by decide) _)
  · exact fun panic => by cases panic

theorem parseMedia_ne_panic (data : Text) : parseMedia data ≠ .error .panic := by
  unfold parseMedia
  split
  · exact bind_ne_panic (orFault_ne_panic (by decide) _) fun mediaType =>
      map_ne_panic _ (readPorts_ne_panic _)
  · decide

theorem readMedia_panics_iff (base64 : Text → Option Bytes) (s : Text) :
    readMedia base64 s = .error .panic ↔ ¬ MediaReadable s := by
  unfold readMedia MediaDescription.fromStr MediaReadable
  generalize splitPair '\r' '\n' s = lines
  fun_cases MediaLinesReadable lines with
  | case1 data rest =>
    change ((parseMedia data).bind (rest.foldlM MediaDescription.readLine)).bind _ = _ ↔ _
    cases read : parseMedia data with
    | error fault =>
      have other : fault ≠ .panic := fun same => parseMedia_ne_panic data (same ▸ read)
      constructor
      · intro panic
        exact absurd (Except.error.inj panic) other
      · intro bad
        exact (bad fun found => by cases found).elim
    | ok media =>
      have steps := Breaks.fold mediaReadLine_breaks rest media
      change (rest.foldlM MediaDescription.readLine media).bind _ = _ ↔ _
      simp only [Except.toOption, Option.isSome_some, forall_const]
      cases broken : rest.any fun line => !cuttable line with
      | true =>
        rw [broken] at steps
        rw [show rest.foldlM MediaDescription.readLine media = .error .panic from steps]
        obtain ⟨line, member, uncut⟩ := List.any_eq_true.mp broken
        refine ⟨fun _ all => ?_, fun _ => rfl⟩
        rw [(all line member).1] at uncut
        cases uncut
      | false =>
        rw [broken] at steps
        obtain ⟨last, run⟩ := steps
        have attrs := mediaReadLines_attributes run
        rw [parseMedia_attributes read, List.nil_append] at attrs
        have whole : ∀ line ∈ rest, cuttable line := by simpa using broken
        rw [run]
        refine (readings_breaks base64 last).panics_iff.trans ?_
        rw [any_not_iff, attrs]
        refine not_congr ⟨fun all line member => ⟨whole line member, fun attr own => ?_⟩, ?_⟩
        · exact all attr (List.mem_filterMap.mpr ⟨line, member, own⟩)
        · intro all attr member
          obtain ⟨line, among, own⟩ := List.mem_filterMap.mp member
          exact (all line among).2 attr own
  | case2 =>
    split
    · rename_i other
      exact (other _ _ rfl).elim
    · constructor
      · intro panic
        cases panic
      · intro bad
        exact absurd trivial bad

/-- The parsers and the accessors return for a text exactly where both kinds of cuts are
    possible: the lines behind their first two bytes, the keys behind their first seven. -/
theorem parsing_returns_iff (base64 : Text → Option Bytes) (s : Text) :
    (readSession base64 s ≠ .error .panic ↔ SessionReadable s) ∧
      (readMedia base64 s ≠ .error .panic ↔ MediaReadable s) := by
  constructor
  · rw [Ne, readSession_panics_iff, not_not]
  · rw [Ne, readMedia_panics_iff, not_not]

/-- A key parameter that is shorter than its prefix. -/
def shortKey : Text := "m=audio 9 RTP/AVP 0\r\na=crypto:1 AES_CM_128_HMAC_SHA1_80 key".toList

theorem shortKey_panics : ¬ ∀ (base64 : Text → Option Bytes) (s : Text),
    readSession base64 s ≠ .error .panic ∧ readMedia base64 s ≠ .error .panic := by
  intro returns
  refine (returns (fun _ => none) shortKey).1 ((readSession_panics_iff _ _).mpr ?_)
  intro readable
  have whole := readable.2 (by decide +kernel)
  exact absurd whole (by decide +kernel)

end Medias

end Sdp
