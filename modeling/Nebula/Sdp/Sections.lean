import Nebula.Sdp.Description

/- The attribute lines of a session description by the section they stand in, and the
   descriptions that the parser gives them to. -/
namespace Sdp
open TextScan TextParts
open SipText (Text byteLength)

section Lines

/-- What a line is to its section: an attribute, or the start of the next section with what
    the parser makes of it. -/
inductive Entry where
  | attr (attr : Attribute)
  | media (read : Option MediaDescription)
  deriving DecidableEq

def entryOfData (descType : Char) (data : Text) : Option Entry :=
  match descType.toLower with
  | 'a' => some (.attr (Attribute.read data))
  | 'm' => some (.media (parseMedia data).toOption)
  | _ => none

def entryOf (line : Text) : Option Entry :=
  if byteLength line < 2 then none
  else (typeAndData line).toOption.bind fun parts => entryOfData parts.1 parts.2

def entries (s : Text) : List Entry := (splitPair '\r' '\n' s).filterMap entryOf

/-- The attributes before the first section, then each section with the attributes up to the
    next. -/
def sections : List Entry → List Attribute × List (Option MediaDescription × List Attribute)
  | [] => ([], [])
  | .attr attr :: rest => (attr :: (sections rest).1, (sections rest).2)
  | .media read :: rest => ([], (read, (sections rest).1) :: (sections rest).2)

/-- A description of each section that was read, with the attributes of that section. -/
def described (parts : List (Option MediaDescription × List Attribute)) :
    List MediaDescription :=
  parts.filterMap fun part => part.1.map fun media => { media with attributes := part.2 }

def OwnAttributes (s : Text) (sdp : SessionDescription) : Prop :=
  sdp.attributes = (sections (entries s)).1 ∧
    sdp.mediaDescriptions = described (sections (entries s)).2

instance decidableOwnAttributes (s : Text) (sdp : SessionDescription) :
    Decidable (OwnAttributes s sdp) :=
  inferInstanceAs (Decidable (_ ∧ _))

end Lines

section Views
variable {View Item : Type}

def itemOf (ofData : Char → Text → Option Item) (line : Text) : Option Item :=
  if byteLength line < 2 then none
  else (typeAndData line).toOption.bind fun parts => ofData parts.1 parts.2

/-- What a description shows after all lines is made up item by item, where each line that is
    read makes it up so. -/
theorem readLines_view {view : SessionDescription → View} {ofData : Char → Text → Option Item}
    {act : View → Item → View}
    (each : ∀ {sdp next : SessionDescription} {descType : Char} {data : Text},
      sdp.readData descType data = .ok next →
        view next = (ofData descType data).elim (view sdp) (act (view sdp)))
    {sdp last : SessionDescription} {lines : List Text}
    (run : lines.foldlM SessionDescription.readLine sdp = .ok last) :
    view last = (lines.filterMap (itemOf ofData)).foldl act (view sdp) := by
  induction lines generalizing sdp with
  | nil =>
    obtain rfl := Except.ok.inj run
    rfl
  | cons line lines ih =>
    rw [List.foldlM_cons] at run
    cases first : sdp.readLine line with
    | error fault => rw [first] at run; cases run
    | ok next =>
      rw [first] at run
      have step : view next = (itemOf ofData line).elim (view sdp) (act (view sdp)) := by
        unfold SessionDescription.readLine at first
        unfold itemOf
        by_cases short : byteLength line < 2
        · rw [if_pos short] at first ⊢
          obtain rfl := Except.ok.inj first
          rfl
        · rw [if_neg short] at first ⊢
          cases found : typeAndData line with
          | error fault => rw [found] at first; cases first
          | ok parts =>
            rw [found] at first
            exact each first
      rw [ih run, step]
      cases item : itemOf ofData line with
      | none => rw [List.filterMap_cons_none item]; rfl
      | some item_ => rw [List.filterMap_cons_some item]; rfl

end Views

section Collecting

abbrev Collected := List Attribute × List MediaDescription

def enter (state : Collected) : Entry → Collected
  | .attr attr =>
    if state.2 = [] then (state.1 ++ [attr], state.2) else (state.1, addToLast attr state.2)
  | .media (some media) => (state.1, state.2 ++ [media])
  | .media none => state

def SessionDescription.collected (sdp : SessionDescription) : Collected :=
  (sdp.attributes, sdp.mediaDescriptions)

theorem enter_session {state : Collected} (first : state.2 = []) (attr : Attribute) :
    enter state (.attr attr) = (state.1 ++ [attr], state.2) :=
  if_pos first

theorem enter_section {state : Collected} (later : state.2 ≠ []) (attr : Attribute) :
    enter state (.attr attr) = (state.1, addToLast attr state.2) :=
  if_neg later

theorem readData_enters {sdp next : SessionDescription} {descType : Char} {data : Text}
    (run : sdp.readData descType data = .ok next) :
    next.collected = (entryOfData descType data).elim sdp.collected (enter sdp.collected) := by
  unfold SessionDescription.readData at run
  unfold entryOfData
  generalize descType.toLower = letter at run ⊢
  split at run
  · obtain rfl := Except.ok.inj run
    rfl
  · obtain rfl := Except.ok.inj run
    rfl
  · cases origin : Origin.fromStr data with
    | error fault => rw [origin] at run; cases run
    | ok origin_ =>
      rw [origin] at run
      obtain rfl := Except.ok.inj run
      rfl
  · split at run
    · rename_i start stop _
      cases first : DecimalText.readInt32 start with
      | none => rw [first] at run; cases run
      | some timeStart =>
        cases second : DecimalText.readInt32 stop with
        | none => rw [first, second] at run; cases run
        | some timeStop =>
          rw [first, second] at run
          obtain rfl := Except.ok.inj run
          rfl
    · cases run
  · split at run
    · rename_i media read
      obtain rfl := Except.ok.inj run
      rw [read]
      rfl
    · rename_i fault read
      obtain rfl := Except.ok.inj run
      rw [read]
      rfl
  · split at run
    · obtain rfl := Except.ok.inj run
      rfl
    · cases run
  · split at run
    · rename_i first
      obtain rfl := Except.ok.inj run
      exact (@enter_session sdp.collected first _).symm
    · rename_i later
      obtain rfl := Except.ok.inj run
      exact (@enter_section sdp.collected later _).symm
  · rename_i other
    obtain rfl := Except.ok.inj run
    split
    · exact absurd rfl (by assumption)
    · exact absurd rfl (by assumption)
    · rfl

theorem readLines_collects {sdp last : SessionDescription} {lines : List Text}
    (run : lines.foldlM SessionDescription.readLine sdp = .ok last) :
    last.collected = (lines.filterMap entryOf).foldl enter sdp.collected :=
  readLines_view readData_enters run

end Collecting

section Tally

/-- How many attributes there are, in all the places. -/
def tally (state : Collected) : Nat :=
  state.1.length + (state.2.map fun media => media.attributes.length).sum

theorem addToLast_tally (attr : Attribute) {medias : List MediaDescription} (some_ : medias ≠ []) :
    ((addToLast attr medias).map fun media => media.attributes.length).sum =
      (medias.map fun media => media.attributes.length).sum + 1 := by
  fun_induction addToLast attr medias with
  | case1 => exact absurd rfl some_
  | case2 media => simp
  | case3 media next rest ih =>
    have inner := ih (List.cons_ne_nil _ _)
    simp only [List.map_cons, List.sum_cons] at inner ⊢
    omega

def Entry.isAttribute : Entry → Bool
  | attr _ => true
  | media _ => false

/-- A section that is read has no attributes yet. -/
def Fresh (lines : List Entry) : Prop :=
  ∀ media, Entry.media (some media) ∈ lines → media.attributes = []

theorem enter_tally {state : Collected} {lines : List Entry} (fresh : Fresh lines) :
    tally (lines.foldl enter state) = tally state + lines.countP Entry.isAttribute := by
  induction lines generalizing state with
  | nil => rfl
  | cons line lines ih =>
    rw [List.foldl_cons, ih fun media member => fresh media (.tail _ member), List.countP_cons]
    cases line with
    | attr attr =>
      by_cases first : state.2 = []
      · rw [enter_session first]
        simp [tally, Entry.isAttribute]
        omega
      · rw [enter_section first, tally, addToLast_tally attr first]
        simp [tally, Entry.isAttribute]
        omega
    | media read =>
      cases read with
      | none => rfl
      | some media =>
        have none_ := fresh media List.mem_cons_self
        simp [tally, enter, none_, Entry.isAttribute]

/-- The attributes of the sections that were not read. -/
def lost (parts : List (Option MediaDescription × List Attribute)) : List Attribute :=
  (parts.filter fun part => part.1.isNone).flatMap Prod.snd

theorem sections_tally (lines : List Entry) :
    lines.countP Entry.isAttribute = (sections lines).1.length + (lost (sections lines).2).length +
      ((described (sections lines).2).map fun media => media.attributes.length).sum := by
  induction lines with
  | nil => rfl
  | cons line lines ih =>
    rw [List.countP_cons, ih]
    cases line with
    | attr attr =>
      simp only [sections, Entry.isAttribute, if_true, List.length_cons]
      omega
    | media read =>
      cases read with
      | none =>
        simp [sections, lost, described, Entry.isAttribute]
      | some media =>
        simp [sections, lost, described, Entry.isAttribute]
        omega

end Tally

section Ownership

/-- Attributes that follow what was collected. -/
def give (state : Collected) (attrs : List Attribute) : Collected :=
  attrs.foldl (fun state attr => enter state (.attr attr)) state

theorem addToLast_ne_nil (attr : Attribute) {medias : List MediaDescription}
    (some_ : medias ≠ []) : addToLast attr medias ≠ [] := by
  fun_cases addToLast attr medias with
  | case1 => exact absurd rfl some_
  | case2 media => simp
  | case3 media next rest => simp

theorem give_session (attrs more : List Attribute) : give (attrs, []) more = (attrs ++ more, []) := by
  induction more generalizing attrs with
  | nil => simp [give]
  | cons attr more ih =>
    have first := ih (attrs ++ [attr])
    rw [List.append_assoc] at first
    exact first

def MediaDescription.add (media : MediaDescription) (more : List Attribute) : MediaDescription :=
  { media with attributes := media.attributes ++ more }

theorem MediaDescription.add_nil (media : MediaDescription) : media.add [] = media := by
  simp [add]

theorem MediaDescription.add_add (media : MediaDescription) (first second : List Attribute) :
    (media.add first).add second = media.add (first ++ second) := by
  simp [add]

theorem addToLast_concat (attr : Attribute) (before : List MediaDescription)
    (media : MediaDescription) :
    addToLast attr (before ++ [media]) = before ++ [media.add [attr]] := by
  induction before with
  | nil => rfl
  | cons head before ih =>
    cases before with
    | nil => rfl
    | cons next before =>
      rw [List.cons_append, List.cons_append, addToLast, ← List.cons_append, ih]
      rfl

theorem give_section (attrs : List Attribute) (before : List MediaDescription)
    (media : MediaDescription) (more : List Attribute) :
    give (attrs, before ++ [media]) more = (attrs, before ++ [media.add more]) := by
  induction more generalizing media with
  | nil => rw [media.add_nil]; rfl
  | cons attr more ih =>
    have first := ih (media.add [attr])
    rw [MediaDescription.add_add, ← addToLast_concat] at first
    have start : enter (attrs, before ++ [media]) (.attr attr) =
        (attrs, addToLast attr (before ++ [media])) :=
      enter_section (List.append_ne_nil_of_right_ne_nil before (List.cons_ne_nil _ _)) attr
    rw [give, List.foldl_cons, start]
    exact first

/-- Where no section that is passed over has attributes, each attribute comes to its own. -/
theorem enter_owned {state : Collected} {lines : List Entry} (fresh : Fresh lines)
    (none_ : lost (sections lines).2 = []) :
    lines.foldl enter state = ((give state (sections lines).1).1,
      (give state (sections lines).1).2 ++ described (sections lines).2) := by
  induction lines generalizing state with
  | nil => exact Prod.ext rfl (List.append_nil _).symm
  | cons line lines ih =>
    have later : Fresh lines := fun media member => fresh media (.tail _ member)
    cases line with
    | attr attr => exact ih later none_
    | media read =>
      cases read with
      | none =>
        have both : (sections lines).1 ++ lost (sections lines).2 = [] := none_
        obtain ⟨front, rest⟩ := List.append_eq_nil_iff.mp both
        have inner := @ih state later rest
        rw [front] at inner
        exact inner
      | some media =>
        have empty : media.attributes = [] := fresh media List.mem_cons_self
        have own : media.add (sections lines).1 =
            { media with attributes := (sections lines).1 } := by
          rw [MediaDescription.add, empty, List.nil_append]
        have inner := @ih (enter state (.media (some media))) later none_
        have given : give (enter state (.media (some media))) (sections lines).1 =
            (state.1, state.2 ++ [media.add (sections lines).1]) := give_section _ _ _ _
        rw [given, own, List.append_assoc] at inner
        exact inner

theorem lost_eq_nil_iff (parts : List (Option MediaDescription × List Attribute)) :
    lost parts = [] ↔ ∀ part ∈ parts, part.1 = none → part.2 = [] := by
  simp only [lost, List.flatMap_eq_nil_iff, List.mem_filter, Option.isNone_iff_eq_none, and_imp]

theorem parseMedia_attributes {data : Text} {media : MediaDescription}
    (read : parseMedia data = .ok media) : media.attributes = [] := by
  unfold parseMedia at read
  split at read
  · rename_i kind ports proto rest _
    cases mediaType : MediaType.fromStr (SipText.lowercase kind) with
    | none => rw [mediaType] at read; cases read
    | some mediaType_ =>
      rw [mediaType] at read
      cases port : readPorts ports with
      | error fault => rw [port] at read; cases read
      | ok port_ =>
        rw [port] at read
        obtain rfl := Except.ok.inj read
        rfl
  · cases read

theorem entries_fresh (s : Text) : Fresh (entries s) := by
  intro media member
  obtain ⟨line, _, entry⟩ := List.mem_filterMap.mp member
  unfold entryOf at entry
  split at entry
  · cases entry
  · obtain ⟨parts, _, own⟩ := Option.bind_eq_some_iff.mp entry
    unfold entryOfData at own
    split at own
    · cases own
    · cases read : parseMedia parts.2 with
      | error fault => rw [read] at own; cases own
      | ok found =>
        rw [read] at own
        obtain rfl : found = media := by simpa [Except.toOption] using own
        exact parseMedia_attributes read
    · cases own

theorem fromStr_collects {s : Text} {sdp : SessionDescription}
    (run : SessionDescription.fromStr s = .ok sdp) :
    sdp.collected = (entries s).foldl enter ([], []) :=
  readLines_collects run

/-- The attributes come to their own sections exactly where the sections that the parser passes
    over have none: theirs go to whatever was read before. -/
theorem ownAttributes_iff {s : Text} {sdp : SessionDescription}
    (run : SessionDescription.fromStr s = .ok sdp) :
    OwnAttributes s sdp ↔
      ∀ part ∈ (sections (entries s)).2, part.1 = none → part.2 = [] := by
  have collected := fromStr_collects run
  have fresh := entries_fresh s
  rw [← lost_eq_nil_iff]
  constructor
  · rintro ⟨session, medias⟩
    have counted : tally sdp.collected = (entries s).countP Entry.isAttribute := by
      rw [collected, enter_tally fresh]
      simp [tally]
    have parts := sections_tally (entries s)
    rw [tally, SessionDescription.collected, session, medias] at counted
    have nothing : (lost (sections (entries s)).2).length = 0 := by
      simp only at counted
      omega
    exact List.length_eq_zero_iff.mp nothing
  · intro nothing
    rw [enter_owned fresh nothing, give_session] at collected
    exact ⟨congrArg Prod.fst collected, congrArg Prod.snd collected⟩

def twoSections : Text :=
  "a=group:BUNDLE audio\r\nm=audio 9 RTP/AVP 0\r\na=mid:audio\r\nm=video 9 RTP/AVP 96\r\na=mid:video".toList

theorem twoSections_owned : ∃ sdp, SessionDescription.fromStr twoSections = .ok sdp ∧
    OwnAttributes twoSections sdp := by
  have good : (SessionDescription.fromStr twoSections).toOption.isSome := by decide +kernel
  cases found : SessionDescription.fromStr twoSections with
  | error fault => rw [found] at good; cases good
  | ok sdp => exact ⟨sdp, rfl, (ownAttributes_iff found).mpr (by decide +kernel)⟩

/-- The attributes of a data channel, which is passed over, go to the audio before it. -/
def dataChannel : Text :=
  "m=audio 9 RTP/AVP 0\r\na=mid:audio\r\nm=application 9 UDP/DTLS/SCTP 5000\r\na=mid:data".toList

theorem dataChannel_spills :
    ¬ ∀ s sdp, SessionDescription.fromStr s = .ok sdp → OwnAttributes s sdp := by
  intro owned
  have run : (SessionDescription.fromStr dataChannel).toOption.any fun sdp =>
      !decide (OwnAttributes dataChannel sdp) := by decide +kernel
  cases found : SessionDescription.fromStr dataChannel with
  | error fault => rw [found] at run; cases run
  | ok sdp =>
    rw [found] at run
    have own := owned dataChannel sdp found
    rw [Except.toOption, Option.any_some, decide_eq_true own] at run
    cases run

end Ownership

end Sdp
