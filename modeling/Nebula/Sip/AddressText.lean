import Nebula.Sip.UriRoundTrip

/- Addresses and Via entries of SIP messages as texts, and when the text they are
   printed as is read as the same. -/
namespace SipText
open Sip (TransportType)
open TextScan DecimalText

structure Address where
  displayName : Text := []
  uri : Uri := {}
  tag : Option Text := none
  params : IndexMap Text (Option Text) := .empty
  expires : Option Int32 := none
  deriving DecidableEq

section Pattern

def nameChar (c : Char) : Bool := c.isAlphanum || "-._+~ \t".toList.contains c

def spaceOrTab (c : Char) : Bool := c = ' ' || c = '\t'

structure AddressCaptures where
  name : Text
  uri : Text
  params : Option Text

/-- The group that may follow the URI; what follows the group does not matter. -/
def trailing (text : Text) : Option Text := (strip ';' text).map (·.takeWhile (· != '?'))

/-- A URI in angle brackets. -/
def angled (name text : Text) : Option AddressCaptures :=
  (strip '<' text).bind fun rest =>
    if (rest.takeWhile (· != '>')).isEmpty then none
    else
      (strip '>' (rest.dropWhile (· != '>'))).map fun after =>
        ⟨name, rest.takeWhile (· != '>'), trailing after⟩

def plainName (s : Text) : Option AddressCaptures :=
  angled (s.takeWhile nameChar) (s.dropWhile nameChar)

def quotedName (s : Text) : Option AddressCaptures :=
  (strip '"' s).bind fun rest =>
    if (rest.takeWhile (· != '"')).isEmpty then none
    else
      (strip '"' (rest.dropWhile (· != '"'))).bind fun after =>
        angled (rest.takeWhile (· != '"')) (after.dropWhile spaceOrTab)

/-- A URI without brackets; where nothing but spaces stands before the semicolon, the
    last of them is taken as the URI. -/
def noBrackets (s : Text) : Option AddressCaptures :=
  let rest := s.dropWhile spaceOrTab
  if (rest.takeWhile (· != ';')).isEmpty then
    (s.takeWhile spaceOrTab).getLast?.map fun c => ⟨[], [c], trailing rest⟩
  else some ⟨[], rest.takeWhile (· != ';'), trailing (rest.dropWhile (· != ';'))⟩

/-- ADDRESS_REGEX: the first of the three patterns that matches. -/
def addressCaptures (s : Text) : Option AddressCaptures :=
  (plainName s).or ((quotedName s).or (noBrackets s))

end Pattern

section Reading

def Address.setParam (address : Address) (name : Text) (value : Option Text) : Address :=
  if name.isEmpty then address
  else if name = "tag".toList then { address with tag := value }
  else if name = "expires".toList then { address with expires := value.bind readInt32 }
  else { address with params := address.params.insert name value }

def Address.readParam (address : Address) (part : Text) : Address :=
  address.setParam (cut '=' part).1 (cut '=' part).2

/-- Once a pattern matches, a bad URI is an error. -/
def Address.fromStr (form : FormUrlencoded) (s : Text) : Option Address :=
  (addressCaptures s).bind fun found =>
    (Uri.fromStr form found.uri).map fun uri =>
      (found.params.elim [] (List.splitOn ';')).foldl Address.readParam
        { displayName := found.name, uri }

end Reading

section Printing

/-- The tag and the expiry are printed, other parameters are not. -/
def Address.paramParts (address : Address) : List Text :=
  address.tag.elim [] (fun tag => ["tag=".toList ++ tag]) ++
    address.expires.elim [] (fun expires => ["expires=".toList ++ signed expires.toInt])

def Address.nameText (address : Address) : Text :=
  if address.displayName.isEmpty then [] else '"' :: (address.displayName ++ "\" ".toList)

def Address.toText (form : FormUrlencoded) (address : Address) : Text :=
  address.nameText ++
    '<' :: (address.uri.toText form ++ '>' :: address.paramParts.flatMap (';' :: ·))

end Printing

section Formed

/-- What an address that was read from a text looks like. -/
structure Address.Formed (address : Address) : Prop where
  name : '"' ∉ address.displayName
  uri : address.uri.Formed
  tag : ∀ tag ∈ address.tag, ';' ∉ tag ∧ '?' ∉ tag

/-- The groups of a match, as parts of the text. -/
structure AddressCaptures.Inside (found : AddressCaptures) (s : Text) : Prop where
  quote : '"' ∉ found.name
  name : found.name ⊆ s
  uri : found.uri ⊆ s
  params : ∀ params ∈ found.params, '?' ∉ params ∧ params ⊆ s

theorem AddressCaptures.Inside.mono {found : AddressCaptures} {s t : Text} (inside : found.Inside s)
    (more : s ⊆ t) : found.Inside t :=
  ⟨inside.quote, List.Subset.trans inside.name more, List.Subset.trans inside.uri more,
    fun params same => ⟨(inside.params params same).1, List.Subset.trans (inside.params params same).2 more⟩⟩

theorem trailing_inside {text params : Text} (group : params ∈ trailing text) :
    '?' ∉ params ∧ params ⊆ text := by
  obtain ⟨rest, start, rfl⟩ := Option.map_eq_some_iff.mp group
  rw [strip_eq_some.mp start]
  refine ⟨fun member => ?_, fun c member => ?_⟩
  · simpa using List.mem_takeWhile_imp member
  · exact List.mem_cons_of_mem _ ((List.takeWhile_sublist _).subset member)

theorem angled_some {name text : Text} {found : AddressCaptures}
    (matched : angled name text = some found) :
    found.name = name ∧ '>' ∉ found.uri ∧ found.uri ⊆ text ∧
      ∀ params ∈ found.params, '?' ∉ params ∧ params ⊆ text := by
  obtain ⟨rest, start, inner⟩ := Option.bind_eq_some_iff.mp matched
  have later : rest ⊆ text := by
    rw [strip_eq_some.mp start]
    exact List.subset_cons_self _ _
  split at inner
  · cases inner
  · obtain ⟨after, ends, rfl⟩ := Option.map_eq_some_iff.mp inner
    refine ⟨rfl, fun member => ?_, List.Subset.trans (List.takeWhile_sublist _).subset later,
      fun params same => ?_⟩
    · simpa using List.mem_takeWhile_imp member
    · obtain ⟨absent, within⟩ := trailing_inside same
      refine ⟨absent, fun c member => later ?_⟩
      have there := List.mem_cons_of_mem '>' (within member)
      rw [← strip_eq_some.mp ends] at there
      exact (List.dropWhile_sublist _).subset there

theorem angled_inside {name text s : Text} {found : AddressCaptures}
    (matched : angled name text = some found) (quote : '"' ∉ name) (named : name ⊆ s)
    (more : text ⊆ s) : found.Inside s := by
  obtain ⟨same, _, uri, params⟩ := angled_some matched
  exact ⟨same ▸ quote, same ▸ named, List.Subset.trans uri more,
    fun group there => ⟨(params group there).1, List.Subset.trans (params group there).2 more⟩⟩

theorem plainName_inside {s : Text} {found : AddressCaptures} (matched : plainName s = some found) :
    found.Inside s := by
  refine angled_inside matched (fun member => ?_) (List.takeWhile_sublist _).subset
    (List.dropWhile_sublist _).subset
  exact absurd (List.mem_takeWhile_imp member) (by decide)

theorem quotedName_inside {s : Text} {found : AddressCaptures}
    (matched : quotedName s = some found) : found.Inside s := by
  obtain ⟨rest, start, inner⟩ := Option.bind_eq_some_iff.mp matched
  have later : rest ⊆ s := by
    rw [strip_eq_some.mp start]
    exact List.subset_cons_self _ _
  split at inner
  · cases inner
  · obtain ⟨after, ends, angles⟩ := Option.bind_eq_some_iff.mp inner
    refine angled_inside angles (fun member => ?_) (List.Subset.trans (List.takeWhile_sublist _).subset later) ?_
    · simpa using List.mem_takeWhile_imp member
    · intro c member
      have there := List.mem_cons_of_mem '"' ((List.dropWhile_sublist _).subset member)
      rw [← strip_eq_some.mp ends] at there
      exact later ((List.dropWhile_sublist _).subset there)

theorem noBrackets_inside {s : Text} {found : AddressCaptures}
    (matched : noBrackets s = some found) : found.Inside s := by
  have later : s.dropWhile spaceOrTab ⊆ s := (List.dropWhile_sublist _).subset
  unfold noBrackets at matched
  simp only at matched
  split at matched
  · obtain ⟨c, last, rfl⟩ := Option.map_eq_some_iff.mp matched
    refine ⟨by simp, by simp, ?_, fun params same => ?_⟩
    · have known : c ∈ s := (List.takeWhile_sublist _).subset (List.mem_of_getLast? last)
      simpa using known
    · obtain ⟨absent, within⟩ := trailing_inside same
      exact ⟨absent, List.Subset.trans within later⟩
  · obtain rfl := Option.some.inj matched
    refine ⟨by simp, by simp, List.Subset.trans (List.takeWhile_sublist _).subset later, fun params same => ?_⟩
    obtain ⟨absent, within⟩ := trailing_inside same
    exact ⟨absent, List.Subset.trans (List.Subset.trans within (List.dropWhile_sublist _).subset) later⟩

theorem addressCaptures_inside {s : Text} {found : AddressCaptures}
    (matched : addressCaptures s = some found) : found.Inside s := by
  rcases Option.or_eq_some_iff.mp matched with first | ⟨_, others⟩
  · exact plainName_inside first
  · rcases Option.or_eq_some_iff.mp others with second | ⟨_, third⟩
    · exact quotedName_inside second
    · exact noBrackets_inside third

/-- Reading a parameter keeps the name and the URI, and takes a tag from the text only. -/
theorem readParam_address (address : Address) (part : Text) :
    (address.readParam part).displayName = address.displayName ∧
      (address.readParam part).uri = address.uri ∧
      ∀ tag ∈ (address.readParam part).tag, tag ∈ address.tag ∨ tag ⊆ part := by
  unfold Address.readParam Address.setParam
  split
  · exact ⟨rfl, rfl, fun tag known => Or.inl known⟩
  split
  · refine ⟨rfl, rfl, fun tag same => Or.inr ?_⟩
    have whole := @join_cut _ _ '=' part
    rw [show (cut '=' part).2 = some tag from same, join_some] at whole
    rw [← whole]
    exact fun c member => List.mem_append_right _ (List.mem_cons_of_mem _ member)
  split
  · exact ⟨rfl, rfl, fun tag known => Or.inl known⟩
  · exact ⟨rfl, rfl, fun tag known => Or.inl known⟩

theorem readParams_address (parts : List Text) (address : Address) :
    (parts.foldl Address.readParam address).displayName = address.displayName ∧
      (parts.foldl Address.readParam address).uri = address.uri ∧
      ∀ tag ∈ (parts.foldl Address.readParam address).tag,
        tag ∈ address.tag ∨ ∃ part ∈ parts, tag ⊆ part := by
  induction parts generalizing address with
  | nil => exact ⟨rfl, rfl, fun tag known => Or.inl known⟩
  | cons part parts ih =>
    obtain ⟨name, uri, tags⟩ := ih (address.readParam part)
    obtain ⟨sameName, sameUri, first⟩ := readParam_address address part
    refine ⟨name.trans sameName, uri.trans sameUri, fun tag same => ?_⟩
    rcases tags tag same with known | ⟨later, member, within⟩
    · rcases first tag known with old | new
      · exact Or.inl old
      · exact Or.inr ⟨part, List.mem_cons_self, new⟩
    · exact Or.inr ⟨later, List.mem_cons_of_mem _ member, within⟩

variable {form : FormUrlencoded}

theorem Address.fromStr_some {s : Text} {address : Address}
    (read : Address.fromStr form s = some address) :
    ∃ found, addressCaptures s = some found ∧ found.Inside s ∧
      Uri.fromStr form found.uri = some address.uri ∧ address.displayName = found.name ∧
      ∀ tag ∈ address.tag, ';' ∉ tag ∧ '?' ∉ tag ∧ tag ⊆ s := by
  obtain ⟨found, matched, inner⟩ := Option.bind_eq_some_iff.mp read
  obtain ⟨uri, readUri, rfl⟩ := Option.map_eq_some_iff.mp inner
  obtain ⟨name, sameUri, tags⟩ := readParams_address
    (found.params.elim [] (List.splitOn ';')) { displayName := found.name, uri }
  have inside := addressCaptures_inside matched
  refine ⟨found, matched, inside, ?_, name, fun tag same => ?_⟩
  · rw [sameUri]
    exact readUri
  · rcases tags tag same with known | ⟨part, member, within⟩
    · cases known
    · cases group : found.params with
      | none =>
        rw [group] at member
        cases member
      | some text =>
        rw [group, Option.elim_some] at member
        obtain ⟨absent, more⟩ := inside.params text group
        exact ⟨fun there => not_mem_part text part member (within there),
          fun there => absent (mem_of_mem_part member (within there)),
          fun c there => more (mem_of_mem_part member (within there))⟩

theorem Address.fromStr_formed {s : Text} {address : Address}
    (read : Address.fromStr form s = some address) : address.Formed := by
  obtain ⟨found, _, inside, uri, name, tags⟩ := Address.fromStr_some read
  exact ⟨name ▸ inside.quote, Uri.fromStr_formed uri,
    fun tag same => ⟨(tags tag same).1, (tags tag same).2.1⟩⟩

end Formed

end SipText
