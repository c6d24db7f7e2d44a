import Nebula.Sip.AddressText

/- When the text that an address is printed as is read as the same address. -/
namespace SipText
open TextScan DecimalText

variable {form : FormUrlencoded}

section Captures

theorem angled_text {name uri rest : Text} (present : uri ≠ []) (whole : '>' ∉ uri) :
    angled name ('<' :: (uri ++ '>' :: rest)) = some ⟨name, uri, trailing rest⟩ := by
  have kept : ∀ c ∈ uri, (c != '>') = true := by
    intro c member
    have other : c ≠ '>' := fun same => whole (same ▸ member)
    simpa using other
  have stops : ∀ c ∈ ('>' :: rest).head?, (c != '>') = false := by simp
  have written : uri.isEmpty = false := by
    cases uri with
    | nil => exact absurd rfl present
    | cons head tail => rfl
  unfold angled
  rw [strip_cons, Option.bind_some, takeWhile_stops kept stops, dropWhile_stops kept stops,
    written, strip_cons]
  rfl

/-- The first closing bracket ends the URI, whatever stands before it. -/
theorem angled_found {name uri rest : Text} {first : Char} (other : first ≠ '>') :
    ∃ found, angled name ('<' :: (first :: uri ++ '>' :: rest)) = some found := by
  obtain ⟨left, right, found⟩ : ∃ left right,
      cut '>' (first :: uri ++ '>' :: rest) = (left, some right) := cut_of_mem (by simp)
  obtain ⟨absent, split⟩ := cut_eq_some found
  have present : left ≠ [] := by
    rintro rfl
    rw [List.nil_append, List.cons_append] at split
    exact other (List.cons.inj split).1
  rw [split]
  exact ⟨_, angled_text present absent⟩

theorem addressCaptures_text {address : Address} (quote : '"' ∉ address.displayName) {body : Text}
    {found : AddressCaptures} (matched : angled address.displayName ('<' :: body) = some found) :
    addressCaptures (address.nameText ++ '<' :: body) = some found := by
  have angle : ∀ rest : Text, ('<' :: rest).takeWhile nameChar = [] ∧
      ('<' :: rest).dropWhile nameChar = '<' :: rest := by
    intro rest
    have other : nameChar '<' = false := by decide
    simp [other]
  have noName : ∀ rest : Text, plainName ('"' :: rest) = none := by
    intro rest
    have other : nameChar '"' = false := by decide
    simp [plainName, other, angled, strip]
  unfold addressCaptures Address.nameText
  cases shape : address.displayName with
  | nil =>
    rw [shape] at matched
    obtain ⟨front, back⟩ := angle body
    have first : plainName ('<' :: body) = some found := by
      unfold plainName
      rw [front, back]
      exact matched
    rw [List.isEmpty_nil, if_pos rfl, List.nil_append, first, Option.some_or]
  | cons head tail =>
    rw [shape] at matched quote
    have kept : ∀ c ∈ head :: tail, (c != '"') = true := by
      intro c member
      have other : c ≠ '"' := fun same => quote (same ▸ member)
      simpa using other
    have stops : ∀ c ∈ ("\" ".toList ++ '<' :: body).head?, (c != '"') = false := by simp
    have second : quotedName ('"' :: (head :: tail ++ "\" ".toList) ++ '<' :: body) = some found := by
      unfold quotedName
      rw [List.cons_append, strip_cons, Option.bind_some, List.append_assoc,
        takeWhile_stops kept stops, dropWhile_stops kept stops]
      exact matched
    have first := noName (head :: tail ++ "\" ".toList ++ '<' :: body)
    rw [List.isEmpty_cons, if_neg (by decide)]
    rw [List.cons_append] at second ⊢
    rw [first, second]
    rfl

end Captures

section Parameters

theorem address_paramParts_one {address : Address} (formed : address.Formed) :
    ∀ part ∈ address.paramParts, ';' ∉ part ∧ '?' ∉ part := by
  intro part member
  rcases List.mem_append.mp member with tagged | expiring
  · cases tag : address.tag with
    | none =>
      rw [tag] at tagged
      cases tagged
    | some text =>
      rw [tag] at tagged
      obtain ⟨semicolon, mark⟩ := formed.tag text tag
      rw [List.mem_singleton.mp tagged]
      simp [semicolon, mark]
  · cases expires : address.expires with
    | none =>
      rw [expires] at expiring
      cases expiring
    | some value =>
      rw [expires] at expiring
      rw [List.mem_singleton.mp expiring]
      have semicolon := @not_mem_signed ';' value.toInt (by decide) (by decide)
      have mark := @not_mem_signed '?' value.toInt (by decide) (by decide)
      simp [semicolon, mark]

theorem trailing_parts (parts : List Text) (one : ∀ part ∈ parts, '?' ∉ part) :
    trailing (parts.flatMap (';' :: ·)) = strip ';' (parts.flatMap (';' :: ·)) := by
  have absent : '?' ∉ parts.flatMap (';' :: ·) := by
    simp only [List.mem_flatMap, List.mem_cons, not_exists, not_and, not_or]
    exact fun part member => ⟨by decide, one part member⟩
  unfold trailing
  cases start : strip ';' (parts.flatMap (';' :: ·)) with
  | none => rfl
  | some rest =>
    rw [strip_eq_some.mp start] at absent
    refine congrArg some (List.takeWhile_eq_self_iff.mpr fun c member => ?_)
    have other : c ≠ '?' := fun same => absent (same ▸ List.mem_cons_of_mem _ member)
    simpa using other

theorem readParams_text (address : Address) (uri : Uri) :
    address.paramParts.foldl Address.readParam { displayName := address.displayName, uri } =
      { address with uri, params := .empty } := by
  have tag : ∀ (text : Text) (start : Address),
      start.readParam ("tag=".toList ++ text) = { start with tag := some text } := by
    intro text start
    have found : cut '=' ("tag=".toList ++ text) = ("tag".toList, some text) :=
      cut_join "tag".toList (some text) (by decide)
    unfold Address.readParam
    rw [found]
    rfl
  have expires : ∀ (value : Int32) (start : Address),
      start.readParam ("expires=".toList ++ signed value.toInt) =
        { start with expires := some value } := by
    intro value start
    have found : cut '=' ("expires=".toList ++ signed value.toInt) =
        ("expires".toList, some (signed value.toInt)) :=
      cut_join "expires".toList (some (signed value.toInt)) (by decide)
    have read : start.setParam "expires".toList (some (signed value.toInt)) =
        { start with expires := readInt32 (signed value.toInt) } := rfl
    unfold Address.readParam
    rw [found, read, readInt32_signed]
  obtain ⟨displayName, _, tags, _, expiry⟩ := address
  unfold Address.paramParts
  rw [List.foldl_append]
  cases tags with
  | none =>
    cases expiry with
    | none => rfl
    | some value => exact expires value _
  | some text =>
    cases expiry with
    | none => exact tag text _
    | some value =>
      simp only [Option.elim_some, List.foldl_cons, List.foldl_nil, tag, expires]

end Parameters

section RoundTrip

theorem toText_first {uri : Uri} (formed : uri.Formed) :
    ∃ first rest, uri.toText form = first :: rest ∧ first ≠ '>' := by
  rw [toText_formed formed]
  have legal := formed.scheme
  cases shape : uri.scheme with
  | nil => exact absurd shape (isScheme_ne_nil legal)
  | cons head tail =>
    rw [shape] at legal
    refine ⟨head, _, rfl, ?_⟩
    rintro rfl
    simp [isScheme] at legal

theorem Address.fromStr_text {address : Address} (formed : address.Formed)
    (bracket : '>' ∉ address.uri.toText form) :
    Address.fromStr form (address.toText form) =
      (Uri.fromStr form (address.uri.toText form)).map fun uri =>
        { address with uri, params := .empty } := by
  obtain ⟨first, rest, shape, _⟩ := @toText_first form _ formed.uri
  have present : address.uri.toText form ≠ [] := by
    rw [shape]
    simp
  have one := address_paramParts_one formed
  have matched := addressCaptures_text formed.name
    (@angled_text address.displayName _ (address.paramParts.flatMap (';' :: ·)) present bracket)
  unfold Address.fromStr Address.toText
  rw [matched, Option.bind_some]
  simp only
  rw [trailing_parts _ fun part member => (one part member).2,
    splitOn_strip _ fun part member => (one part member).1]
  simp only [readParams_text]

/-- Without an expiry after it, the tag loses the white space at its end. -/
def Address.trimmed (address : Address) : Address :=
  if address.expires = none then
    { address with tag := address.tag.map (trimEnd whitespace) }
  else address

theorem trimmed_formed {address : Address} (formed : address.Formed) : address.trimmed.Formed := by
  unfold Address.trimmed
  split
  · refine ⟨formed.name, formed.uri, fun tag same => ?_⟩
    obtain ⟨text, known, rfl⟩ := Option.map_eq_some_iff.mp same
    obtain ⟨semicolon, mark⟩ := formed.tag text known
    have fewer := (@trimEnd_front _ whitespace text).subset
    exact ⟨fun member => semicolon (fewer member), fun member => mark (fewer member)⟩
  · exact formed

theorem trimmed_uri (address : Address) : address.trimmed.uri = address.uri := by
  unfold Address.trimmed
  split <;> rfl

theorem trimEnd_paramParts (address : Address) :
    trimEnd whitespace (address.paramParts.flatMap (';' :: ·)) =
      address.trimmed.paramParts.flatMap (';' :: ·) := by
  unfold Address.trimmed
  cases expires : address.expires with
  | none =>
    rw [if_pos rfl]
    cases tag : address.tag with
    | none => simp [Address.paramParts, expires, tag, trimEnd]
    | some text =>
      have last := @trimEnd_append _ whitespace ";tag".toList '=' text (by decide)
      simpa [Address.paramParts, expires, tag] using last
  | some value =>
    rw [if_neg (by simp)]
    obtain ⟨front, last, split, digit⟩ := signed_snoc value.toInt
    refine trimEnd_eq_self fun c final => ?_
    unfold Address.paramParts at final
    rw [expires, Option.elim_some, split, List.flatMap_append] at final
    have same : last = c := by simpa [List.getLast?_cons] using final
    rw [← same]
    exact isDigit_visible digit

theorem trim_toText (address : Address) :
    trim whitespace (address.toText form) = address.trimmed.toText form := by
  have named : address.trimmed.nameText = address.nameText := by
    unfold Address.trimmed Address.nameText
    split <;> rfl
  have shape : address.toText form =
      (address.nameText ++ '<' :: address.uri.toText form) ++
        '>' :: address.paramParts.flatMap (';' :: ·) := by
    simp [Address.toText]
  have first : ∀ c ∈ (address.nameText ++ '<' :: address.uri.toText form ++ ['>']).head?,
      whitespace c = false := by
    intro c member
    unfold Address.nameText at member
    split at member
    · obtain rfl : '<' = c := by simpa using member
      decide
    · obtain rfl : '"' = c := by simpa using member
      decide
  rw [shape, trim_solid _ '>' _ first (by decide), trimEnd_paramParts address]
  simp [Address.toText, named, trimmed_uri]

/-- An address comes back from its text if it has no other parameters, its URI comes back
    and shows no closing bracket, and its tag ends in no white space when it stands last. -/
structure Address.Kept (form : FormUrlencoded) (address : Address) : Prop where
  params : address.params = .empty
  uri : address.uri.Kept form
  bracket : address.uri.Unbracketed
  tag : address.expires = none → ∀ tag ∈ address.tag, trimEnd whitespace tag = tag

instance Address.decidableKept (address : Address) : Decidable (address.Kept form) :=
  decidable_of_iff (address.params = .empty ∧ address.uri.Kept form ∧
      address.uri.Unbracketed ∧
      (address.expires = none → ∀ tag ∈ address.tag, trimEnd whitespace tag = tag))
    ⟨fun all => ⟨all.1, all.2.1, all.2.2.1, all.2.2.2⟩,
      fun kept => ⟨kept.params, kept.uri, kept.bracket, kept.tag⟩⟩

theorem trimmed_eq_self {address : Address}
    (same : address.expires = none → ∀ tag ∈ address.tag, trimEnd whitespace tag = tag) :
    address.trimmed = address := by
  obtain ⟨displayName, uri, tag, params, expires⟩ := address
  unfold Address.trimmed
  split
  · rename_i final
    cases tag with
    | none => rfl
    | some text =>
      have kept := same final text rfl
      simp [kept]
  · rfl

theorem bracket_absent {address : Address} (formed : address.Formed)
    (back : Address.fromStr form (trim whitespace (address.toText form)) = some address) :
    '>' ∉ address.uri.toText form := by
  rw [trim_toText] at back
  obtain ⟨found, matched, _, readUri, _⟩ := Address.fromStr_some back
  obtain ⟨first, rest, shape, other⟩ := @toText_first form _ formed.uri
  obtain ⟨angles, bracketed⟩ := @angled_found address.trimmed.displayName rest
    (address.trimmed.paramParts.flatMap (';' :: ·)) _ other
  have again := addressCaptures_text (trimmed_formed formed).name bracketed
  have written : address.trimmed.toText form = address.trimmed.nameText ++
      '<' :: (first :: rest ++ '>' :: address.trimmed.paramParts.flatMap (';' :: ·)) := by
    unfold Address.toText
    rw [trimmed_uri, shape]
  rw [written, again] at matched
  obtain rfl := Option.some.inj matched
  exact not_mem_toText (by decide) (by decide) readUri (angled_some bracketed).2.1

/-- Exactly the kept addresses come back from the text they are printed as. -/
theorem Address.fromStr_toText {address : Address} (formed : address.Formed) :
    Address.fromStr form (trim whitespace (address.toText form)) = some address ↔
      address.Kept form := by
  have reading := fun bracket => @Address.fromStr_text form _ (trimmed_formed formed) bracket
  rw [trimmed_uri] at reading
  constructor
  · intro back
    have bracket := bracket_absent formed back
    rw [trim_toText, reading bracket] at back
    obtain ⟨uri, readUri, same⟩ := Option.map_eq_some_iff.mp back
    have sameUri : uri = address.uri := congrArg Address.uri same
    have sameTag := congrArg Address.tag same
    simp only at sameTag
    rw [sameUri] at readUri
    refine ⟨(congrArg Address.params same).symm, (Uri.fromStr_toText formed.uri).mp readUri,
      (bracket_iff formed.uri).mp bracket, fun last tag known => ?_⟩
    unfold Address.trimmed at sameTag
    rw [if_pos last, show address.tag = some tag from known] at sameTag
    exact Option.some.inj sameTag
  · intro kept
    rw [trim_toText, reading ((bracket_iff formed.uri).mpr kept.bracket), (Uri.fromStr_toText formed.uri).mpr kept.uri,
      Option.map_some, trimmed_eq_self kept.tag, ← kept.params]

end RoundTrip

section Lines

/-- No line break is printed of an address that was read from a line. -/
theorem newline_not_mem_address {s : Text} {address : Address}
    (read : Address.fromStr form s = some address) (absent : '\n' ∉ s) :
    '\n' ∉ address.toText form := by
  obtain ⟨found, _, inside, readUri, named, tags⟩ := Address.fromStr_some read
  have uri : '\n' ∉ address.uri.toText form :=
    not_mem_toText (by decide) (by decide) readUri fun member => absent (inside.uri member)
  have name : '\n' ∉ address.displayName := by
    rw [named]
    exact fun member => absent (inside.name member)
  have parts : ∀ part ∈ address.paramParts, '\n' ∉ part := by
    intro part member
    rcases List.mem_append.mp member with tagged | expiring
    · cases tag : address.tag with
      | none =>
        rw [tag] at tagged
        cases tagged
      | some text =>
        rw [tag] at tagged
        rw [List.mem_singleton.mp tagged]
        have outside : '\n' ∉ text := fun member => absent ((tags text tag).2.2 member)
        simp [outside]
    · cases expires : address.expires with
      | none =>
        rw [expires] at expiring
        cases expiring
      | some value =>
        rw [expires] at expiring
        rw [List.mem_singleton.mp expiring]
        have number := @not_mem_signed '\n' value.toInt (by decide) (by decide)
        simp [number]
  have nameText : '\n' ∉ address.nameText := by
    unfold Address.nameText
    split <;> simp [name]
  unfold Address.toText
  simp only [List.mem_append, List.mem_cons, List.mem_flatMap, not_or, not_exists, not_and]
  exact ⟨nameText, by decide, uri, by decide, fun part member => ⟨by decide, parts part member⟩⟩

end Lines

end SipText
