import Nebula.Sip.UriText

/- When the text that a URI is printed as is read as the same URI. -/
namespace SipText
open Sip (TransportType)
open TextScan DecimalText

section Characters

theorem decimal_of_isDigit {c : Char} (digit : c.isDigit = true) : decimal c = true := by
  have range : 48 ≤ c.toNat ∧ c.toNat < 58 := by
    simp only [Char.isDigit, ge_iff_le, Bool.and_eq_true, decide_eq_true_eq,
      UInt32.le_iff_toNat_le] at digit
    have value : c.toNat = c.val.toNat := rfl
    have low : '0'.val.toNat = 48 := rfl
    have high : '9'.val.toNat = 57 := rfl
    omega
  unfold decimal
  rw [List.any_eq_true]
  exact ⟨0x30, by simp [zeros], by simpa using range⟩

theorem decimal_digits (value : Nat) : ∀ c ∈ digits value, decimal c = true := by
  intro c member
  exact decimal_of_isDigit (Nat.isDigit_of_mem_toDigits (by decide) (by decide) member)

theorem isScheme_colon {scheme : Text} (legal : isScheme scheme = true) : ':' ∉ scheme := by
  cases scheme with
  | nil => simp
  | cons head rest =>
    simp only [isScheme, Bool.and_eq_true, List.all_eq_true] at legal
    intro member
    rcases List.mem_cons.mp member with first | later
    · rw [← first] at legal
      exact absurd legal.1 (by decide)
    · exact absurd (legal.2 _ later) (by decide)

/-- Nothing between the space and the end of ASCII is white. -/
theorem visible {c : Char} (low : 33 ≤ c.toNat) (high : c.toNat ≤ 126) : whitespace c = false := by
  unfold whitespace
  simp
  omega

theorem alphanum_range {c : Char} (known : c.isAlphanum = true) :
    48 ≤ c.toNat ∧ c.toNat ≤ 122 := by
  have spelled : c.isAlphanum = ((decide (65 ≤ c.val ∧ c.val ≤ 90) ||
      decide (97 ≤ c.val) && decide (c.val ≤ 122)) ||
        decide (48 ≤ c.val) && decide (c.val ≤ 57)) := rfl
  rw [spelled] at known
  simp only [Bool.or_eq_true, Bool.and_eq_true, decide_eq_true_eq,
    UInt32.le_iff_toNat_le] at known
  have value : c.toNat = c.val.toNat := rfl
  have bounds : (65 : UInt32).toNat = 65 ∧ (90 : UInt32).toNat = 90 ∧
    (97 : UInt32).toNat = 97 ∧ (122 : UInt32).toNat = 122 ∧ (48 : UInt32).toNat = 48 ∧
      (57 : UInt32).toNat = 57 := by decide
  omega

theorem furniture_visible {c : Char} (known : furniture c = true) : whitespace c = false := by
  simp only [furniture, plain, Bool.or_eq_true] at known
  rcases known with (alphanum | mark) | mark
  · obtain ⟨low, high⟩ := alphanum_range alphanum
    exact visible (by omega) (by omega)
  · have all : ∀ c ∈ "&=+%*-._".toList, whitespace c = false := by decide
    exact all c (by simpa using mark)
  · have all : ∀ c ∈ ":;?".toList, whitespace c = false := by decide
    exact all c (by simpa using mark)

theorem isDigit_visible {c : Char} (digit : c.isDigit = true) : whitespace c = false := by
  refine furniture_visible ?_
  simp [furniture, plain, Char.isAlphanum, digit]

theorem bare_signed (value : Int) : Bare whitespace (signed value) := by
  constructor
  · intro c first
    unfold signed at first
    split at first
    · obtain rfl : '-' = c := by simpa using first
      decide
    · obtain ⟨head, tail, shape, digit⟩ := digits_cons value.natAbs
      rw [shape] at first
      obtain rfl : head = c := by simpa using first
      exact isDigit_visible digit
  · intro c final
    obtain ⟨front, last, split, digit⟩ := signed_snoc value
    rw [split] at final
    obtain rfl : last = c := by simpa using final
    exact isDigit_visible digit

theorem isScheme_ne_nil {scheme : Text} (legal : isScheme scheme = true) : scheme ≠ [] := by
  rintro rfl
  cases legal

end Characters

section Location
variable {form : FormUrlencoded}

/-- The groups that the printed location of a URI is made of. -/
def Uri.place (form : FormUrlencoded) (uri : Uri) : Location where
  host := uri.host
  port := uri.port.map fun port => digits port.toNat
  params := strip ';' (uri.paramParts.flatMap (';' :: ·))
  headers := strip '?' (uri.headersText form)

theorem paramParts_one {uri : Uri} (formed : uri.Formed) :
    ∀ part ∈ uri.paramParts, ';' ∉ part ∧ '?' ∉ part := by
  intro part member
  unfold Uri.paramParts Uri.flagParts at member
  simp only [List.mem_append, List.mem_map] at member
  rcases member with (transport | lr) | ⟨entry, known, rfl⟩
  · split at transport
    · cases transport
    · rw [List.mem_singleton.mp transport]
      cases uri.transport <;> decide
  · split at lr
    · rw [List.mem_singleton.mp lr]
      decide
    · cases lr
  · exact (formed.params entry known).onePart.2

theorem headersText_head (uri : Uri) :
    uri.headersText form = [] ∨ ∃ encoded, uri.headersText form = '?' :: encoded ∧
      '\n' ∉ encoded := by
  unfold Uri.headersText
  split
  · exact Or.inl rfl
  · refine Or.inr ⟨_, rfl, fun member => ?_⟩
    exact absurd (form.serialize_plain _ _ member) (by decide)

theorem headersGroup_text (uri : Uri) :
    headersGroup (uri.headersText form) = some (strip '?' (uri.headersText form)) := by
  rcases @headersText_head form uri with empty | ⟨encoded, written, absent⟩
  · rw [empty]
    rfl
  · rw [written]
    simp [headersGroup, absent]

theorem paramsGroup_text (parts : List Text) (one : ∀ part ∈ parts, '?' ∉ part) (host : Text)
    (port : Option Text) (uri : Uri) :
    paramsGroup host port (parts.flatMap (';' :: ·) ++ uri.headersText form) =
      some ⟨host, port, strip ';' (parts.flatMap (';' :: ·)), strip '?' (uri.headersText form)⟩ := by
  cases parts with
  | nil =>
    have noParams : strip ';' (uri.headersText form) = none := by
      refine strip_eq_none ?_
      rcases @headersText_head form uri with empty | ⟨encoded, written, _⟩
      · simp [empty]
      · simp [written]
    unfold paramsGroup
    rw [List.flatMap_nil, List.nil_append, noParams, headersGroup_text uri]
    rfl
  | cons part parts =>
    have inside : ∀ c ∈ part ++ parts.flatMap (';' :: ·), (c != '?') = true := by
      intro c member
      have absent : '?' ∉ part ++ parts.flatMap (';' :: ·) := by
        simp only [List.mem_append, List.mem_flatMap, List.mem_cons, not_or, not_exists, not_and]
        exact ⟨one part (by simp), fun later known =>
          ⟨by decide, one later (List.mem_cons_of_mem _ known)⟩⟩
      have other : c ≠ '?' := fun same => absent (same ▸ member)
      simpa using other
    have stops : ∀ c ∈ (uri.headersText form).head?, (c != '?') = false := by
      rcases @headersText_head form uri with empty | ⟨encoded, written, _⟩
      · simp [empty]
      · simp [written]
    unfold paramsGroup
    rw [List.flatMap_cons, List.cons_append, List.cons_append, strip_cons, strip_cons]
    simp only
    rw [takeWhile_stops inside stops, dropWhile_stops inside stops, headersGroup_text uri]
    rfl

theorem tail_head (uri : Uri) (parts : List Text) :
    ∀ c ∈ (parts.flatMap (';' :: ·) ++ uri.headersText form).head?, c = ';' ∨ c = '?' := by
  cases parts with
  | nil =>
    rcases @headersText_head form uri with empty | ⟨encoded, written, _⟩
    · simp [empty]
    · simp [written]
  | cons part parts => simp

theorem location_locationText {uri : Uri} (formed : uri.Formed) :
    location (uri.locationText form) = some (uri.place form) := by
  have one := fun part member => (paramParts_one formed part member).2
  have group := fun host port =>
    @paramsGroup_text form uri.paramParts one host port uri
  have after := @tail_head form uri uri.paramParts
  unfold location Uri.locationText Uri.place
  rw [List.append_assoc, List.append_assoc]
  cases given : uri.port with
  | none =>
    have stops : ∀ c ∈ (uri.paramParts.flatMap (';' :: ·) ++ uri.headersText form).head?,
        hostChar c = false := by
      intro c first
      rcases after c first with rfl | rfl <;> decide
    have noPort : strip ':' (uri.paramParts.flatMap (';' :: ·) ++ uri.headersText form) = none := by
      refine strip_eq_none fun first => ?_
      rcases after _ first with same | same <;> exact absurd same (by decide)
    rw [Option.elim_none, List.nil_append, takeWhile_stops formed.host stops,
      dropWhile_stops formed.host stops, noPort]
    exact group uri.host none
  | some port =>
    have stops : ∀ c ∈ (uri.paramParts.flatMap (';' :: ·) ++ uri.headersText form).head?,
        decimal c = false := by
      intro c first
      rcases after c first with rfl | rfl <;> decide
    have colon : ∀ c ∈ (':' :: digits port.toNat ++
        (uri.paramParts.flatMap (';' :: ·) ++ uri.headersText form)).head?, hostChar c = false := by
      intro c first
      obtain rfl : ':' = c := by simpa using first
      decide
    have written : (digits port.toNat).isEmpty = false := by
      obtain ⟨head, tail, shape, _⟩ := digits_cons port.toNat
      rw [shape]
      rfl
    rw [Option.elim_some, takeWhile_stops formed.host colon, dropWhile_stops formed.host colon,
      List.cons_append, strip_cons]
    simp only
    rw [takeWhile_stops (decimal_digits _) stops, dropWhile_stops (decimal_digits _) stops, written]
    exact group uri.host (some (digits port.toNat))

end Location

section Fields
variable {form : FormUrlencoded}

/-- Parts that are each printed after a semicolon are found again. -/
theorem splitOn_strip (parts : List Text) (one : ∀ part ∈ parts, ';' ∉ part) :
    (strip ';' (parts.flatMap (';' :: ·))).elim [] (List.splitOn ';') = parts := by
  cases parts with
  | nil => rfl
  | cons part parts =>
    rw [List.flatMap_cons, List.cons_append, strip_cons, Option.elim_some]
    exact splitOn_parts part parts one

theorem splitOn_paramParts {uri : Uri} (formed : uri.Formed) :
    (uri.place form).params.elim [] (List.splitOn ';') = uri.paramParts :=
  splitOn_strip uri.paramParts fun part member => (paramParts_one formed part member).1

theorem readPort_place (uri : Uri) : readPort (uri.place form).port = some uri.port := by
  unfold Uri.place
  cases uri.port with
  | none => rfl
  | some port => simp [readPort, readUInt16_digits]

theorem readHeaders_place (uri : Uri) :
    readHeaders form (uri.place form).headers = uri.headers := by
  have again := IndexMap.rebuild uri.headers
  have parsed := form.parse_serialize uri.headers.entries
  unfold readHeaders Uri.place Uri.headersText
  split
  · rename_i empty
    have nothing : uri.headers.entries = [] := by
      rw [List.isEmpty_iff] at empty
      rw [← parsed, empty, ← form.serialize_nil, form.parse_serialize]
    rw [nothing] at again
    exact again
  · rw [strip_cons, Option.elim_some, parsed]
    exact again

theorem readParam_entry {uri : Uri} {entry : Text × Option Text} (named : NamedParam entry) :
    uri.readParam (join '=' entry.1 entry.2) =
      some { uri with params := uri.params.insert entry.1 entry.2 } := by
  have present : entry.1.isEmpty = false := by
    cases shape : entry.1 with
    | nil => exact absurd shape named.named
    | cons head tail => rfl
  unfold Uri.readParam Uri.setParam
  rw [cut_join _ _ named.onePart.1]
  simp only [present, Bool.false_eq_true, ↓reduceIte, named.notTransport, named.notLr]

theorem readParams_entries (entries : List (Text × Option Text)) (uri : Uri)
    (named : ∀ entry ∈ entries, NamedParam entry) :
    (entries.map fun entry => join '=' entry.1 entry.2).foldlM Uri.readParam uri =
      some { uri with
        params := entries.foldl (fun map entry => map.insert entry.1 entry.2) uri.params } := by
  induction entries generalizing uri with
  | nil => rfl
  | cons entry entries ih =>
    rw [List.map_cons, List.foldlM_cons, readParam_entry (named entry List.mem_cons_self)]
    exact ih _ fun later member => named later (List.mem_cons_of_mem _ member)

theorem readParams_paramParts {uri : Uri} (formed : uri.Formed) (start : Uri)
    (udp : start.transport = .Udp) (strict : start.lr = false) (new : start.params = .empty) :
    uri.paramParts.foldlM Uri.readParam start =
      some { start with transport := uri.transport, lr := uri.lr, params := uri.params } := by
  have transport : (if uri.transport = .Udp then []
      else ["transport=".toList ++ transportText uri.transport]).foldlM Uri.readParam start =
        some { start with transport := uri.transport } := by
    split
    · rename_i same
      rw [same, ← udp]
      rfl
    · have found : cut '=' ("transport=".toList ++ transportText uri.transport) =
          ("transport".toList, some (transportText uri.transport)) :=
        cut_join "transport".toList (some (transportText uri.transport)) (by decide)
      have read : start.readParam ("transport=".toList ++ transportText uri.transport) =
          some { start with transport := uri.transport } := by
        unfold Uri.readParam Uri.setParam
        rw [found]
        simp
      rw [List.foldlM_cons, read]
      rfl
  have lr : ∀ middle : Uri, middle.lr = false →
      (if uri.lr then ["lr".toList] else []).foldlM Uri.readParam middle =
        some { middle with lr := uri.lr } := by
    intro middle unset
    cases set : uri.lr with
    | false =>
      have same : middle = { middle with lr := false } := by rw [← unset]
      rw [← same]
      rfl
    | true =>
      have read : middle.readParam "lr".toList = some { middle with lr := true } := rfl
      rw [if_pos rfl, List.foldlM_cons, read]
      rfl
  have again := IndexMap.rebuild uri.params
  unfold Uri.paramParts Uri.flagParts
  rw [List.foldlM_append, List.foldlM_append, transport, Option.bind_eq_bind, Option.bind_some,
    lr { start with transport := uri.transport } strict, Option.bind_some]
  refine (readParams_entries uri.params.entries _ formed.params).trans ?_
  simp only
  rw [new, again]

theorem read_place {uri : Uri} (formed : uri.Formed) (user : Option Text) :
    (Captures.mk uri.scheme user none (uri.place form)).read form =
      some { uri with user, password := none } := by
  unfold Captures.read
  rw [readPort_place uri, Option.bind_some]
  simp only
  rw [splitOn_paramParts formed, readParams_paramParts formed _ rfl rfl rfl, Option.map_some,
    readHeaders_place uri]
  rfl

end Fields

section RoundTrip
variable {form : FormUrlencoded}

/-- Something after the scheme is read as a user. -/
def seenUser (text : Text) : Bool :=
  ((userinfo text).bind fun found => location found.rest).isSome

theorem afterScheme_unseen {scheme text : Text} (unseen : seenUser text = false) :
    afterScheme scheme text = (location text).map (Captures.mk scheme none none) := by
  have nothing : ((userinfo text).bind fun found =>
      (location found.rest).map (Captures.mk scheme (some found.user) found.password)) = none := by
    cases info : userinfo text with
    | none => rfl
    | some found =>
      unfold seenUser at unseen
      rw [info] at unseen
      have nowhere : location found.rest = none := by simpa using unseen
      rw [Option.bind_some, nowhere]
      rfl
  unfold afterScheme
  rw [nothing, Option.none_or]

theorem afterScheme_seen {scheme text : Text} (seen : seenUser text = true) :
    ∃ found, afterScheme scheme text = some found ∧ found.user.isSome = true := by
  obtain ⟨place, there⟩ := Option.isSome_iff_exists.mp seen
  obtain ⟨info, found, located⟩ := Option.bind_eq_some_iff.mp there
  refine ⟨⟨scheme, some info.user, info.password, place⟩, ?_, rfl⟩
  unfold afterScheme
  rw [found, Option.bind_some, located]
  rfl

theorem userinfo_text {user : Text} (present : user ≠ []) (kind : ∀ c ∈ user, userChar c = true)
    (rest : Text) : userinfo (user ++ '@' :: rest) = some ⟨user, none, rest⟩ := by
  have stops : ∀ c ∈ ('@' :: rest).head?, userChar c = false := by
    intro c first
    obtain rfl : '@' = c := by simpa using first
    decide
  have written : user.isEmpty = false := by
    cases user with
    | nil => exact absurd rfl present
    | cons head tail => rfl
  unfold userinfo
  rw [takeWhile_stops kind stops, dropWhile_stops kind stops, written, strip_cons]
  rfl

theorem captures_text {scheme : Text} (legal : isScheme scheme = true) (rest : Text) :
    captures (scheme ++ ':' :: rest) = afterScheme scheme rest := by
  have found : cut ':' (scheme ++ ':' :: rest) = (scheme, some rest) :=
    cut_join scheme (some rest) (isScheme_colon legal)
  unfold captures
  rw [found, Option.bind_some, if_pos legal]

theorem read_user {found : Captures} {uri : Uri} (read : found.read form = some uri) :
    uri.user = found.user := by
  obtain ⟨port, _, inner⟩ := Option.bind_eq_some_iff.mp read
  obtain ⟨body, fold, rfl⟩ := Option.map_eq_some_iff.mp inner
  exact (readParams_some (fun _ => false) fold).1.user

theorem fromStr_seen {scheme text : Text} {uri : Uri} (legal : isScheme scheme = true)
    (seen : seenUser text = true) (read : Uri.fromStr form (scheme ++ ':' :: text) = some uri) :
    uri.user.isSome = true := by
  obtain ⟨found, matched, named⟩ := @afterScheme_seen scheme _ seen
  unfold Uri.fromStr at read
  rw [captures_text legal, matched, Option.bind_some] at read
  rw [read_user read]
  exact named

/-- A URI comes back from its text if it has no password, and, where it has no user, if
    none is seen in its host and what follows. -/
structure Uri.Kept (form : FormUrlencoded) (uri : Uri) : Prop where
  password : uri.password = none
  user : uri.user = none → seenUser (uri.locationText form) = false

instance Uri.decidableKept (uri : Uri) : Decidable (uri.Kept form) :=
  decidable_of_iff (uri.password = none ∧ (uri.user = none → seenUser (uri.locationText form) = false))
    ⟨fun both => ⟨both.1, both.2⟩, fun kept => ⟨kept.password, kept.user⟩⟩

theorem toText_formed {uri : Uri} (formed : uri.Formed) :
    uri.toText form =
      uri.scheme ++ ':' :: (uri.user.elim [] (· ++ ['@']) ++ uri.locationText form) := by
  have written : uri.scheme.isEmpty = false := by
    cases shape : uri.scheme with
    | nil => exact absurd shape (isScheme_ne_nil formed.scheme)
    | cons head tail => rfl
  simp [Uri.toText, written]

theorem fromStr_toText_user {uri : Uri} (formed : uri.Formed) {user : Text}
    (named : uri.user = some user) :
    Uri.fromStr form (uri.toText form) = some { uri with password := none } := by
  obtain ⟨present, kind⟩ := formed.user user named
  have split : uri.toText form = uri.scheme ++ ':' :: (user ++ '@' :: uri.locationText form) := by
    rw [toText_formed formed, named]
    simp
  unfold Uri.fromStr
  rw [split, captures_text formed.scheme]
  unfold afterScheme
  rw [userinfo_text present kind, Option.bind_some, location_locationText formed,
    Option.map_some, Option.some_or, Option.bind_some]
  simp only
  rw [read_place formed, named]

theorem fromStr_toText_alone {uri : Uri} (formed : uri.Formed) (unnamed : uri.user = none)
    (unseen : seenUser (uri.locationText form) = false) :
    Uri.fromStr form (uri.toText form) = some uri := by
  have split : uri.toText form = uri.scheme ++ ':' :: uri.locationText form := by
    rw [toText_formed formed, unnamed]
    rfl
  unfold Uri.fromStr
  rw [split, captures_text formed.scheme, afterScheme_unseen unseen, location_locationText formed,
    Option.map_some, Option.bind_some, read_place formed]
  have same := formed.password unnamed
  cases uri
  simp_all

/-- Exactly the kept URIs come back from the text they are printed as. -/
theorem Uri.fromStr_toText {uri : Uri} (formed : uri.Formed) :
    Uri.fromStr form (uri.toText form) = some uri ↔ uri.Kept form := by
  constructor
  · intro back
    cases user : uri.user with
    | some name =>
      rw [fromStr_toText_user formed user] at back
      refine ⟨?_, fun absent => ?_⟩
      · rw [← Option.some.inj back]
      · rw [user] at absent
        cases absent
    | none =>
      refine ⟨formed.password user, fun _ => ?_⟩
      cases seen : seenUser (uri.locationText form) with
      | false => rfl
      | true =>
        have split : uri.toText form = uri.scheme ++ ':' :: uri.locationText form := by
          rw [toText_formed formed, user]
          rfl
        rw [split] at back
        have named := fromStr_seen formed.scheme seen back
        rw [user] at named
        cases named
  · intro kept
    cases user : uri.user with
    | some name =>
      rw [fromStr_toText_user formed user, ← kept.password]
    | none => exact fromStr_toText_alone formed user (kept.user user)

end RoundTrip

section Counting
variable {form : FormUrlencoded} {marked : Char → Bool}

/-- Characters that are only found in the fields. -/
def Foreign (marked : Char → Bool) : Prop := ∀ c, furniture c = true → marked c = false

theorem Foreign.countP_eq_zero (foreign : Foreign marked) {text : Text}
    (all : ∀ c ∈ text, furniture c = true) : text.countP marked = 0 := by
  rw [List.countP_eq_zero]
  intro c member
  simp [foreign c (all c member)]

theorem furniture_digits (value : Nat) : ∀ c ∈ digits value, furniture c = true := by
  intro c member
  have digit := Nat.isDigit_of_mem_toDigits (b := 10) (by decide) (by decide) member
  simp [furniture, plain, Char.isAlphanum, digit]

theorem headersText_count (foreign : Foreign marked) (uri : Uri) :
    (uri.headersText form).countP marked = 0 := by
  refine foreign.countP_eq_zero fun c member => ?_
  unfold Uri.headersText at member
  split at member
  · cases member
  · rcases List.mem_cons.mp member with rfl | inside
    · decide
    · simp [furniture, form.serialize_plain _ _ inside]

theorem paramParts_count (foreign : Foreign marked) (uri : Uri) :
    (uri.paramParts.map (List.countP marked)).sum = uri.paramCount marked := by
  have transport : ((if uri.transport = .Udp then []
      else ["transport=".toList ++ transportText uri.transport]).map (List.countP marked)).sum = 0 := by
    split
    · rfl
    · simp only [List.map_cons, List.map_nil, List.sum_cons, List.sum_nil, Nat.add_zero]
      refine foreign.countP_eq_zero ?_
      cases uri.transport <;> decide
  have lr : ((if uri.lr then ["lr".toList] else []).map (List.countP marked)).sum = 0 := by
    split
    · simp only [List.map_cons, List.map_nil, List.sum_cons, List.sum_nil, Nat.add_zero]
      exact foreign.countP_eq_zero (by decide)
    · rfl
  unfold Uri.paramParts Uri.flagParts Uri.paramCount
  rw [List.map_append, List.map_append, List.sum_append, List.sum_append, transport, lr,
    List.map_map]
  simp [Function.comp_def, entryText]

theorem locationText_count (foreign : Foreign marked) (uri : Uri) :
    (uri.locationText form).countP marked = uri.host.countP marked + uri.paramCount marked := by
  have semicolon : marked ';' = false := foreign ';' (by decide)
  have colon : marked ':' = false := foreign ':' (by decide)
  have port : (uri.port.elim [] fun port => ':' :: digits port.toNat).countP marked = 0 := by
    cases uri.port with
    | none => rfl
    | some port =>
      rw [Option.elim_some, List.countP_cons, foreign.countP_eq_zero (furniture_digits _), colon]
      rfl
  have parts : (uri.paramParts.flatMap (';' :: ·)).countP marked = uri.paramCount marked := by
    rw [← paramParts_count foreign uri, List.countP_flatMap]
    simp [Function.comp_def, semicolon]
  unfold Uri.locationText
  simp only [List.countP_append, port, parts, headersText_count foreign uri]
  omega

/-- Nothing but fields and furniture is printed. -/
theorem toText_count (foreign : Foreign marked) {uri : Uri} (formed : uri.Formed) :
    (uri.toText form).countP marked =
      uri.count marked + (if uri.user.isSome then ['@'].countP marked else 0) := by
  have colon : marked ':' = false := foreign ':' (by decide)
  rw [toText_formed formed]
  unfold Uri.count
  cases uri.user with
  | none =>
    simp only [Option.elim_none, List.nil_append, List.countP_append, List.countP_cons, colon,
      locationText_count foreign uri, Option.isSome_none, Bool.false_eq_true, ↓reduceIte]
    omega
  | some user =>
    simp only [Option.elim_some, List.countP_append, List.countP_cons, List.countP_nil, colon,
      locationText_count foreign uri, Option.isSome_some, Bool.false_eq_true, ↓reduceIte]
    omega

theorem foreign_char {c : Char} (other : furniture c = false) : Foreign (· == c) := by
  intro d known
  have apart : d ≠ c := by
    rintro rfl
    rw [other] at known
    cases known
  simpa using apart

theorem countP_beq_eq_zero {c : Char} {text : Text} : text.countP (· == c) = 0 ↔ c ∉ text := by
  rw [List.countP_eq_zero]
  constructor
  · intro all member
    exact all c member (by simp)
  · rintro absent d member same
    exact absent ((beq_iff_eq.mp same) ▸ member)

/-- A character that is not in the text is not in what is printed of the URI read from it. -/
theorem not_mem_toText {c : Char} (other : furniture c = false) (notAt : c ≠ '@') {s : Text}
    {uri : Uri} (read : Uri.fromStr form s = some uri) (absent : c ∉ s) :
    c ∉ uri.toText form := by
  have held := Uri.fromStr_count (· == c) read
  rw [countP_beq_eq_zero.mpr absent] at held
  have atSign : ['@'].countP (· == c) = 0 := countP_beq_eq_zero.mpr (by simpa using notAt)
  rw [← countP_beq_eq_zero, toText_count (foreign_char other) (Uri.fromStr_formed read), atSign]
  simp only [ite_self, Nat.add_zero]
  omega

/-- No closing bracket stands in the host or in a parameter. -/
structure Uri.Unbracketed (uri : Uri) : Prop where
  host : '>' ∉ uri.host
  params : ∀ entry ∈ uri.params.entries, '>' ∉ entryText entry

instance Uri.decidableUnbracketed (uri : Uri) : Decidable uri.Unbracketed :=
  decidable_of_iff ('>' ∉ uri.host ∧ ∀ entry ∈ uri.params.entries, '>' ∉ entryText entry)
    ⟨fun both => ⟨both.1, both.2⟩, fun kept => ⟨kept.host, kept.params⟩⟩

theorem bracket_iff {uri : Uri} (formed : uri.Formed) :
    '>' ∉ uri.toText form ↔ uri.Unbracketed := by
  have sign : ['@'].countP (· == '>') = 0 := by decide
  have scheme : uri.scheme.countP (· == '>') = 0 := by
    refine countP_beq_eq_zero.mpr fun member => ?_
    have legal := formed.scheme
    cases shape : uri.scheme with
    | nil => exact absurd shape (isScheme_ne_nil legal)
    | cons head tail =>
      rw [shape] at legal member
      simp only [isScheme, Bool.and_eq_true, List.all_eq_true] at legal
      rcases List.mem_cons.mp member with rfl | later
      · exact absurd legal.1 (by decide)
      · exact absurd (legal.2 _ later) (by decide)
  have user : uri.user.elim 0 (List.countP (· == '>')) = 0 := by
    cases shape : uri.user with
    | none => rfl
    | some name =>
      refine countP_beq_eq_zero.mpr fun member => ?_
      exact absurd ((formed.user name shape).2 _ member) (by decide)
  have params : uri.paramCount (· == '>') = 0 ↔
      ∀ entry ∈ uri.params.entries, '>' ∉ entryText entry := by
    unfold Uri.paramCount
    rw [List.sum_eq_zero_iff_forall_eq_nat, List.forall_mem_map]
    exact forall₂_congr fun entry _ => countP_beq_eq_zero
  rw [← countP_beq_eq_zero, toText_count (foreign_char (by decide)) formed, sign, ite_self,
    Nat.add_zero]
  unfold Uri.count
  rw [scheme, user, Nat.add_zero, Nat.zero_add, Nat.add_eq_zero_iff, countP_beq_eq_zero, params]
  exact ⟨fun both => ⟨both.1, both.2⟩, fun kept => ⟨kept.host, kept.params⟩⟩

end Counting

section Ends
variable {form : FormUrlencoded}

/-- The field that the printed text ends in, where it does not end in furniture. -/
def Uri.lastText (uri : Uri) : Text :=
  if uri.headers.entries.isEmpty then
    match uri.params.entries.getLast? with
    | some entry => entryText entry
    | none => if uri.lr = false ∧ uri.transport = .Udp ∧ uri.port = none then uri.host else []
  else []

theorem solid_end (front : Text) {back : Text} (present : back ≠ [])
    (solid : ∀ c ∈ back, whitespace c = false) :
    ∃ last, (front ++ back).getLast? = some last ∧ whitespace last = false := by
  rcases List.eq_nil_or_concat back with empty | ⟨start, last, split⟩
  · exact absurd empty present
  · rw [List.concat_eq_append] at split
    refine ⟨last, ?_, solid last (by rw [split]; simp)⟩
    rw [split, ← List.append_assoc]
    simp

theorem flags_end {uri : Uri} {text : Text}
    (shape : text = uri.scheme ++ ':' :: (uri.user.elim [] (· ++ ['@']) ++ (uri.host ++
      uri.port.elim [] (fun port => ':' :: digits port.toNat) ++
        uri.flagParts.flatMap (';' :: ·)))) :
    ∃ front last, text = front ++
        (if uri.lr = false ∧ uri.transport = .Udp ∧ uri.port = none then uri.host else []) ∧
      front.getLast? = some last ∧ whitespace last = false := by
  have ended : ∀ front back : Text, back ≠ [] → (∀ c ∈ back, furniture c = true) →
      text = front ++ back → ¬(uri.lr = false ∧ uri.transport = .Udp ∧ uri.port = none) →
      ∃ front last, text = front ++
          (if uri.lr = false ∧ uri.transport = .Udp ∧ uri.port = none then uri.host else []) ∧
        front.getLast? = some last ∧ whitespace last = false := by
    intro front back present known whole more
    obtain ⟨last, final, solid⟩ := solid_end front present fun c member =>
      furniture_visible (known c member)
    exact ⟨front ++ back, last, by rw [if_neg more, List.append_nil, whole], final, solid⟩
  by_cases lr : uri.lr = true
  · have flags : uri.flagParts.flatMap (';' :: ·) = (if uri.transport = .Udp then []
        else ["transport=".toList ++ transportText uri.transport]).flatMap (';' :: ·) ++
          ";lr".toList := by
      unfold Uri.flagParts
      rw [if_pos lr, List.flatMap_append, List.flatMap_singleton]
      rfl
    refine ended (uri.scheme ++ ':' :: (uri.user.elim [] (· ++ ['@']) ++ (uri.host ++
      uri.port.elim [] (fun port => ':' :: digits port.toNat) ++ (if uri.transport = .Udp then []
        else ["transport=".toList ++ transportText uri.transport]).flatMap (';' :: ·))))
      ";lr".toList (by decide) (by decide) ?_ (by simp [lr])
    rw [shape, flags]
    simp only [List.append_assoc, List.cons_append]
  · by_cases transport : uri.transport = .Udp
    · have flags : uri.flagParts = [] := by
        unfold Uri.flagParts
        rw [if_pos transport, if_neg lr]
        rfl
      rw [flags, List.flatMap_nil, List.append_nil] at shape
      rcases Option.eq_none_or_eq_some uri.port with given | ⟨port, given⟩
      · rw [given, Option.elim_none, List.append_nil] at shape
        rw [if_pos ⟨by simpa using lr, transport, given⟩]
        cases user : uri.user with
        | none =>
          rw [user] at shape
          obtain ⟨last, final, solid⟩ := solid_end uri.scheme (List.cons_ne_nil ':' [])
            (by decide)
          refine ⟨_, last, ?_, final, solid⟩
          rw [shape]
          simp
        | some name =>
          rw [user] at shape
          obtain ⟨last, final, solid⟩ := solid_end (uri.scheme ++ ':' :: name)
            (List.cons_ne_nil '@' []) (by decide)
          refine ⟨_, last, ?_, final, solid⟩
          rw [shape]
          simp
      · rw [given, Option.elim_some] at shape
        refine ended (uri.scheme ++ ':' :: (uri.user.elim [] (· ++ ['@']) ++ uri.host))
          (':' :: digits port.toNat) (by simp) ?_ ?_ (by simp [given])
        · intro c member
          rcases List.mem_cons.mp member with rfl | inside
          · decide
          · exact furniture_digits _ c inside
        · rw [shape]
          simp only [List.append_assoc, List.cons_append]
    · have flags : uri.flagParts.flatMap (';' :: ·) =
          ";transport=".toList ++ transportText uri.transport := by
        unfold Uri.flagParts
        rw [if_neg transport, if_neg lr, List.append_nil, List.flatMap_singleton]
        rfl
      refine ended (uri.scheme ++ ':' :: (uri.user.elim [] (· ++ ['@']) ++ (uri.host ++
        uri.port.elim [] (fun port => ':' :: digits port.toNat))))
        (";transport=".toList ++ transportText uri.transport) ?_ ?_ ?_ (by simp [transport])
      · cases uri.transport <;> decide
      · cases uri.transport <;> decide
      · rw [shape, flags]
        simp only [List.append_assoc, List.cons_append]

/-- Where the last field is printed, something other than white space stands before it. -/
theorem toText_ends {uri : Uri} (formed : uri.Formed) :
    ∃ front last, uri.toText form = front ++ uri.lastText ∧ front.getLast? = some last ∧
      whitespace last = false := by
  have shape : uri.toText form = uri.scheme ++ ':' :: (uri.user.elim [] (· ++ ['@']) ++
      uri.locationText form) := toText_formed formed
  have headers : uri.headers.entries = [] → uri.headersText form = [] := by
    intro empty
    unfold Uri.headersText
    rw [empty, form.serialize_nil]
    rfl
  unfold Uri.lastText
  split
  · rename_i noHeaders
    have nothing := headers (List.isEmpty_iff.mp noHeaders)
    have place : uri.locationText form = uri.host ++
        uri.port.elim [] (fun port => ':' :: digits port.toNat) ++
          uri.paramParts.flatMap (';' :: ·) := by
      unfold Uri.locationText
      rw [nothing, List.append_nil]
    rw [place] at shape
    split
    · rename_i entry final
      obtain ⟨before, split⟩ := List.getLast?_eq_some_iff.mp final
      have parts : uri.paramParts.flatMap (';' :: ·) =
          (uri.flagParts ++ before.map entryText).flatMap (';' :: ·) ++ [';'] ++ entryText entry := by
        unfold Uri.paramParts
        rw [split, List.map_append, ← List.append_assoc, List.flatMap_append, List.map_singleton,
          List.flatMap_singleton, List.append_assoc]
        rfl
      rw [parts] at shape
      obtain ⟨last, final, solid⟩ := solid_end (uri.scheme ++ ':' ::
        (uri.user.elim [] (· ++ ['@']) ++ (uri.host ++
          uri.port.elim [] (fun port => ':' :: digits port.toNat) ++
            (uri.flagParts ++ before.map entryText).flatMap (';' :: ·))))
              (List.cons_ne_nil ';' []) (by decide)
      refine ⟨_, last, ?_, final, solid⟩
      rw [shape]
      simp only [List.append_assoc, List.cons_append, List.nil_append]
    · rename_i final
      have noParams : uri.params.entries = [] := List.getLast?_eq_none_iff.mp final
      have parts : uri.paramParts = uri.flagParts := by
        unfold Uri.paramParts
        rw [noParams, List.map_nil, List.append_nil]
      rw [parts] at shape
      exact flags_end shape
  · rename_i present
    have written : uri.headersText form = '?' :: form.serialize uri.headers.entries := by
      unfold Uri.headersText
      refine if_neg fun empty => present ?_
      have parsed := form.parse_serialize uri.headers.entries
      rw [List.isEmpty_iff.mp empty, ← form.serialize_nil, form.parse_serialize] at parsed
      rw [← parsed]
      rfl
    have solid : ∀ c ∈ '?' :: form.serialize uri.headers.entries, whitespace c = false := by
      intro c member
      rcases List.mem_cons.mp member with rfl | inside
      · decide
      · exact furniture_visible (by simp [furniture, form.serialize_plain _ _ inside])
    obtain ⟨last, final, visible⟩ := solid_end (uri.scheme ++ ':' ::
      (uri.user.elim [] (· ++ ['@']) ++ (uri.host ++
        uri.port.elim [] (fun port => ':' :: digits port.toNat) ++
          uri.paramParts.flatMap (';' :: ·)))) (by simp) solid
    refine ⟨_, last, ?_, final, visible⟩
    rw [shape]
    unfold Uri.locationText
    rw [written]
    simp only [List.append_assoc, List.cons_append, List.append_nil]

theorem last_solid_iff {uri : Uri} (formed : uri.Formed) :
    (∀ c ∈ (uri.toText form).getLast?, whitespace c = false) ↔
      ∀ c ∈ uri.lastText.getLast?, whitespace c = false := by
  obtain ⟨front, last, split, final, solid⟩ := @toText_ends form _ formed
  rw [split, List.getLast?_append]
  cases uri.lastText.getLast? with
  | none =>
    rw [Option.none_or, final]
    refine iff_of_true ?_ (by simp)
    rintro c ⟨⟩
    exact solid
  | some other => rfl

/-- Of a URI that stands last on a line, white space at its end is not read. -/
theorem Uri.fromStr_trim {uri : Uri} (formed : uri.Formed) :
    Uri.fromStr form (trim whitespace (uri.toText form)) = some uri ↔
      uri.Kept form ∧ ∀ c ∈ uri.lastText.getLast?, whitespace c = false := by
  have foreign : Foreign whitespace := fun c => furniture_visible
  have sign : ['@'].countP whitespace = 0 := by decide
  rw [← @last_solid_iff form _ formed]
  constructor
  · intro back
    have held := Uri.fromStr_count whitespace back
    have printed := @toText_count form _ foreign _ formed
    rw [sign, ite_self, Nat.add_zero] at held printed
    rw [← printed] at held
    have whole := trim_eq_self_of_count held
    rw [whole] at back
    exact ⟨(Uri.fromStr_toText formed).mp back, ((trim_eq_self_iff _).mp whole).2⟩
  · rintro ⟨kept, last⟩
    have first : ∀ c ∈ (uri.toText form).head?, whitespace c = false := by
      rw [toText_formed formed]
      have legal := formed.scheme
      cases shape : uri.scheme with
      | nil => exact absurd shape (isScheme_ne_nil legal)
      | cons head tail =>
        rw [shape] at legal
        intro c start
        obtain rfl : head = c := by simpa using start
        have letter : head.isAlphanum = true := by
          simp only [isScheme, Bool.and_eq_true] at legal
          simp [Char.isAlphanum, legal.1]
        exact furniture_visible (by simp [furniture, plain, letter])
    rw [trim_bare ⟨first, last⟩]
    exact (Uri.fromStr_toText formed).mpr kept

end Ends

end SipText
