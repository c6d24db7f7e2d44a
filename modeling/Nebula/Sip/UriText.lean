import Nebula.Lib.TextScan
import Nebula.Lib.DecimalText
import Nebula.Lib.IndexMap
import Nebula.Sip.Message

/- The URIs of SIP messages as texts: what is read from a text, what is printed, and
   when the printed text is read as the same URI. -/
namespace SipText
open Sip (TransportType)
open TextScan DecimalText

abbrev Text := List Char

/-- The characters of a text are checked one by one, not those of the whole type. -/
instance (priority := 2000) decidableAllIn (text : Text) (P : Char → Prop) [DecidablePred P] :
    Decidable (∀ c ∈ text, P c) :=
  List.decidableBAll P text

instance (priority := 2000) decidableAllOf (found : Option Char) (P : Char → Prop)
    [DecidablePred P] : Decidable (∀ c ∈ found, P c) :=
  Option.decidableForallMem found

/-- Unicode's White_Space, which trim takes off. -/
def whitespace (c : Char) : Bool :=
  let code := c.toNat
  (9 ≤ code && code ≤ 13) || (0x2000 ≤ code && code ≤ 0x200A) ||
    [0x20, 0x85, 0xA0, 0x1680, 0x2028, 0x2029, 0x202F, 0x205F, 0x3000].contains code

/-- Lower case as far as a comparison with a name in ASCII can tell: the Kelvin sign
    is the only other character with an ASCII lower case. -/
def lowercase (text : Text) : Text :=
  text.map fun c => if c.toNat = 0x212A then 'k' else c.toLower

/-- Where the ten decimal digits of each script start: \d is more than ASCII. -/
def zeros : List Nat :=
  [0x30, 0x660, 0x6F0, 0x7C0, 0x966, 0x9E6, 0xA66, 0xAE6, 0xB66, 0xBE6, 0xC66, 0xCE6, 0xD66,
    0xDE6, 0xE50, 0xED0, 0xF20, 0x1040, 0x1090, 0x17E0, 0x1810, 0x1946, 0x19D0, 0x1A80, 0x1A90,
    0x1B50, 0x1BB0, 0x1C40, 0x1C50, 0xA620, 0xA8D0, 0xA900, 0xA9D0, 0xA9F0, 0xAA50, 0xABF0,
    0xFF10, 0x104A0, 0x10D30, 0x11066, 0x110F0, 0x11136, 0x111D0, 0x112F0, 0x11450, 0x114D0,
    0x11650, 0x116C0, 0x11730, 0x118E0, 0x11950, 0x11C50, 0x11D50, 0x11DA0, 0x11F50, 0x16A60,
    0x16AC0, 0x16B50, 0x1D7CE, 0x1D7D8, 0x1D7E2, 0x1D7EC, 0x1D7F6, 0x1E140, 0x1E2F0, 0x1E4F0,
    0x1E950, 0x1FBF0]

def decimal (c : Char) : Bool := zeros.any fun first => first ≤ c.toNat && c.toNat < first + 10

def transportText : TransportType → Text
  | .Udp => "udp".toList
  | .Tcp => "tcp".toList
  | .Tls => "tls".toList
  | .Ws => "ws".toList
  | .Wss => "wss".toList

def transportFromStr (text : Text) : Option TransportType :=
  [.Udp, .Tcp, .Tls, .Ws, .Wss].find? fun transport =>
    transportText transport = text.map Char.toLower

@[simp] theorem transportFromStr_text (transport : TransportType) :
    transportFromStr (transportText transport) = some transport := by
  cases transport <;> decide

/-- The characters that an urlencoded text consists of. -/
def plain (c : Char) : Bool := c.isAlphanum || "&=+%*-._".toList.contains c

/-- The characters that are printed around the fields of a URI and of a Via. -/
def furniture (c : Char) : Bool := plain c || ":;?".toList.contains c

/-- The url crate's form_urlencoded, by what is known of it: what it serializes is
    read back and holds only characters that need no escape. -/
structure FormUrlencoded where
  parse : Text → List (Text × Text)
  serialize : List (Text × Text) → Text
  serialize_nil : serialize [] = []
  parse_serialize : ∀ pairs, parse (serialize pairs) = pairs
  serialize_plain : ∀ pairs, ∀ c ∈ serialize pairs, plain c = true

structure Uri where
  scheme : Text := []
  user : Option Text := none
  password : Option Text := none
  host : Text := []
  port : Option UInt16 := none
  transport : TransportType := .Udp
  lr : Bool := false
  params : IndexMap Text (Option Text) := .empty
  headers : IndexMap Text Text := .empty
  deriving DecidableEq

section Pattern

def schemeChar (c : Char) : Bool := c.isAlphanum || "+-.".toList.contains c

def isScheme : Text → Bool
  | [] => false
  | c :: rest => c.isAlpha && rest.all schemeChar

def userChar (c : Char) : Bool := c.isAlphanum || "-_.!~*#'()&=+$,;?/%".toList.contains c

def passwordChar (c : Char) : Bool := !":@;?".toList.contains c

def hostChar (c : Char) : Bool := !";?:".toList.contains c

/-- What follows a character that may start the next group. -/
def strip (c : Char) : Text → Option Text
  | [] => none
  | head :: rest => if head = c then some rest else none

structure Location where
  host : Text
  port : Option Text
  params : Option Text
  headers : Option Text

/-- The last group; a dot does not match a newline. -/
def headersGroup (text : Text) : Option (Option Text) :=
  match strip '?' text with
  | some headers => if headers.contains '\n' then none else some (some headers)
  | none => if text.isEmpty then some none else none

def paramsGroup (host : Text) (port : Option Text) (text : Text) : Option Location :=
  match strip ';' text with
  | some rest =>
    (headersGroup (rest.dropWhile (· != '?'))).map
      (Location.mk host port (some (rest.takeWhile (· != '?'))))
  | none => (headersGroup text).map (Location.mk host port none)

/-- The host and what follows it, up to the end of the text. -/
def location (text : Text) : Option Location :=
  match strip ':' (text.dropWhile hostChar) with
  | some rest =>
    if (rest.takeWhile decimal).isEmpty then none
    else
      paramsGroup (text.takeWhile hostChar) (some (rest.takeWhile decimal))
        (rest.dropWhile decimal)
  | none => paramsGroup (text.takeWhile hostChar) none (text.dropWhile hostChar)

structure Userinfo where
  user : Text
  password : Option Text
  rest : Text

def withPassword (user text : Text) : Option Userinfo :=
  if (text.takeWhile passwordChar).isEmpty then none
  else
    (strip '@' (text.dropWhile passwordChar)).map
      (Userinfo.mk user (some (text.takeWhile passwordChar)))

/-- The user and the password before an at sign. The characters of a user hold neither
    a colon nor an at sign, so that only the longest run of them can be the user. -/
def userinfo (text : Text) : Option Userinfo :=
  if (text.takeWhile userChar).isEmpty then none
  else
    match strip '@' (text.dropWhile userChar) with
    | some rest => some ⟨text.takeWhile userChar, none, rest⟩
    | none => (strip ':' (text.dropWhile userChar)).bind (withPassword (text.takeWhile userChar))

structure Captures where
  scheme : Text
  user : Option Text
  password : Option Text
  location : Location

/-- The user information is optional: without it the pattern is tried once more. -/
def afterScheme (scheme text : Text) : Option Captures :=
  ((userinfo text).bind fun found =>
    (location found.rest).map (Captures.mk scheme (some found.user) found.password)).or
  ((location text).map (Captures.mk scheme none none))

/-- URI_REGEX. -/
def captures (text : Text) : Option Captures :=
  (cut ':' text).2.bind fun rest =>
    if isScheme (cut ':' text).1 then afterScheme (cut ':' text).1 rest else none

end Pattern

section Reading

def Uri.setParam (uri : Uri) (name : Text) (value : Option Text) : Option Uri :=
  if name.isEmpty then some uri
  else if name = "transport".toList then
    (transportFromStr (value.getD "udp".toList)).map fun transport => { uri with transport }
  else if name = "lr".toList then some { uri with lr := true }
  else some { uri with params := uri.params.insert name value }

def Uri.readParam (uri : Uri) (part : Text) : Option Uri :=
  uri.setParam (cut '=' part).1 (cut '=' part).2

def readPort : Option Text → Option (Option UInt16)
  | none => some none
  | some text => (readUInt16 text).map some

def readHeaders (form : FormUrlencoded) (headers : Option Text) : IndexMap Text Text :=
  (headers.elim [] form.parse).foldl (fun map pair => map.insert pair.1 pair.2) .empty

def Captures.read (form : FormUrlencoded) (found : Captures) : Option Uri :=
  (readPort found.location.port).bind fun port =>
    let uri : Uri := { scheme := found.scheme, user := found.user, password := found.password
                       host := found.location.host, port }
    ((found.location.params.elim [] (List.splitOn ';')).foldlM Uri.readParam uri).map fun uri =>
      { uri with headers := readHeaders form found.location.headers }

def Uri.fromStr (form : FormUrlencoded) (s : Text) : Option Uri :=
  (captures s).bind (Captures.read form)

end Reading

section Printing

def Uri.flagParts (uri : Uri) : List Text :=
  (if uri.transport = .Udp then [] else ["transport=".toList ++ transportText uri.transport]) ++
  (if uri.lr then ["lr".toList] else [])

def Uri.paramParts (uri : Uri) : List Text :=
  uri.flagParts ++ uri.params.entries.map fun entry => join '=' entry.1 entry.2

def Uri.headersText (form : FormUrlencoded) (uri : Uri) : Text :=
  if (form.serialize uri.headers.entries).isEmpty then []
  else '?' :: form.serialize uri.headers.entries

/-- What is printed after the scheme and the user. -/
def Uri.locationText (form : FormUrlencoded) (uri : Uri) : Text :=
  uri.host ++ uri.port.elim [] (fun port => ':' :: digits port.toNat) ++
    uri.paramParts.flatMap (';' :: ·) ++ uri.headersText form

def Uri.toText (form : FormUrlencoded) (uri : Uri) : Text :=
  (if uri.scheme.isEmpty then "sip".toList else uri.scheme) ++
    ':' :: (uri.user.elim [] (· ++ ['@']) ++ uri.locationText form)

end Printing

section Groups

theorem strip_eq_some {c : Char} {text rest : Text} :
    strip c text = some rest ↔ text = c :: rest := by
  cases text with
  | nil => simp [strip]
  | cons head tail => simp [strip]

@[simp] theorem strip_cons (c : Char) (rest : Text) : strip c (c :: rest) = some rest :=
  strip_eq_some.mpr rfl

theorem strip_eq_none {c : Char} {text : Text} (other : c ∉ text.head?) : strip c text = none := by
  cases text with
  | nil => rfl
  | cons head tail =>
    have apart : head ≠ c := by simpa using other
    simp [strip, apart]

theorem paramsGroup_some {host text : Text} {port : Option Text} {found : Location}
    (matched : paramsGroup host port text = some found) :
    found.host = host ∧ found.port = port ∧
      ∀ params ∈ found.params, params.Sublist text ∧ '?' ∉ params := by
  unfold paramsGroup at matched
  split at matched
  · rename_i rest start
    obtain ⟨headers, _, rfl⟩ := Option.map_eq_some_iff.mp matched
    refine ⟨rfl, rfl, ?_⟩
    intro params same
    rw [← Option.some.inj same, strip_eq_some.mp start]
    refine ⟨(List.takeWhile_sublist _).cons _, ?_⟩
    intro member
    simpa using List.mem_takeWhile_imp member
  · obtain ⟨headers, _, rfl⟩ := Option.map_eq_some_iff.mp matched
    exact ⟨rfl, rfl, by simp⟩

theorem location_some {text : Text} {found : Location} (matched : location text = some found) :
    found.host = text.takeWhile hostChar ∧
      ∀ params ∈ found.params, params.Sublist (text.dropWhile hostChar) ∧ '?' ∉ params := by
  unfold location at matched
  split at matched
  · rename_i rest start
    split at matched
    · cases matched
    · obtain ⟨host, _, params⟩ := paramsGroup_some matched
      refine ⟨host, fun text same => ?_⟩
      obtain ⟨inside, absent⟩ := params text same
      rw [strip_eq_some.mp start]
      exact ⟨(inside.trans (List.dropWhile_sublist _)).cons _, absent⟩
  · obtain ⟨host, _, params⟩ := paramsGroup_some matched
    exact ⟨host, params⟩

theorem userinfo_some {text : Text} {found : Userinfo} (matched : userinfo text = some found) :
    found.user ≠ [] ∧ (∀ c ∈ found.user, userChar c = true) ∧
      ∃ middle, text = found.user ++ (middle ++ '@' :: found.rest) := by
  have whole := List.takeWhile_append_dropWhile (p := userChar) (l := text)
  have kind : ∀ c ∈ text.takeWhile userChar, userChar c = true :=
    fun c member => List.mem_takeWhile_imp member
  unfold userinfo at matched
  split at matched
  · cases matched
  · rename_i present
    rw [List.isEmpty_iff] at present
    split at matched
    · rename_i rest start
      rw [strip_eq_some.mp start] at whole
      obtain rfl := Option.some.inj matched
      exact ⟨present, kind, [], whole.symm⟩
    · obtain ⟨rest, start, inner⟩ := Option.bind_eq_some_iff.mp matched
      unfold withPassword at inner
      split at inner
      · cases inner
      · obtain ⟨after, ends, rfl⟩ := Option.map_eq_some_iff.mp inner
        have parts := List.takeWhile_append_dropWhile (p := passwordChar) (l := rest)
        rw [strip_eq_some.mp ends] at parts
        rw [strip_eq_some.mp start, ← parts] at whole
        exact ⟨present, kind, ':' :: rest.takeWhile passwordChar, whole.symm⟩

/-- With or without user information, what a pattern matches after the scheme. -/
theorem afterScheme_some {scheme text : Text} {found : Captures}
    (matched : afterScheme scheme text = some found) :
    found.scheme = scheme ∧
      ((found.user = none ∧ found.password = none ∧ location text = some found.location) ∨
        ∃ user, userinfo text = some user ∧ found.user = some user.user ∧
          location user.rest = some found.location) := by
  unfold afterScheme at matched
  rcases Option.or_eq_some_iff.mp matched with withUser | bare
  · obtain ⟨user, seen, rest⟩ := Option.bind_eq_some_iff.mp withUser
    obtain ⟨place, there, rfl⟩ := Option.map_eq_some_iff.mp rest
    exact ⟨rfl, Or.inr ⟨user, seen, rfl, there⟩⟩
  · obtain ⟨place, there, rfl⟩ := Option.map_eq_some_iff.mp bare.2
    exact ⟨rfl, Or.inl ⟨rfl, rfl, there⟩⟩

theorem captures_some {text : Text} {found : Captures} (matched : captures text = some found) :
    ∃ rest, text = found.scheme ++ ':' :: rest ∧ isScheme found.scheme = true ∧
      afterScheme found.scheme rest = some found := by
  obtain ⟨rest, after, inner⟩ := Option.bind_eq_some_iff.mp matched
  split at inner
  · rename_i legal
    obtain ⟨scheme, _⟩ := afterScheme_some inner
    refine ⟨rest, ?_, scheme ▸ legal, scheme ▸ inner⟩
    rw [scheme]
    exact (@cut_eq_some _ _ _ text _ _ (Prod.ext rfl after)).2
  · cases inner

end Groups

section Parameters

def entryText (entry : Text × Option Text) : Text := join '=' entry.1 entry.2

def Uri.paramCount (marked : Char → Bool) (uri : Uri) : Nat :=
  (uri.params.entries.map fun entry => (entryText entry).countP marked).sum

/-- A parameter as it stands in the map of a URI that was read. -/
structure NamedParam (entry : Text × Option Text) : Prop where
  named : entry.1 ≠ []
  notTransport : entry.1 ≠ "transport".toList
  notLr : entry.1 ≠ "lr".toList
  onePart : '=' ∉ entry.1 ∧ ';' ∉ entryText entry ∧ '?' ∉ entryText entry

/-- Reading a parameter changes the transport, the flag and the map only. -/
structure ParamsOnly (before after : Uri) : Prop where
  scheme : after.scheme = before.scheme
  user : after.user = before.user
  password : after.password = before.password
  host : after.host = before.host

theorem ParamsOnly.refl (uri : Uri) : ParamsOnly uri uri := ⟨rfl, rfl, rfl, rfl⟩

theorem ParamsOnly.trans {first second third : Uri} (one : ParamsOnly first second)
    (two : ParamsOnly second third) : ParamsOnly first third :=
  ⟨two.scheme.trans one.scheme, two.user.trans one.user, two.password.trans one.password,
    two.host.trans one.host⟩

theorem readParam_some {uri after : Uri} {part : Text} (read : uri.readParam part = some after) :
    ParamsOnly uri after ∧
      (after.params = uri.params ∨
        (cut '=' part).1 ≠ [] ∧ (cut '=' part).1 ≠ "transport".toList ∧
          (cut '=' part).1 ≠ "lr".toList ∧
          after.params = uri.params.insert (cut '=' part).1 (cut '=' part).2) := by
  unfold Uri.readParam Uri.setParam at read
  split at read
  · obtain rfl := Option.some.inj read
    exact ⟨.refl _, Or.inl rfl⟩
  · rename_i named
    split at read
    · obtain ⟨transport, _, rfl⟩ := Option.map_eq_some_iff.mp read
      exact ⟨⟨rfl, rfl, rfl, rfl⟩, Or.inl rfl⟩
    · rename_i notTransport
      split at read
      · obtain rfl := Option.some.inj read
        exact ⟨⟨rfl, rfl, rfl, rfl⟩, Or.inl rfl⟩
      · rename_i notLr
        obtain rfl := Option.some.inj read
        rw [List.isEmpty_iff] at named
        exact ⟨⟨rfl, rfl, rfl, rfl⟩, Or.inr ⟨named, notTransport, notLr, rfl⟩⟩

theorem readParam_count (marked : Char → Bool) {uri after : Uri} {part : Text}
    (read : uri.readParam part = some after) :
    after.paramCount marked ≤ uri.paramCount marked + part.countP marked := by
  obtain ⟨_, same | ⟨_, _, _, inserted⟩⟩ := readParam_some read
  · unfold Uri.paramCount
    rw [same]
    omega
  · have grown := IndexMap.sum_insert (fun entry => (entryText entry).countP marked)
      (cut '=' part).1 (cut '=' part).2 uri.params
    have whole : entryText ((cut '=' part).1, (cut '=' part).2) = part := join_cut part
    rw [whole] at grown
    unfold Uri.paramCount
    rw [inserted]
    exact grown

theorem readParam_named {uri after : Uri} {part : Text} (read : uri.readParam part = some after)
    (one : ';' ∉ part ∧ '?' ∉ part) (named : ∀ entry ∈ uri.params.entries, NamedParam entry) :
    ∀ entry ∈ after.params.entries, NamedParam entry := by
  obtain ⟨_, same | ⟨some, notTransport, notLr, inserted⟩⟩ := readParam_some read
  · rwa [same]
  · intro entry member
    rw [inserted] at member
    rcases IndexMap.mem_insert member with rfl | old
    · refine ⟨some, notTransport, notLr, not_mem_cut part, ?_⟩
      have whole : entryText ((cut '=' part).1, (cut '=' part).2) = part := join_cut part
      rw [whole]
      exact one
    · exact named entry old

/-- All parameters of a text, one part after the other. -/
theorem readParams_some (marked : Char → Bool) {parts : List Text} {uri after : Uri}
    (read : parts.foldlM Uri.readParam uri = some after) :
    ParamsOnly uri after ∧
      after.paramCount marked ≤ uri.paramCount marked + (parts.map (List.countP marked)).sum ∧
      ((∀ part ∈ parts, ';' ∉ part ∧ '?' ∉ part) →
        (∀ entry ∈ uri.params.entries, NamedParam entry) →
          ∀ entry ∈ after.params.entries, NamedParam entry) := by
  induction parts generalizing uri with
  | nil =>
    obtain rfl := Option.some.inj read
    exact ⟨.refl _, by simp, fun _ named => named⟩
  | cons part parts ih =>
    obtain ⟨next, first, rest⟩ := Option.bind_eq_some_iff.mp read
    obtain ⟨only, count, keeps⟩ := ih rest
    have one := readParam_count marked first
    refine ⟨(readParam_some first).1.trans only, ?_, fun each named => ?_⟩
    · rw [List.map_cons, List.sum_cons]
      omega
    · exact keeps (fun part member => each part (List.mem_cons_of_mem _ member))
        (readParam_named first (each part List.mem_cons_self) named)

end Parameters

section Formed

/-- What a URI that was read from a text looks like. -/
structure Uri.Formed (uri : Uri) : Prop where
  scheme : isScheme uri.scheme = true
  user : ∀ user ∈ uri.user, user ≠ [] ∧ ∀ c ∈ user, userChar c = true
  password : uri.user = none → uri.password = none
  host : ∀ c ∈ uri.host, hostChar c = true
  params : ∀ entry ∈ uri.params.entries, NamedParam entry

/-- How many marked characters the fields of a URI hold, its headers apart. -/
def Uri.count (marked : Char → Bool) (uri : Uri) : Nat :=
  uri.scheme.countP marked + uri.user.elim 0 (List.countP marked) + uri.host.countP marked +
    uri.paramCount marked

theorem captures_read_some {form : FormUrlencoded} (marked : Char → Bool) {found : Captures}
    {uri : Uri} (read : found.read form = some uri)
    (params : ∀ params ∈ found.location.params, '?' ∉ params) :
    uri.scheme = found.scheme ∧ uri.user = found.user ∧ uri.password = found.password ∧
      uri.host = found.location.host ∧
      uri.paramCount marked ≤ found.location.params.elim 0 (List.countP marked) ∧
      ∀ entry ∈ uri.params.entries, NamedParam entry := by
  obtain ⟨port, _, inner⟩ := Option.bind_eq_some_iff.mp read
  obtain ⟨body, fold, rfl⟩ := Option.map_eq_some_iff.mp inner
  obtain ⟨only, count, keeps⟩ := readParams_some marked fold
  refine ⟨only.scheme, only.user, only.password, only.host, ?_, ?_⟩
  · refine count.trans ?_
    cases group : found.location.params with
    | none => simp [Uri.paramCount]
    | some text => simpa [Uri.paramCount] using countP_parts marked text
  · refine keeps ?_ (by simp)
    cases group : found.location.params with
    | none => simp
    | some text =>
      intro part member
      exact ⟨not_mem_part text part member,
        fun inside => params text group (mem_of_mem_part member inside)⟩

theorem location_count (marked : Char → Bool) {text : Text} {found : Location}
    (matched : location text = some found) :
    found.host.countP marked + found.params.elim 0 (List.countP marked) ≤ text.countP marked := by
  obtain ⟨host, params⟩ := location_some matched
  have run := @countP_run _ hostChar marked text
  rw [host]
  cases group : found.params with
  | none => simp only [Option.elim_none]; omega
  | some inner =>
    have less := (params inner group).1.countP_le (p := marked)
    simp only [Option.elim_some]
    omega

/-- The fields of a URI hold no more of any kind of character than the text it was read
    from, and the at sign after its user besides. -/
theorem Uri.fromStr_count {form : FormUrlencoded} (marked : Char → Bool) {s : Text} {uri : Uri}
    (read : Uri.fromStr form s = some uri) :
    uri.count marked + (if uri.user.isSome then ['@'].countP marked else 0) ≤ s.countP marked := by
  obtain ⟨found, matched, inner⟩ := Option.bind_eq_some_iff.mp read
  obtain ⟨rest, whole, _, after⟩ := captures_some matched
  obtain ⟨_, alone | ⟨info, seen, user, place⟩⟩ := afterScheme_some after
  · obtain ⟨user, _, place⟩ := alone
    obtain ⟨scheme, sameUser, _, host, params, _⟩ := captures_read_some marked inner
      fun params group => ((location_some place).2 params group).2
    have held := location_count marked place
    unfold Uri.count
    rw [scheme, sameUser, user, host, whole]
    simp only [Option.elim_none, Option.isSome_none, Bool.false_eq_true, ↓reduceIte,
      List.countP_append, List.countP_cons]
    omega
  · obtain ⟨scheme, sameUser, _, host, params, _⟩ := captures_read_some marked inner
      fun params group => ((location_some place).2 params group).2
    have held := location_count marked place
    obtain ⟨_, _, middle, split⟩ := userinfo_some seen
    unfold Uri.count
    rw [scheme, sameUser, user, host, whole, split]
    simp only [Option.elim_some, Option.isSome_some, ↓reduceIte, List.countP_append,
      List.countP_cons, List.countP_nil]
    omega

theorem Uri.fromStr_formed {form : FormUrlencoded} {s : Text} {uri : Uri}
    (read : Uri.fromStr form s = some uri) : uri.Formed := by
  obtain ⟨found, matched, inner⟩ := Option.bind_eq_some_iff.mp read
  obtain ⟨rest, whole, legal, after⟩ := captures_some matched
  obtain ⟨_, cases⟩ := afterScheme_some after
  have place : ∃ text, location text = some found.location := by
    rcases cases with ⟨_, _, place⟩ | ⟨info, _, _, place⟩
    · exact ⟨rest, place⟩
    · exact ⟨info.rest, place⟩
  obtain ⟨text, place⟩ := place
  obtain ⟨hostRun, group⟩ := location_some place
  obtain ⟨scheme, user, password, host, _, params⟩ := captures_read_some (fun _ => false) inner
    fun params same => (group params same).2
  refine ⟨scheme ▸ legal, ?_, ?_, ?_, params⟩
  · intro name present
    rw [user] at present
    rcases cases with ⟨none, _, _⟩ | ⟨info, seen, same, _⟩
    · rw [none] at present
      cases present
    · rw [same] at present
      obtain rfl := Option.some.inj present
      obtain ⟨nonempty, kind, _⟩ := userinfo_some seen
      exact ⟨nonempty, kind⟩
  · intro absent
    rw [user] at absent
    rcases cases with ⟨_, none, _⟩ | ⟨info, _, same, _⟩
    · rw [password, none]
    · rw [same] at absent
      cases absent
  · intro c member
    rw [host, hostRun] at member
    exact List.mem_takeWhile_imp member

end Formed

end SipText
