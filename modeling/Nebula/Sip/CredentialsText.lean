import Nebula.Sip.UriRoundTrip

/- The sequence number, the credentials and the challenges of SIP messages as texts.
   What is read of them comes back from what is printed, without conditions. -/
namespace SipText
open Sip (Method)
open TextScan DecimalText

section Bytes

def byteLength (s : Text) : Nat := (s.map Char.utf8Size).sum

/-- What follows the first bytes of a text; there is nothing where a slice would panic. -/
def dropBytes : Nat → Text → Option Text
  | 0, s => some s
  | _ + 1, [] => none
  | n + 1, c :: rest => if c.utf8Size ≤ n + 1 then dropBytes (n + 1 - c.utf8Size) rest else none

theorem dropBytes_append {front : Text} (rest : Text) (ascii : ∀ c ∈ front, c.utf8Size = 1) :
    dropBytes front.length (front ++ rest) = some rest := by
  induction front with
  | nil => cases rest <;> rfl
  | cons c front ih =>
    have one := ascii c List.mem_cons_self
    have later := ih fun d member => ascii d (List.mem_cons_of_mem _ member)
    simp [dropBytes, one, later]

/-- The slice without the first and the last byte. -/
def unquote : Text → Option Text
  | [] => none
  | c :: rest =>
    if c.utf8Size = 1 then
      rest.getLast?.bind fun last => if last.utf8Size = 1 then some rest.dropLast else none
    else none

theorem unquote_quoted (value : Text) : unquote ('"' :: (value ++ ['"'])) = some value := by
  have one : '"'.utf8Size = 1 := by decide
  simp [unquote, one]

theorem unquote_subset {value text : Text} (found : unquote value = some text) : text ⊆ value := by
  cases value with
  | nil => cases found
  | cons c rest =>
    simp only [unquote] at found
    split at found
    · obtain ⟨last, _, slice⟩ := Option.bind_eq_some_iff.mp found
      split at slice
      · obtain rfl := Option.some.inj slice
        exact fun d member => List.mem_cons_of_mem _ (List.dropLast_subset rest member)
      · cases slice
    · cases found

theorem dropBytes_subset {n : Nat} {s rest : Text} (found : dropBytes n s = some rest) :
    rest ⊆ s := by
  induction s generalizing n with
  | nil =>
    cases n with
    | zero => obtain rfl := Option.some.inj found; exact List.Subset.refl _
    | succ n => cases found
  | cons c s ih =>
    cases n with
    | zero => obtain rfl := Option.some.inj found; exact List.Subset.refl _
    | succ n =>
      unfold dropBytes at found
      split at found
      · exact fun d member => List.mem_cons_of_mem _ (ih found member)
      · cases found

end Bytes

section Sequence

def methodText (method : Method) : Text := method.text.toList

def methodFromStr (text : Text) : Option Method :=
  [.INVITE, .REGISTER, .CANCEL, .ACK, .BYE, .SUBSCRIBE, .REFER, .INFO, .NOTIFY, .PUBLISH,
    .OPTIONS].find? fun method => methodText method = text

theorem methodFromStr_text (method : Method) : methodFromStr (methodText method) = some method := by
  cases method <;> decide

structure Cseq where
  seq : Int32 := 0
  method : Method := .INVITE
  deriving DecidableEq

def Cseq.fromStr (s : Text) : Option Cseq :=
  (cut ' ' s).2.bind fun rest =>
    (readInt32 (cut ' ' s).1).bind fun seq => (methodFromStr rest).map (Cseq.mk seq)

def Cseq.toText (cseq : Cseq) : Text := signed cseq.seq.toInt ++ ' ' :: methodText cseq.method

theorem methodText_ends (method : Method) : ∃ front last, methodText method = front ++ [last] ∧
    whitespace last = false := by
  cases method
  case INVITE => exact ⟨"INVIT".toList, 'E', rfl, by decide⟩
  case REGISTER => exact ⟨"REGISTE".toList, 'R', rfl, by decide⟩
  case CANCEL => exact ⟨"CANCE".toList, 'L', rfl, by decide⟩
  case ACK => exact ⟨"AC".toList, 'K', rfl, by decide⟩
  case BYE => exact ⟨"BY".toList, 'E', rfl, by decide⟩
  case SUBSCRIBE => exact ⟨"SUBSCRIB".toList, 'E', rfl, by decide⟩
  case REFER => exact ⟨"REFE".toList, 'R', rfl, by decide⟩
  case INFO => exact ⟨"INF".toList, 'O', rfl, by decide⟩
  case NOTIFY => exact ⟨"NOTIF".toList, 'Y', rfl, by decide⟩
  case PUBLISH => exact ⟨"PUBLIS".toList, 'H', rfl, by decide⟩
  case OPTIONS => exact ⟨"OPTION".toList, 'S', rfl, by decide⟩

theorem bare_cseq (cseq : Cseq) : Bare whitespace cseq.toText := by
  obtain ⟨front, last, ends, solid⟩ := methodText_ends cseq.method
  constructor
  · intro c first
    obtain ⟨start, final, split, _⟩ := signed_snoc cseq.seq.toInt
    refine (bare_signed cseq.seq.toInt).1 c ?_
    unfold Cseq.toText at first
    rw [split] at first ⊢
    cases start with
    | nil => simpa using first
    | cons head tail => simpa using first
  · intro c final
    unfold Cseq.toText at final
    rw [ends] at final
    obtain rfl : last = c := by simpa [List.getLast?_cons] using final
    exact solid

/-- Every sequence number comes back from the text it is printed as. -/
theorem Cseq.fromStr_toText (cseq : Cseq) :
    Cseq.fromStr (trim whitespace cseq.toText) = some cseq := by
  have space := @not_mem_signed ' ' cseq.seq.toInt (by decide) (by decide)
  have found : cut ' ' cseq.toText = (signed cseq.seq.toInt, some (methodText cseq.method)) :=
    cut_join _ (some (methodText cseq.method)) space
  unfold Cseq.fromStr
  rw [trim_bare (bare_cseq cseq), found, Option.bind_some, readInt32_signed, Option.bind_some,
    methodFromStr_text]
  rfl

theorem newline_not_mem_cseq (cseq : Cseq) : '\n' ∉ cseq.toText := by
  have number := @not_mem_signed '\n' cseq.seq.toInt (by decide) (by decide)
  have letters : ∀ method, '\n' ∉ ' ' :: methodText method := by
    intro method
    cases method <;> decide
  intro member
  rcases List.mem_append.mp member with seq | method
  · exact number seq
  · exact letters _ method

end Sequence

section Credentials

structure Authorization where
  username : Text := []
  realm : Text := []
  nonce : Text := []
  uri : Text := []
  response : Text := []
  cnonce : Option Text := none
  nonceCount : Option Text := none
  qop : Option Text := none
  deriving DecidableEq

def Authorization.setField (auth : Authorization) (name value : Text) : Option Authorization :=
  if name = "username".toList then (unquote value).map fun text => { auth with username := text }
  else if name = "realm".toList then (unquote value).map fun text => { auth with realm := text }
  else if name = "nonce".toList then (unquote value).map fun text => { auth with nonce := text }
  else if name = "uri".toList then (unquote value).map fun text => { auth with uri := text }
  else if name = "response".toList then (unquote value).map fun text => { auth with response := text }
  else if name = "qop".toList then some { auth with qop := some value }
  else if name = "cnonce".toList then (unquote value).map fun text => { auth with cnonce := some text }
  else if name = "nc".toList then some { auth with nonceCount := some value }
  else some auth

def Authorization.readPart (auth : Authorization) (part : Text) : Option Authorization :=
  if (cut '=' (trim whitespace part)).1.isEmpty then some auth
  else
    auth.setField (cut '=' (trim whitespace part)).1 ((cut '=' (trim whitespace part)).2.getD [])

/-- There is no error, only a panic. -/
def Authorization.fromStr (s : Text) : Option Authorization :=
  (dropBytes 7 s).bind fun rest => (rest.splitOn ',').foldlM Authorization.readPart {}

def quoted (name value : Text) : Text := name ++ '=' :: '"' :: (value ++ ['"'])

def Authorization.parts (auth : Authorization) : List Text :=
  [quoted "username".toList auth.username, quoted "realm".toList auth.realm,
    quoted "nonce".toList auth.nonce, quoted "uri".toList auth.uri,
    quoted "response".toList auth.response, "algorithm=MD5".toList] ++
  auth.qop.elim [] (fun qop => ["qop=".toList ++ qop]) ++
  auth.cnonce.elim [] (fun cnonce => [quoted "cnonce".toList cnonce]) ++
  auth.nonceCount.elim [] (fun count => ["nc=".toList ++ count])

def digest (parts : List Text) : Text := "Digest ".toList ++ [','].intercalate parts

def Authorization.toText (auth : Authorization) : Text := digest auth.parts

structure Authenticate where
  realm : Text := []
  nonce : Text := []
  deriving DecidableEq

/-- Every value is unquoted, also those that nothing is done with. -/
def Authenticate.readPart (auth : Authenticate) (part : Text) : Option Authenticate :=
  if (cut '=' (trim whitespace part)).1.isEmpty then some auth
  else
    (unquote ((cut '=' (trim whitespace part)).2.getD [])).map fun value =>
      if (cut '=' (trim whitespace part)).1 = "realm".toList then { auth with realm := value }
      else if (cut '=' (trim whitespace part)).1 = "nonce".toList then { auth with nonce := value }
      else auth

def Authenticate.fromStr (s : Text) : Option Authenticate :=
  (dropBytes 7 s).bind fun rest => (rest.splitOn ',').foldlM Authenticate.readPart {}

def Authenticate.parts (auth : Authenticate) : List Text :=
  [quoted "realm".toList auth.realm, quoted "nonce".toList auth.nonce]

def Authenticate.toText (auth : Authenticate) : Text := digest auth.parts

end Credentials

section Parts

/-- A text that neither ends a part nor a line. -/
def Clean (text : Text) : Prop := ',' ∉ text ∧ '\n' ∉ text

theorem Clean.mono {text more : Text} (clean : Clean more) (within : text ⊆ more) : Clean text :=
  ⟨fun member => clean.1 (within member), fun member => clean.2 (within member)⟩

/-- A part as it is printed: nothing is trimmed from it and nothing in it ends it. -/
structure Solid (part : Text) : Prop where
  clean : Clean part
  bare : Bare whitespace part
  present : part ≠ []

theorem solid_append {name value : Text} (clean : Clean value)
    (last : ∀ c ∈ value.getLast?, whitespace c = false)
    (named : ∀ c ∈ name, c.isAlphanum = true) (present : name ≠ []) :
    Solid (name ++ '=' :: value) := by
  have visible : ∀ c ∈ name, whitespace c = false ∧ c ≠ ',' ∧ c ≠ '\n' := by
    intro c member
    have known := named c member
    refine ⟨furniture_visible (by simp [furniture, plain, known]), ?_, ?_⟩
    · rintro rfl
      exact absurd known (by decide)
    · rintro rfl
      exact absurd known (by decide)
  refine ⟨⟨?_, ?_⟩, ⟨?_, ?_⟩, by simp⟩
  · intro member
    rcases List.mem_append.mp member with inside | later
    · exact (visible _ inside).2.1 rfl
    · exact clean.1 (by simpa using later)
  · intro member
    rcases List.mem_append.mp member with inside | later
    · exact (visible _ inside).2.2 rfl
    · exact clean.2 (by simpa using later)
  · intro c first
    cases name with
    | nil => exact absurd rfl present
    | cons head tail =>
      obtain rfl : head = c := by simpa using first
      exact (visible _ List.mem_cons_self).1
  · intro c final
    rw [List.getLast?_append, List.getLast?_cons] at final
    cases shape : value.getLast? with
    | none =>
      rw [shape] at final
      obtain rfl : '=' = c := by simpa using final
      decide
    | some d =>
      rw [shape] at final
      obtain rfl : d = c := by simpa using final
      exact last d shape

theorem solid_quoted {name value : Text} (clean : Clean value)
    (named : ∀ c ∈ name, c.isAlphanum = true) (present : name ≠ []) : Solid (quoted name value) := by
  refine solid_append ⟨?_, ?_⟩ ?_ named present
  · simpa using clean.1
  · simpa using clean.2
  · intro c final
    obtain rfl : '"' = c := by simpa [List.getLast?_cons] using final
    decide

theorem intercalate_last (parts : List Text) (solid : ∀ part ∈ parts, Solid part) :
    ∀ c ∈ ([','].intercalate parts).getLast?, whitespace c = false := by
  induction parts with
  | nil => simp
  | cons part parts ih =>
    cases parts with
    | nil => simpa using (solid part List.mem_cons_self).bare.2
    | cons next rest =>
      have later := ih fun other member => solid other (List.mem_cons_of_mem _ member)
      intro c final
      rw [List.intercalate_cons_cons, List.getLast?_append] at final
      cases shape : ([','].intercalate (next :: rest)).getLast? with
      | none =>
        rw [shape] at final
        obtain rfl : ',' = c := by simpa using final
        decide
      | some d =>
        rw [shape] at final
        obtain rfl : d = c := by simpa using final
        exact later d shape

theorem trim_digest {parts : List Text} (solid : ∀ part ∈ parts, Solid part) (written : parts ≠ []) :
    trim whitespace (digest parts) = digest parts := by
  refine trim_bare ⟨fun c first => ?_, fun c final => ?_⟩
  · have shape : digest parts = 'D' :: ("igest ".toList ++ [','].intercalate parts) := rfl
    rw [shape] at first
    obtain rfl : 'D' = c := by simpa using first
    decide
  · unfold digest at final
    rw [List.getLast?_append] at final
    cases shape : ([','].intercalate parts).getLast? with
    | none =>
      obtain ⟨part, others, rfl⟩ := List.exists_cons_of_ne_nil written
      have empty := List.getLast?_eq_none_iff.mp shape
      have present := (solid part List.mem_cons_self).present
      cases others with
      | nil => exact absurd (by simpa using empty) present
      | cons next rest => simp [List.intercalate_cons_cons] at empty
    | some d =>
      rw [shape] at final
      obtain rfl : d = c := by simpa using final
      exact intercalate_last parts solid d shape

theorem digest_parts {parts : List Text} (solid : ∀ part ∈ parts, Solid part) (written : parts ≠ []) :
    (dropBytes 7 (digest parts)).map (List.splitOn ',') = some parts := by
  have rest : dropBytes 7 (digest parts) = some ([','].intercalate parts) :=
    @dropBytes_append ("Digest ".toList) _ (by decide)
  rw [rest, Option.map_some,
    List.splitOn_intercalate ',' (fun part member => (solid part member).clean.1) written]

theorem newline_not_mem_digest {parts : List Text} (solid : ∀ part ∈ parts, Solid part) :
    '\n' ∉ digest parts := by
  have inside : '\n' ∉ [','].intercalate parts := by
    induction parts with
    | nil => simp
    | cons part parts ih =>
      have first := (solid part List.mem_cons_self).clean.2
      have later := ih fun other member => solid other (List.mem_cons_of_mem _ member)
      cases parts with
      | nil => simpa using first
      | cons next rest =>
        rw [List.intercalate_cons_cons]
        simp [first, later]
  intro member
  rcases List.mem_append.mp member with word | later
  · exact absurd word (by decide)
  · exact inside later

/-- The value of a trimmed part ends where the part ends. -/
theorem value_last (part : Text) :
    ∀ c ∈ ((cut '=' (trim whitespace part)).2.getD []).getLast?, whitespace c = false := by
  intro c final
  have whole := @join_cut _ _ '=' (trim whitespace part)
  cases value : (cut '=' (trim whitespace part)).2 with
  | none =>
    rw [value] at final
    cases final
  | some text =>
    rw [value, join_some] at whole
    rw [value, Option.getD_some] at final
    refine (@bare_trim _ whitespace part).2 c ?_
    rw [← whole, List.getLast?_append, List.getLast?_cons, Option.mem_def.mp final]
    rfl

theorem value_subset (part : Text) : (cut '=' (trim whitespace part)).2.getD [] ⊆ part := by
  intro c member
  have whole := @join_cut _ _ '=' (trim whitespace part)
  cases value : (cut '=' (trim whitespace part)).2 with
  | none =>
    rw [value] at member
    cases member
  | some text =>
    rw [value, join_some] at whole
    rw [value, Option.getD_some] at member
    refine @mem_of_mem_trim _ whitespace _ _ ?_
    rw [← whole]
    exact List.mem_append_right _ (List.mem_cons_of_mem _ member)

theorem parts_clean {s rest : Text} (line : '\n' ∉ s) (found : dropBytes 7 s = some rest) :
    ∀ part ∈ rest.splitOn ',', Clean part := fun part member =>
  ⟨not_mem_part rest part member,
    fun inside => line (dropBytes_subset found (mem_of_mem_part member inside))⟩

end Parts

section RoundTrip

/-- A value that was not quoted ends in no white space. -/
def Raw (text : Text) : Prop := Clean text ∧ ∀ c ∈ text.getLast?, whitespace c = false

structure Authorization.Formed (auth : Authorization) : Prop where
  username : Clean auth.username
  realm : Clean auth.realm
  nonce : Clean auth.nonce
  uri : Clean auth.uri
  response : Clean auth.response
  cnonce : ∀ cnonce ∈ auth.cnonce, Clean cnonce
  nonceCount : ∀ count ∈ auth.nonceCount, Raw count
  qop : ∀ qop ∈ auth.qop, Raw qop

theorem setField_formed {auth after : Authorization} {name value : Text} (formed : auth.Formed)
    (raw : Raw value) (read : auth.setField name value = some after) : after.Formed := by
  have clean : ∀ text, unquote value = some text → Clean text :=
    fun text found => raw.1.mono (unquote_subset found)
  unfold Authorization.setField at read
  split at read
  · obtain ⟨text, found, rfl⟩ := Option.map_eq_some_iff.mp read
    exact { formed with username := clean text found }
  split at read
  · obtain ⟨text, found, rfl⟩ := Option.map_eq_some_iff.mp read
    exact { formed with realm := clean text found }
  split at read
  · obtain ⟨text, found, rfl⟩ := Option.map_eq_some_iff.mp read
    exact { formed with nonce := clean text found }
  split at read
  · obtain ⟨text, found, rfl⟩ := Option.map_eq_some_iff.mp read
    exact { formed with uri := clean text found }
  split at read
  · obtain ⟨text, found, rfl⟩ := Option.map_eq_some_iff.mp read
    exact { formed with response := clean text found }
  split at read
  · obtain rfl := Option.some.inj read
    exact { formed with qop := by rintro qop ⟨⟩; exact raw }
  split at read
  · obtain ⟨text, found, rfl⟩ := Option.map_eq_some_iff.mp read
    exact { formed with cnonce := by rintro cnonce ⟨⟩; exact clean text found }
  split at read
  · obtain rfl := Option.some.inj read
    exact { formed with nonceCount := by rintro count ⟨⟩; exact raw }
  · obtain rfl := Option.some.inj read
    exact formed

theorem readPart_formed {auth after : Authorization} {part : Text} (formed : auth.Formed)
    (clean : Clean part) (read : auth.readPart part = some after) : after.Formed := by
  unfold Authorization.readPart at read
  split at read
  · obtain rfl := Option.some.inj read
    exact formed
  · exact setField_formed formed ⟨clean.mono (value_subset part), value_last part⟩ read

theorem readParts_formed {auth after : Authorization} {parts : List Text} (formed : auth.Formed)
    (clean : ∀ part ∈ parts, Clean part)
    (read : parts.foldlM Authorization.readPart auth = some after) : after.Formed := by
  induction parts generalizing auth with
  | nil =>
    obtain rfl := Option.some.inj read
    exact formed
  | cons part parts ih =>
    obtain ⟨next, first, rest⟩ := Option.bind_eq_some_iff.mp read
    exact ih (readPart_formed formed (clean part List.mem_cons_self) first)
      (fun other member => clean other (List.mem_cons_of_mem _ member)) rest

theorem Authorization.fromStr_formed {s : Text} {auth : Authorization} (line : '\n' ∉ s)
    (read : Authorization.fromStr s = some auth) : auth.Formed := by
  obtain ⟨rest, found, fold⟩ := Option.bind_eq_some_iff.mp read
  have nothing : Clean [] := ⟨by simp, by simp⟩
  exact readParts_formed
    ⟨nothing, nothing, nothing, nothing, nothing, by simp, by simp, by simp⟩
    (parts_clean line found) fold

theorem readPart_value {name value : Text} (auth : Authorization)
    (solid : Solid (name ++ '=' :: value)) (named : '=' ∉ name) (present : name ≠ []) :
    auth.readPart (name ++ '=' :: value) = auth.setField name value := by
  have found : cut '=' (name ++ '=' :: value) = (name, some value) :=
    cut_join name (some value) named
  have written : name.isEmpty = false := by
    cases name with
    | nil => exact absurd rfl present
    | cons head tail => rfl
  unfold Authorization.readPart
  rw [trim_bare solid.bare, found, written]
  rfl

theorem solid_algorithm : Solid "algorithm=MD5".toList :=
  ⟨⟨by decide, by decide⟩, by decide, by decide⟩

theorem authorization_solid {auth : Authorization} (formed : auth.Formed) :
    ∀ part ∈ auth.parts, Solid part := by
  intro part member
  unfold Authorization.parts at member
  simp only [List.mem_append] at member
  rcases member with ((fixed | qop) | cnonce) | count
  · simp only [List.mem_cons, List.not_mem_nil, or_false] at fixed
    rcases fixed with rfl | rfl | rfl | rfl | rfl | rfl
    · exact solid_quoted formed.username (by decide) (by decide)
    · exact solid_quoted formed.realm (by decide) (by decide)
    · exact solid_quoted formed.nonce (by decide) (by decide)
    · exact solid_quoted formed.uri (by decide) (by decide)
    · exact solid_quoted formed.response (by decide) (by decide)
    · exact solid_algorithm
  · cases shape : auth.qop with
    | none => rw [shape] at qop; cases qop
    | some text =>
      rw [shape] at qop
      obtain rfl := List.mem_singleton.mp qop
      have raw := formed.qop text shape
      exact @solid_append ("qop".toList) _ raw.1 raw.2 (by decide) (by decide)
  · cases shape : auth.cnonce with
    | none => rw [shape] at cnonce; cases cnonce
    | some text =>
      rw [shape] at cnonce
      obtain rfl := List.mem_singleton.mp cnonce
      exact solid_quoted (formed.cnonce text shape) (by decide) (by decide)
  · cases shape : auth.nonceCount with
    | none => rw [shape] at count; cases count
    | some text =>
      rw [shape] at count
      obtain rfl := List.mem_singleton.mp count
      have raw := formed.nonceCount text shape
      exact @solid_append ("nc".toList) _ raw.1 raw.2 (by decide) (by decide)

theorem readPart_quoted {name value : Text} (auth : Authorization) (clean : Clean value)
    (named : ∀ c ∈ name, c.isAlphanum = true) (present : name ≠ []) :
    auth.readPart (quoted name value) = auth.setField name ('"' :: (value ++ ['"'])) := by
  refine readPart_value auth (solid_quoted clean named present) (fun member => ?_) present
  exact absurd (named _ member) (by decide)

theorem readParts_fixed {auth : Authorization} (formed : auth.Formed) :
    [quoted "username".toList auth.username, quoted "realm".toList auth.realm,
      quoted "nonce".toList auth.nonce, quoted "uri".toList auth.uri,
      quoted "response".toList auth.response, "algorithm=MD5".toList].foldlM
        Authorization.readPart {} =
      some { auth with cnonce := none, nonceCount := none, qop := none } := by
  have username : ∀ (start : Authorization),
      start.readPart (quoted "username".toList auth.username) =
        some { start with username := auth.username } := fun start =>
    (readPart_quoted start formed.username (by decide) (by decide)).trans
      (congrArg (Option.map _) (unquote_quoted auth.username))
  have realm : ∀ (start : Authorization),
      start.readPart (quoted "realm".toList auth.realm) =
        some { start with realm := auth.realm } := fun start =>
    (readPart_quoted start formed.realm (by decide) (by decide)).trans
      (congrArg (Option.map _) (unquote_quoted auth.realm))
  have nonce : ∀ (start : Authorization),
      start.readPart (quoted "nonce".toList auth.nonce) =
        some { start with nonce := auth.nonce } := fun start =>
    (readPart_quoted start formed.nonce (by decide) (by decide)).trans
      (congrArg (Option.map _) (unquote_quoted auth.nonce))
  have uri : ∀ (start : Authorization),
      start.readPart (quoted "uri".toList auth.uri) = some { start with uri := auth.uri } :=
    fun start => (readPart_quoted start formed.uri (by decide) (by decide)).trans
      (congrArg (Option.map _) (unquote_quoted auth.uri))
  have response : ∀ (start : Authorization),
      start.readPart (quoted "response".toList auth.response) =
        some { start with response := auth.response } := fun start =>
    (readPart_quoted start formed.response (by decide) (by decide)).trans
      (congrArg (Option.map _) (unquote_quoted auth.response))
  have algorithm : ∀ start : Authorization, start.readPart "algorithm=MD5".toList = some start :=
    fun start => @readPart_value ("algorithm".toList) ("MD5".toList) start
      solid_algorithm (by decide) (by decide)
  simp only [List.foldlM_cons, List.foldlM_nil, Option.bind_eq_bind, username, realm, nonce, uri,
    response, algorithm, Option.bind_some]
  rfl

theorem readParts_authorization {auth : Authorization} (formed : auth.Formed) :
    auth.parts.foldlM Authorization.readPart {} = some auth := by
  have qop : ∀ (start : Authorization) (text : Text), Raw text →
      start.readPart ("qop=".toList ++ text) = some { start with qop := some text } := by
    intro start text raw
    exact @readPart_value ("qop".toList) _ start
      (solid_append raw.1 raw.2 (by decide) (by decide)) (by decide) (by decide)
  have count : ∀ (start : Authorization) (text : Text), Raw text →
      start.readPart ("nc=".toList ++ text) = some { start with nonceCount := some text } := by
    intro start text raw
    exact @readPart_value ("nc".toList) _ start
      (solid_append raw.1 raw.2 (by decide) (by decide)) (by decide) (by decide)
  have cnonce : ∀ (start : Authorization) (text : Text), Clean text →
      start.readPart (quoted "cnonce".toList text) = some { start with cnonce := some text } :=
    fun start text clean => (readPart_quoted start clean (by decide) (by decide)).trans
      (congrArg (Option.map _) (unquote_quoted text))
  have qops : ∀ start : Authorization, start.qop = none →
      (auth.qop.elim [] fun text => ["qop=".toList ++ text]).foldlM Authorization.readPart start =
        some { start with qop := auth.qop } := by
    intro start unset
    cases shape : auth.qop with
    | none => exact congrArg some (by rw [← unset])
    | some text =>
      rw [Option.elim_some, List.foldlM_cons, qop start text (formed.qop text shape)]
      rfl
  have cnonces : ∀ start : Authorization, start.cnonce = none →
      (auth.cnonce.elim [] fun text => [quoted "cnonce".toList text]).foldlM
        Authorization.readPart start = some { start with cnonce := auth.cnonce } := by
    intro start unset
    cases shape : auth.cnonce with
    | none => exact congrArg some (by rw [← unset])
    | some text =>
      rw [Option.elim_some, List.foldlM_cons, cnonce start text (formed.cnonce text shape)]
      rfl
  have counts : ∀ start : Authorization, start.nonceCount = none →
      (auth.nonceCount.elim [] fun text => ["nc=".toList ++ text]).foldlM
        Authorization.readPart start = some { start with nonceCount := auth.nonceCount } := by
    intro start unset
    cases shape : auth.nonceCount with
    | none => exact congrArg some (by rw [← unset])
    | some text =>
      rw [Option.elim_some, List.foldlM_cons, count start text (formed.nonceCount text shape)]
      rfl
  unfold Authorization.parts
  rw [List.foldlM_append, List.foldlM_append, List.foldlM_append, readParts_fixed formed]
  simp only [Option.bind_eq_bind, Option.bind_some]
  rw [qops _ rfl, Option.bind_some, cnonces _ rfl, Option.bind_some, counts _ rfl]

/-- Credentials come back from the text they are printed as. -/
theorem Authorization.fromStr_toText {auth : Authorization} (formed : auth.Formed) :
    Authorization.fromStr (trim whitespace auth.toText) = some auth := by
  have solid := authorization_solid formed
  have written : auth.parts ≠ [] := by simp [Authorization.parts]
  obtain ⟨rest, found, parts⟩ := Option.map_eq_some_iff.mp (digest_parts solid written)
  unfold Authorization.fromStr Authorization.toText
  rw [trim_digest solid written, found, Option.bind_some, parts]
  exact readParts_authorization formed

structure Authenticate.Formed (auth : Authenticate) : Prop where
  realm : Clean auth.realm
  nonce : Clean auth.nonce

theorem authenticate_readParts_formed {auth after : Authenticate} {parts : List Text}
    (formed : auth.Formed) (clean : ∀ part ∈ parts, Clean part)
    (read : parts.foldlM Authenticate.readPart auth = some after) : after.Formed := by
  induction parts generalizing auth with
  | nil =>
    obtain rfl := Option.some.inj read
    exact formed
  | cons part parts ih =>
    obtain ⟨next, first, rest⟩ := Option.bind_eq_some_iff.mp read
    refine ih ?_ (fun other member => clean other (List.mem_cons_of_mem _ member)) rest
    have known := clean part List.mem_cons_self
    unfold Authenticate.readPart at first
    split at first
    · obtain rfl := Option.some.inj first
      exact formed
    · obtain ⟨value, found, rfl⟩ := Option.map_eq_some_iff.mp first
      have valued := (known.mono (value_subset part)).mono (unquote_subset found)
      split
      · exact { formed with realm := valued }
      split
      · exact { formed with nonce := valued }
      · exact formed

theorem Authenticate.fromStr_formed {s : Text} {auth : Authenticate} (line : '\n' ∉ s)
    (read : Authenticate.fromStr s = some auth) : auth.Formed := by
  obtain ⟨rest, found, fold⟩ := Option.bind_eq_some_iff.mp read
  exact authenticate_readParts_formed ⟨⟨by simp, by simp⟩, by simp, by simp⟩
    (parts_clean line found) fold

theorem authenticate_solid {auth : Authenticate} (formed : auth.Formed) :
    ∀ part ∈ auth.parts, Solid part := by
  intro part member
  simp only [Authenticate.parts, List.mem_cons, List.not_mem_nil, or_false] at member
  rcases member with rfl | rfl
  · exact solid_quoted formed.realm (by decide) (by decide)
  · exact solid_quoted formed.nonce (by decide) (by decide)

/-- Challenges come back from the text they are printed as. -/
theorem Authenticate.fromStr_toText {auth : Authenticate} (formed : auth.Formed) :
    Authenticate.fromStr (trim whitespace auth.toText) = some auth := by
  have solid := authenticate_solid formed
  have written : auth.parts ≠ [] := by simp [Authenticate.parts]
  have value : ∀ name text : Text, '=' ∉ name → Solid (quoted name text) →
      cut '=' (trim whitespace (quoted name text)) = (name, some ('"' :: (text ++ ['"']))) := by
    intro name text named whole
    rw [trim_bare whole.bare]
    exact cut_join name (some ('"' :: (text ++ ['"']))) named
  have realm : Authenticate.readPart {} (quoted "realm".toList auth.realm) =
      some { realm := auth.realm } := by
    unfold Authenticate.readPart
    rw [value _ _ (by decide) (solid_quoted formed.realm (by decide) (by decide))]
    exact congrArg (Option.map _) (unquote_quoted auth.realm)
  have nonce : Authenticate.readPart { realm := auth.realm } (quoted "nonce".toList auth.nonce) =
      some auth := by
    unfold Authenticate.readPart
    rw [value _ _ (by decide) (solid_quoted formed.nonce (by decide) (by decide))]
    exact congrArg (Option.map _) (unquote_quoted auth.nonce)
  obtain ⟨rest, found, parts⟩ := Option.map_eq_some_iff.mp (digest_parts solid written)
  unfold Authenticate.fromStr Authenticate.toText
  rw [trim_digest solid written, found, Option.bind_some, parts]
  unfold Authenticate.parts
  rw [List.foldlM_cons, realm, Option.bind_eq_bind, Option.bind_some, List.foldlM_cons, nonce]
  rfl

end RoundTrip

end SipText
